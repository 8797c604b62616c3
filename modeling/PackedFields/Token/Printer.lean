import PackedFields.Token

/-!
# The text of tokens

Tokens are separated by one blank, but for a joint punctuation character, which the next token
follows at once. Braces keep a blank inside, other delimiters do not.
-/

namespace PackedFields.Token

mutual

/-- The text of one token. -/
def text : Token → String
  | ident n _ => n.spelling
  | punct c _ _ => c.toString
  | literal s _ => s
  | group .paren inner _ _ => "(" ++ textOf true inner ++ ")"
  | group .bracket inner _ _ => "[" ++ textOf true inner ++ "]"
  | group .brace [] _ _ => "\x7b \x7d"
  | group .brace inner _ _ => "\x7b " ++ textOf true inner ++ " \x7d"

/-- The text of tokens that follow others, or none if they are `glued`. -/
def textOf (glued : Bool) : List Token → String
  | [] => ""
  | t :: ts =>
    (if glued then "" else " ") ++ text t ++
      textOf (match t with | punct _ joint _ => joint | _ => false) ts

end

/-- The text of a list of tokens. -/
def print (ts : List Token) : String := textOf true ts

end PackedFields.Token
