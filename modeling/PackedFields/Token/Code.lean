import PackedFields.Token
import PackedFields.Text.Quoted

/-!
# Writing tokens

The pieces that generated code is put together from. Tokens written here have no place in a text.
-/

namespace PackedFields.Code

/-- The token of a name. -/
def name (n : Name) : Token := .ident n .nowhere

/-- The token of a word without a mark. -/
def word (w : String) : Token := name ⟨w, false⟩

/-- Several words in a row. -/
def words (ws : List String) : List Token := ws.map word

/-- A punctuation character that stands for itself. -/
def sign (c : Char) : Token := .punct c false .nowhere

/-- An operator of several characters: all but the last are joint. -/
def operator : List Char → List Token
  | [] => []
  | [c] => [sign c]
  | c :: cs => .punct c true .nowhere :: operator cs

/-- The separator of path segments. -/
def pathSep : List Token := operator [':', ':']

/-- The arrow before the type of a result. -/
def arrow : List Token := operator ['-', '>']

/-- A lifetime. -/
def lifetime (w : String) : List Token := [.punct '\x27' true .nowhere, word w]

/-- A string literal. -/
def string (s : String) : Token := .literal (Text.quote s) .nowhere

/-- A literal by its spelling. -/
def literal (s : String) : Token := .literal s .nowhere

/-- A number without a suffix. -/
def number (n : Nat) : Token := literal (toString n)

/-- Tokens between delimiters. -/
def group (d : Delimiter) (ts : List Token) : Token := .group d ts .nowhere .nowhere

/-- Tokens between parentheses. -/
def parens (ts : List Token) : Token := group .paren ts

/-- Tokens between square brackets. -/
def brackets (ts : List Token) : Token := group .bracket ts

/-- Tokens between braces. -/
def braces (ts : List Token) : Token := group .brace ts

/-- A path that starts at the root of all names. -/
def rootPath (segments : List String) : List Token :=
  segments.flatMap fun s => pathSep ++ [word s]

/-- The given runs of tokens, with `separator` between them. -/
def separated (separator : List Token) : List (List Token) → List Token
  | [] => []
  | [ts] => ts
  | ts :: more => ts ++ separator ++ separated separator more

/-- The given runs of tokens, with commas between them. -/
def commas (runs : List (List Token)) : List Token := separated [sign ','] runs

/-- The given runs of tokens with commas between them, and after the last if `trailing`. -/
def commaList (trailing : Bool) (runs : List (List Token)) : List Token :=
  commas runs ++ if trailing && !runs.isEmpty then [sign ','] else []

/-- The attribute with the given content. -/
def attr (content : List Token) : List Token := [sign '#', brackets content]

/-- A line of documentation, as an attribute. -/
def doc (line : String) : List Token := attr [word "doc", sign '=', string line]

end PackedFields.Code
