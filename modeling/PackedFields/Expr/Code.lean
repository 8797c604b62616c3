import PackedFields.Expr.Basic

/-!
# Expressions as code

`Expr.tokens` writes an expression so that the precedence of operators gives the same tree back:
whatever is more than a name or a call is put in parentheses, unless it is the outermost
expression or the argument of a call.
-/

namespace PackedFields.Expr

/-- The literal that masks the lowest `width` bits. -/
def maskLiteral (width : Nat) : Token :=
  Code.literal (if width = 0 then "0" else "0b" ++ String.ofList (List.replicate width '1'))

/-- Whether the expression binds its parts at least as tightly as any operator does. -/
def isTight : Expr → Bool
  | backing => true
  | param _ => true
  | ofBool .. => true
  | _ => false

/-- The tokens of an operand, given those of the expression. -/
def enclosed (e : Expr) (ts : List Token) : List Token :=
  if e.isTight then ts else [Code.parens ts]

mutual

/-- The tokens of an expression, where `read` are the tokens that read the backing integer. -/
def tokens (read : List Token) : Expr → List Token
  | backing => read
  | param n => [Code.name n]
  | shr e n =>
    enclosed e (tokens read e) ++ Code.operator ['>', '>'] ++ [Code.number n]
  | shl e n =>
    enclosed e (tokens read e) ++ Code.operator ['<', '<'] ++ [Code.number n]
  | mask e width => enclosed e (tokens read e) ++ [Code.sign '&', maskLiteral width]
  | cast e t => enclosed e (tokens read e) ++ [Code.word "as", t.token]
  | ofBool e t =>
    [t.token] ++ Code.pathSep ++ [Code.word "from", Code.parens (tokens read e)]
  | test e => enclosed e (tokens read e) ++ Code.operator ['=', '='] ++ [Code.number 1]
  | or [] => [Code.number 0]
  | or [e] => tokens read e
  | or (e :: es) => enclosed e (tokens read e) ++ furtherTerms read es

/-- The tokens of the terms after the first, each with the operator before it. -/
def furtherTerms (read : List Token) : List Expr → List Token
  | [] => []
  | e :: es => [Code.sign '|'] ++ enclosed e (tokens read e) ++ furtherTerms read es

end

end PackedFields.Expr
