import PackedFields.Syntax.Precedence
import PackedFields.Syntax.Type

/-!
# The parts of a grammar

Types, expressions, patterns and items hold one another. A `Grammar` is a family of readers for
those that can stand inside another; the readers of this folder are made from such a family, and
`Grammar.upTo` makes a family from them.

Readers answer with the tokens that they have read, in the form in which they are handed on, and
with what decides how the text may go on.
-/

namespace PackedFields

/-- A path, as it is read. -/
structure SourcePath where
  /-- The tokens of the path. -/
  tokens : List Token
  /-- Whether the path is a single segment. -/
  single : Bool
  /-- Whether no segment has arguments. -/
  plain : Bool
  /-- Whether the last segment has no arguments. -/
  bare : Bool
  /-- Whether the path starts at a type in angle brackets. -/
  qualified : Bool
  deriving Repr, Inhabited

/-- The type that a path names. -/
def SourcePath.type (p : SourcePath) : SourceType :=
  match p.tokens with
  | [.ident n s] => .name n s
  | ts => if p.qualified then .other ts else .path ts p.single

/-- What a bound demands of a type. -/
inductive BoundKind where
  /-- A trait. -/
  | trait
  /-- A lifetime, whose name stands at `place`. -/
  | lifetime (place : Span)
  /-- No more than that the parameters up to `closing` are captured. -/
  | captures (closing : Span)
  deriving DecidableEq, Repr, Inhabited

/-- A bound of a type. -/
structure SourceBound where
  /-- The tokens of the bound. -/
  tokens : List Token
  /-- What it demands. -/
  kind : BoundKind
  deriving Repr, Inhabited

/-- What decides how a text may go on after an expression. -/
inductive ExpressionKind where
  /-- Two operands are compared. -/
  | comparison
  /-- A range, whose dots stand at `dots`. -/
  | range (dots : Span)
  /-- A construct that ends in a block. -/
  | block
  /-- A use of a macro, with braces if `braced`. -/
  | macroCall (braced : Bool)
  /-- A construct that is kept as it is written. -/
  | kept
  /-- Anything else. -/
  | other
  deriving DecidableEq, Repr, Inhabited

/-- An expression. -/
structure SourceExpression where
  /-- The tokens of the expression. -/
  tokens : List Token
  /-- What it is. -/
  kind : ExpressionKind := .other
  deriving Repr, Inhabited

namespace SourceExpression

/-- Whether the expression is a range. -/
def isRange (e : SourceExpression) : Bool :=
  match e.kind with
  | .range _ => true
  | _ => false

/-- Whether the expression is a statement without a semicolon. -/
def isStatement (e : SourceExpression) : Bool :=
  match e.kind with
  | .block => true
  | .macroCall braced => braced
  | _ => false

/-- Whether the last token of the expression is a group in braces. -/
def endsInBraces (e : SourceExpression) : Bool :=
  match e.tokens.getLast? with
  | some (.group .brace ..) => true
  | _ => false

end SourceExpression

/-- A pattern. -/
structure SourcePattern where
  /-- The tokens of the pattern. -/
  tokens : List Token
  /-- The place of the dots, if the pattern is a range without one of its ends. -/
  openRange : Option Span := none
  /-- Whether the pattern is kept as it is written. -/
  kept : Bool := false
  deriving Repr, Inhabited

/-- Readers for what can stand inside another construct. -/
structure Grammar where
  /-- Reads a type, which may go on with a plus sign if `plus`. -/
  type : (plus : Bool) → Parser SourceType
  /-- Reads a bound, which may list captured parameters or be constant only where that is
  admitted. -/
  bound : (captures const : Bool) → Parser SourceBound
  /-- Reads an operand with the operators after it that bind more closely than one of the given
  precedence before it. A brace after a path can open a struct only if `braces`. -/
  operand : (braces : Bool) → Precedence → Parser SourceExpression
  /-- Reads an expression where a statement can stand. One that starts with a block ends with it,
  unless a dot or a question mark follows. -/
  statementExpression : Parser SourceExpression
  /-- Reads a pattern without alternatives. -/
  pattern : Parser SourcePattern
  /-- Reads statements up to the end of the group. -/
  statements : Parser (List Token)
  /-- Reads an item. -/
  item : Parser (List Token)

/-- Reads an expression. A brace after a path can open a struct only if `braces`. -/
def Grammar.expression (g : Grammar) (braces : Bool) : Parser SourceExpression :=
  g.operand braces .none

end PackedFields
