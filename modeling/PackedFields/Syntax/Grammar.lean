import PackedFields.Syntax.Grammar.Item

/-!
# The grammar of source

Constructs nest, and each of them takes at least one token. A text is therefore read by a grammar
that is deep enough for the number of its tokens.
-/

namespace PackedFields

namespace Grammar

open PackedFields.Parser

/-- The grammar of constructs that nest at most so deep. -/
def upTo : Nat → Grammar
  | 0 => {
      type := fun _ => unexpected
      bound := fun _ _ => unexpected
      operand := fun _ _ => unexpected
      statementExpression := unexpected
      pattern := unexpected
      statements := unexpected
      item := unexpected }
  | depth + 1 => {
      type := fun plus c => (upTo depth).typeStep plus c
      bound := fun captures const c => (upTo depth).boundStep captures const c
      operand := fun braces before c => (upTo depth).operandStep braces before c
      statementExpression := fun c => (upTo depth).statementExpressionStep c
      pattern := fun c => (upTo depth).patternStep c
      statements := fun c => (upTo depth).statementsStep c
      item := fun c => ((upTo depth).itemStep.map Item.tokens) c }

/-- Reads by a grammar that is deep enough for the text. A construct is reached from another one
after at most so many steps that take no token. -/
def read {α : Type} (p : Grammar → Parser α) : Parser α := fun c =>
  p (upTo (4 * Token.weights c.rest + 4)) c

end Grammar

namespace Parser

/-- Reads a type, which may go on with a plus sign if `plus`. -/
def type (plus : Bool) : Parser SourceType := Grammar.read fun g => g.type plus

/-- Goes on in parentheses after a type. -/
def insideAfter (first : SourceType) : Parser Grammar.Inside :=
  Grammar.read fun g => g.insideAfter first

/-- Goes on after parentheses with `i` in them, at the start of a type that may go on with a plus
sign. -/
def afterParens (i : Grammar.Inside) (opening closing : Span) : Parser SourceType :=
  Grammar.read fun g => g.afterParens true i opening closing

/-- Goes on after a group without visible delimiters with the type `t` in it. -/
def afterUnseen (t : SourceType) : Parser SourceType := Grammar.read fun g => g.afterUnseen t

/-- Reads the attributes of what follows them. -/
def attributes : Parser (List Attribute) := Grammar.read Grammar.attributes

/-- Reads generic parameters in angle brackets, if they stand next. -/
def generics : Parser Generics := Grammar.read Grammar.generics

/-- Reads the conditions of a `where` clause, with their commas. -/
def whereClause : Parser (List Token) := Grammar.read Grammar.whereClause

/-- Reads an item. -/
def item : Parser Item := Grammar.read Grammar.itemStep

end Parser

end PackedFields
