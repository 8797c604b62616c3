import PackedFields.Syntax.Attribute
import PackedFields.Syntax.Grammar.Basic

/-!
# The grammar of attributes and blocks

An attribute stands before what it belongs to, or, with an exclamation mark, inside of it at the
start. Not all blocks admit attributes inside.
-/

namespace PackedFields.Grammar

open PackedFields.Parser

variable (g : Grammar)

/-! ## Attributes -/

/-- Reads the value of an attribute. -/
def attributeValue : Parser (List Token) := do
  if ← ahead (fun ts => startsMark "#" ts && startsGroup .bracket ts.tail) then
    fail .attributeInAttribute
  else return (← g.expression true).tokens

/-- Reads the path of an attribute, and its place. -/
def attributePath : Parser (Path × Span) := do
  let (p, source) ← written do
    if ← wordNext "unsafe" then
      let (n, _) ← anyName
      return Path.ofName n
    else path
  return (p, Token.spanOf source)

/-- Reads the input of an attribute. -/
def attributeInput : Parser AttributeInput := fun c =>
  match c.rest with
  | .group d inner o s :: rest => .ok (.list d inner o s, { c with rest })
  | .punct '=' _ s :: rest =>
    (do return .value s (← g.attributeValue) : Parser _) { c with rest }
  | _ => .ok (.bare, c)

/-- Reads what stands in the brackets of an attribute, which lies at `place`. -/
def attributeContent (place : Span) : Parser Attribute := do
  let (p, pathPlace) ← attributePath
  return ⟨p, pathPlace, ← g.attributeInput, place⟩

/-- Reads an attribute of what follows it. -/
def oneAttribute : Parser Attribute := do
  let hash ← mark "#"
  let (a, _, close) ← group .bracket (g.attributeContent .nowhere)
  return { a with place := (Token.spanOf hash).through close }

/-- Reads the attributes of what follows them. -/
def attributes : Parser (List Attribute) := repeated do
  if ← markNext "#" then return some (← g.oneAttribute) else return none

/-- Reads the attributes of what follows them, and hands their tokens on. -/
def attributeTokens : Parser (List Token) := do
  return (← g.attributes).flatMap Attribute.tokens

/-- Reads the attributes of what they stand in. -/
def innerAttributes : Parser (List Token) := tokensWhile do
  if ← ahead (fun ts => startsMark "#" ts && startsMark "!" ts.tail) then
    let hash ← mark "#"
    let bang ← mark "!"
    let content ← groupOf .bracket do
      let a ← g.attributeContent .nowhere
      return a.path.tokens ++ Attribute.inputTokens a.input
    return (hash ++ bang ++ content, true)
  else return ([], false)

/-! ## Blocks -/

/-- Reads statements in braces. -/
def block : Parser (List Token) := groupOf .brace g.statements

/-- Reads statements in braces, after attributes of what the braces belong to. -/
def body : Parser (List Token) := groupOf .brace do
  return (← g.innerAttributes) ++ (← g.statements)

end PackedFields.Grammar
