import PackedFields.Syntax.Grammar.Expression
import PackedFields.Syntax.Grammar.Visibility

/-!
# The grammar of statements

A statement is a local name, an item, the use of a macro, or an expression. An expression that ends
in a block needs no semicolon after it, and neither does the last one.
-/

namespace PackedFields.Grammar

open PackedFields.Parser

variable (g : Grammar)

/-- The tokens after the path at the start, if one stands there. -/
def afterPath? (ts : List Token) : Option (List Token) :=
  match path ⟨ts, .nowhere, none⟩ with
  | .ok (_, c) => some c.rest
  | .error _ => none

/-- Whether the use of a macro with braces stands at the start, as a statement of its own. -/
def startsMacroStatement (ts : List Token) : Bool :=
  (afterPath? ts).any fun rest =>
    startsMark "!" rest && startsGroup .brace rest.tail &&
      !(startsDot rest.tail.tail || startsMark "?" rest.tail.tail)

/-- Whether the use of a macro that is given a name stands at the start. -/
def startsMacroItem (ts : List Token) : Bool :=
  (afterPath? ts).any fun rest =>
    startsMark "!" rest && (startsName rest.tail || startsWord "try" rest.tail)

/-- The words of which the second says whether a function follows the first. -/
def functionWords : List String := ["unsafe", "extern", "fn"]

/-- Whether an item stands at the start, after its attributes. -/
def startsItem (ts : List Token) : Bool :=
  let next := ts.tail
  startsWordOf ["pub", "extern", "use", "fn", "mod", "type", "struct", "enum", "trait", "impl",
      "macro"] ts ||
    (startsWord "crate" ts && !startsMark "::" next) ||
    (startsWord "static" ts && (startsWord "mut" next || startsName next)) ||
    (startsWord "const" ts && !(startsGroup .brace next || startsWordOf ["static", "move"] next ||
      startsMark "|" next ||
      (startsWord "async" next && !startsWordOf functionWords next.tail))) ||
    (startsWord "unsafe" ts && !startsGroup .brace next) ||
    (startsWord "async" ts && startsWordOf functionWords next) ||
    (startsWord "union" ts && startsName next) ||
    (startsWord "auto" ts && startsWord "trait" next) ||
    (startsWord "default" ts && startsWordOf ["unsafe", "impl"] next) ||
    startsMacroItem ts

/-- Reads a local name, after its attributes. -/
def localName : Parser (List Token) := do
  let kw ← word "let"
  let p := (← g.pattern).tokens
  let annotation ← if ← markNext ":" then do
      let colon ← mark ":"
      pure (colon ++ (← g.type true).tokens)
    else pure []
  let start := kw ++ p ++ annotation
  if ← markNext "=" then
    let sign ← mark "="
    let e ← g.expression true
    let otherwise ← if !e.endsInBraces && (← wordNext "else") then do
        let kw ← anyToken
        pure (kw ++ (← g.block))
      else pure []
    return start ++ sign ++ e.tokens ++ otherwise ++ (← mark ";")
  else return start ++ (← mark ";")

/-- Reads the use of a macro with braces as a statement, after its attributes. -/
def macroStatement : Parser (List Token) := do
  let p ← path
  let bang ← mark "!"
  let input ← anyToken
  return p.tokens ++ bang ++ input ++ (← mark? ";")

/-- Reads a statement, and says whether another may follow it. -/
def statement : Parser (List Token × Bool) := do
  if ← ahead (fun ts => startsMacroStatement (skipAttributes ts)) then
    let attrs ← g.attributeTokens
    return (attrs ++ (← macroStatement), true)
  else if ← ahead (fun ts => startsItem (skipAttributes ts)) then return (← g.item, true)
  else if ← ahead (fun ts => startsWord "let" (skipAttributes ts)) then
    let attrs ← g.attributeTokens
    return (attrs ++ (← g.localName), true)
  else
    let e ← g.statementExpression
    let sign ← mark? ";"
    return (e.tokens ++ sign, !sign.isEmpty || e.isStatement)

/-- Reads statements up to the end of the group. -/
def statementsStep : Parser (List Token) := tokensWhile do
  let signs ← tokensWhile do
    if ← markNext ";" then return (← mark ";", true) else return ([], false)
  if ← atEnd then return (signs, false)
  let (ts, ended) ← g.statement
  if ← atEnd then return (signs ++ ts, false)
  if !ended then fail .openStatement
  return (signs ++ ts, true)

end PackedFields.Grammar
