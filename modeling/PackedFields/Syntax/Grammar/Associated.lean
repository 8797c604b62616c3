import PackedFields.Syntax.Grammar.Function

/-!
# The grammar of associated items

Items inside of traits, implementations and foreign modules. These are read also in forms that have
no meaning where they stand, such as a function of an implementation without a body; such an item is
kept as it is written.
-/

namespace PackedFields.Grammar

open PackedFields.Parser

variable (g : Grammar)

/-! ## Parts -/

/-- Reads bounds with plus signs between them up to what `stop` recognises. -/
def boundsBefore (stop : List Token → Bool) : Parser (List Token) := tokensWhile do
  if ← ahead stop then return ([], false)
  let b ← g.paramBound
  if ← ahead stop then return (b, false)
  return (b ++ (← mark "+"), true)

/-- Reads the value after an equals sign, if one stands next. -/
def initial? : Parser (List Token) := do
  if ← markNext "=" then
    let sign ← mark "="
    return sign ++ (← g.value)
  else return []

/-- Reads a constant: its tokens, whether it has a value, and whether it has parameters or
conditions. -/
def constDeclaration : Parser (List Token × Bool × Bool) := do
  let kw ← word "const"
  let (n, s) ← if ← ahead (fun ts => startsName ts || startsWord "_" ts) then anyName
    else expected [.name, .word "_"]
  let (generics, source) ← written g.genericTokens
  let colon ← mark ":"
  let t := (← g.type true).tokens
  let value ← g.initial?
  let (conditions, conditional) ← g.whereClause?
  let start := kw ++ [.ident n s] ++ generics ++ colon ++ t ++ value
  let ts := start ++ Generics.whereClause { conditions } ++ (← mark ";")
  return (ts, !value.isEmpty, !source.isEmpty || conditional)

/-- Where the conditions of a type stand, relative to what it is. -/
inductive ConditionPlace where
  /-- Before it. -/
  | before
  /-- After it. -/
  | after
  /-- Before it, or else after it. -/
  | either
  deriving DecidableEq, Repr

/-- A name for a type, as it is read. -/
structure TypeNaming where
  /-- The tokens. -/
  tokens : List Token
  /-- Whether there is a colon for bounds. -/
  bounded : Bool
  /-- Whether it is said which type is meant. -/
  defined : Bool

/-- Reads a name for a type, after its qualifiers. A colon without bounds after it is left out. -/
def typeNaming (conditionPlace : ConditionPlace) : Parser TypeNaming := do
  let kw ← word "type"
  let (n, s) ← name
  let generics ← g.genericTokens
  let colon ← mark? ":"
  let ends := fun ts => startsWord "where" ts || startsMarkOf ["=", ";"] ts
  let bounds ← if colon.isEmpty then pure [] else g.boundsBefore ends
  let shown := if bounds.isEmpty then [] else colon ++ bounds
  let (early, met) ← if conditionPlace == .after then pure ([], false) else g.whereClause?
  let meant ← if ← markNext "=" then do
      let sign ← mark "="
      pure (sign ++ (← g.type true).tokens)
    else pure []
  let late ← if conditionPlace == .before || met then pure [] else do pure (← g.whereClause?).1
  let clause := fun conditions => Generics.whereClause { conditions }
  let start := kw ++ [.ident n s] ++ generics ++ shown
  return {
    tokens := start ++ clause early ++ meant ++ clause late ++ (← mark ";")
    bounded := !colon.isEmpty
    defined := !meant.isEmpty }

/-- Whether the path of a macro stands at the start. -/
def startsMacroPath (ts : List Token) : Bool :=
  startsName ts || startsWordOf ["self", "super", "crate"] ts || startsMark "::" ts

/-- Reads the use of a macro. It needs a semicolon unless its input is in braces. -/
def macroUse : Parser (List Token) := do
  let p ← path
  let bang ← mark "!"
  let braced ← groupNext .brace
  let input ← anyGroup
  return p.tokens ++ bang ++ input ++ (← if braced then pure [] else mark ";")

/-! ## Members of traits -/

/-- Reads the body of a function of a trait, or the semicolon in its place. -/
def bodyOrEnd : Parser (List Token) := do
  if ← groupNext .brace then g.body
  else if ← markNext ";" then mark ";"
  else expected [.group .brace, .mark ";"]

/-- Reads what a trait holds, after its qualifiers, of which there are none if `plain`. Says whether
it is kept as it is written. -/
def traitMemberAfter (plain : Bool) : Parser (List Token × Bool) := do
  let qualified := fun ts =>
    startsWord "const" ts && startsWordOf ["async", "unsafe", "extern", "fn"] ts.tail
  if ← ahead (fun ts => startsSignature false ts || qualified ts) then
    let (start, _) ← g.signature false
    return (start ++ (← g.bodyOrEnd), false)
  else if ← wordNext "const" then
    if ← ahead (fun ts => startsName ts.tail || startsWord "_" ts.tail) then
      let (ts, _, special) ← g.constDeclaration
      return (ts, special)
    else
      let _ ← anyToken
      expected [.name, .word "_", .word "async", .word "unsafe", .word "extern", .word "fn"]
  else if ← wordNext "type" then return ((← g.typeNaming .after).tokens, false)
  else if plain && (← ahead startsMacroPath) then return (← macroUse, false)
  else
    let starts := [.word "fn", .word "const", .word "type"]
    expected (starts ++ if plain then Wanted.macroStarts else [])

/-- Reads a member of a trait. One with qualifiers is kept as it is written. -/
def traitMember : Parser (List Token) := orWritten do
  let attrs ← g.attributeTokens
  let vis ← visibility
  let default ← word? "default"
  let plain := vis == .inherited && default.isEmpty
  let (ts, kept) ← g.traitMemberAfter plain
  return (attrs ++ ts, kept || !plain)

/-! ## Members of implementations -/

/-- Reads what an implementation holds, after its visibility, with the word `default` before it if
`special`. Only where `plain` can it be the use of a macro. Says whether it is kept as it is
written. -/
def implMemberAfter (plain special : Bool) : Parser (List Token × Bool) := do
  if ← ahead (startsSignature false) then
    let (start, _) ← g.signature false
    if ← markNext ";" then return (start ++ (← mark ";"), true)
    return (start ++ (← g.body), false)
  else if ← wordNext "const" then
    let (ts, valued, extended) ← g.constDeclaration
    return (ts, !valued || extended)
  else if ← wordNext "type" then
    let t ← g.typeNaming .after
    return (t.tokens, t.bounded || !t.defined)
  else if plain && (← ahead startsMacroPath) then return (← macroUse, false)
  else
    let starts := [.word "fn", .word "const", .word "type"]
    expected ((if special then [] else [.word "default"]) ++ starts ++
      if plain then Wanted.macroStarts else [])

/-- Reads a member of an implementation. -/
def implMember : Parser (List Token) := orWritten do
  let attrs ← g.attributeTokens
  let vis ← visibility
  let special ← ahead fun ts => startsWord "default" ts && !startsMark "!" ts.tail
  let default ← if special then anyToken else pure []
  let (ts, kept) ← g.implMemberAfter (vis == .inherited && !special) special
  return (attrs ++ vis.tokens ++ default ++ ts, kept)

/-! ## Members of foreign modules -/

/-- Reads a foreign function. -/
def foreignFunction : Parser (List Token × Bool) := do
  let (start, safe) ← g.signature true
  if ← groupNext .brace then return (start ++ (← g.body), true)
  return (start ++ (← mark ";"), safe)

/-- Reads a foreign static. -/
def foreignStatic : Parser (List Token × Bool) := do
  let qualifier ← wordOf? ["unsafe", "safe"]
  let kw ← word "static"
  let mutable ← word? "mut"
  let (n, s) ← name
  let colon ← mark ":"
  let t := (← g.type true).tokens
  let value ← g.initial?
  let start := qualifier ++ kw ++ mutable ++ [.ident n s] ++ colon ++ t ++ value
  return (start ++ (← mark ";"), !qualifier.isEmpty || !value.isEmpty)

/-- Reads a member of a foreign module. -/
def foreignMember : Parser (List Token) := orWritten do
  let attrs ← g.attributeTokens
  let vis ← visibility
  let isStatic := fun ts => startsWord "static" ts ||
    (startsWordOf ["unsafe", "safe"] ts && startsWord "static" ts.tail)
  let (ts, kept) ← if ← ahead (startsSignature true) then g.foreignFunction
    else if ← ahead isStatic then g.foreignStatic
    else if ← wordNext "type" then do
      let t ← g.typeNaming .either
      pure (t.tokens, t.bounded || t.defined)
    else if vis == .inherited && (← ahead startsMacroPath) then do pure (← macroUse, false)
    else
      let starts := [.word "fn", .word "static", .word "type"]
      expected (starts ++ if vis == .inherited then Wanted.macroStarts else [])
  return (attrs ++ vis.tokens ++ ts, kept)

/-- Reads members in braces, after attributes of what the braces belong to. -/
def members (member : Parser (List Token)) : Parser (List Token) := groupOf .brace do
  let attrs ← g.innerAttributes
  return attrs ++ (← tokensWhile do
    if ← atEnd then return ([], false) else return (← member, true))

end PackedFields.Grammar
