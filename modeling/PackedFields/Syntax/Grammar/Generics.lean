import PackedFields.Syntax.Grammar.Path

/-!
# The grammar of generic parameters

Parameters stand after the name of an item, or after the word `for`, where they hold for a single
bound, function or closure. Bounds demand traits and lifetimes of a type.
-/

namespace PackedFields.Grammar

open PackedFields.Parser

variable (g : Grammar)

/-! ## Parameters -/

/-- Reads the tokens of a lifetime. -/
def lifetimeTokens : Parser (List Token) := do return (← lifetime).2

/-- Reads a lifetime as a parameter, after its attributes. -/
def lifetimeParam (attrs : List Token) : Parser GenericParam := do
  let (n, _) ← lifetime
  if (← mark? ":").isEmpty then return .lifetime attrs n []
  return .lifetime attrs n (← boundsUntil lifetimeTokens (startsMarkOf [",", ">"]))

/-- Reads a type as a parameter, after its attributes. -/
def typeParam (attrs : List Token) : Parser GenericParam := do
  let (n, _) ← name
  let bounds ← if (← mark? ":").isEmpty then pure []
    else boundsUntil g.paramBound (startsMarkOf [",", ">", "="])
  if (← mark? "=").isEmpty then return .type attrs n bounds []
  return .type attrs n bounds (← g.type true).tokens

/-- Reads a constant as a parameter, after its attributes. -/
def constParam (attrs : List Token) : Parser GenericParam := do
  let _ ← word "const"
  let (n, _) ← name
  let _ ← mark ":"
  let t := (← g.type true).tokens
  if (← mark? "=").isEmpty then return .const attrs n t []
  return .const attrs n t (← g.constArgument)

/-- Reads a parameter of an item. A type can be without a name. -/
def itemParam : Parser GenericParam := do
  let attrs ← g.attributeTokens
  if ← ahead startsLifetime then lifetimeParam attrs
  else if ← ahead startsName then g.typeParam attrs
  else if ← wordNext "const" then g.constParam attrs
  else if ← wordNext "_" then
    let (n, _) ← anyName
    return .type attrs n [] []
  else expected [.lifetime, .name, .word "const"]

/-- Reads a parameter after the word `for`. -/
def binderParam : Parser GenericParam := do
  let attrs ← g.attributeTokens
  if ← ahead startsName then g.typeParam attrs
  else if ← ahead startsLifetime then lifetimeParam attrs
  else if ← wordNext "const" then g.constParam attrs
  else expected [.name, .lifetime, .word "const"]

/-- Reads the parameters of an item, in angle brackets, if they stand next. -/
def generics : Parser Generics := do
  if ← markNext "<" then
    let _ ← mark "<"
    let params ← commaSeparatedTo ">" g.itemParam
    let _ ← mark ">"
    return { params := params.map Prod.fst, trailingComma := params.getLast?.any Prod.snd }
  else return {}

/-- Reads parameters after the word `for`, if it stands next. -/
def binder : Parser (List Token) := do
  if ← wordNext "for" then
    let kw ← anyToken
    let opening ← mark "<"
    let params ← commaSeparatedTo ">" g.binderParam
    let run := params.flatMap fun (p, comma) =>
      p.declared ++ if comma then [Code.sign ','] else []
    return kw ++ opening ++ run ++ (← mark ">")
  else return []

/-- Whether the angle bracket that stands next would open generic parameters, not a type. -/
def startsParams (ts : List Token) : Bool :=
  startsMark "<" ts &&
    (startsMarkOf [">", "#"] ts.tail || startsWord "const" ts.tail ||
      ((startsName ts.tail || startsLifetime ts.tail) &&
        (let rest := skipOne ts.tail
        startsColon rest || startsMarkOf [",", ">", "="] rest)))

/-! ## Bounds -/

/-- Reads the types in parentheses that a function-like trait takes, and the type of its result, if
they stand next, maybe after a separator. -/
def functionArguments? : Parser (List Token) := do
  if ← ahead (fun ts => startsGroup .paren ts ||
      (dropMark "::".toList ts).any (startsGroup .paren)) then
    let _ ← mark? "::"
    let inputs ← groupOf .paren (commaTokens do return (← g.type true).tokens)
    if ← markNext "->" then
      let arrow ← mark "->"
      return inputs ++ arrow ++ (← g.type false).tokens
    else return inputs
  else return []

/-- Reads the word for a constant bound, or the word in brackets, if it stands next. Says whether it
does. -/
def constMark (admitted : Bool) : Parser Bool := do
  if ← groupNext .bracket then
    let (_, opening, closing) ← group .bracket (word "const")
    if !admitted then throw ⟨.maybeConstBound, opening.through closing⟩
    return true
  else if ← wordNext "const" then
    if !admitted then fail .constBound
    let _ ← anyToken
    return true
  else return false

/-- Reads a trait that bounds a type. Says whether it is kept as it is written, as a constant bound
is. -/
def traitBound (const : Bool) : Parser (List Token × Bool) := do
  let outer ← g.binder
  let kept ← constMark const
  let question ← mark? "?"
  let inner ← if outer.isEmpty && !question.isEmpty then g.binder else pure []
  let p ← g.genericPath false
  let args ← if p.bare then g.functionArguments? else pure []
  if !question.isEmpty && !(outer ++ inner).isEmpty then
    throw ⟨.optionalBinder, Token.spanOf question⟩
  return (question ++ outer ++ inner ++ p.tokens ++ args, kept)

/-- Reads a captured parameter, and says whether it is a lifetime. -/
def capture : Parser (List Token × Bool) := do
  let (n, isLifetime) ← if ← ahead startsLifetime then do pure (← lifetimeTokens, true)
    else if ← ahead (fun ts => startsName ts || startsWord "Self" ts) then
      do pure (← anyToken, false)
    else expected [.lifetime, .name, .mark ">"]
  if ← ahead (startsMarkOf [",", ">"]) then return (n, isLifetime)
  else expected [.mark ",", .mark ">"]

/-- Reads the list of captured parameters. It is an error unless it is `admitted`. -/
def captures (admitted : Bool) : Parser SourceBound := do
  let kw ← word "use"
  let opening ← mark "<"
  let params ← commaSeparatedTo ">" capture
  let closing ← mark ">"
  let place := Token.spanOf closing
  if !admitted then throw ⟨.captures, (Token.spanOf kw).through place⟩
  return ⟨kw ++ opening ++ lifetimesFirst Prod.snd Prod.fst params ++ closing, .captures place⟩

/-- Reads a bound. -/
def boundStep (admitsCaptures const : Bool) : Parser SourceBound := do
  if ← ahead startsLifetime then
    let ts ← lifetimeTokens
    return ⟨ts, .lifetime (Token.spanOf ts.tail)⟩
  if ← wordNext "use" then captures admitsCaptures
  else
    let ts ← orWritten do
      if ← groupNext .paren then
        let ((ts, kept), opening, closing) ← group .paren (g.traitBound const)
        return ([.group .paren ts opening closing], kept)
      else g.traitBound const
    return ⟨ts, .trait⟩

/-- Whether a bound can stand at the start. -/
def startsBound (ts : List Token) : Bool :=
  startsAnyName ts || startsMarkOf ["::", "?"] ts || startsLifetime ts || startsGroup .paren ts

/-- Whether a constant bound can stand at the start. -/
def startsConstBound (ts : List Token) : Bool :=
  startsBound ts || startsGroup .bracket ts

/-- Reads bounds with plus signs between them, and maybe one at the end: each of them, with the
sign after it. There is only one bound unless `plus`. -/
def bounds (plus admitsCaptures const : Bool) : Parser (List (SourceBound × List Token)) :=
  fun c => go (c.rest.length + 1) c
where
  /-- The bounds, at most so many. -/
  go : Nat → Parser (List (SourceBound × List Token))
    | 0 => return []
    | count + 1 => do
      let b ← g.bound admitsCaptures const
      if !plus || !(← markNext "+") then return [(b, [])]
      let sign ← mark "+"
      if ← ahead (if const then startsConstBound else startsBound) then
        return (b, sign) :: (← go count)
      else return [(b, sign)]

/-! ## Conditions -/

/-- Whether the conditions of a `where` clause have ended. -/
def endsCondition (ts : List Token) : Bool :=
  ts.isEmpty || startsGroup .brace ts || startsMarkOf [",", ";", "="] ts || startsColon ts

/-- Reads one condition of a `where` clause. -/
def condition : Parser (List Token) := do
  if ← ahead (fun ts => startsLifetime ts && startsMark ":" (skipOne ts)) then
    let life ← lifetimeTokens
    let colon ← mark ":"
    let ends := fun ts => endsCondition ts || startsMark ":" ts
    return life ++ colon ++ (← boundsUntil lifetimeTokens ends)
  else
    let life ← g.binder
    let bounded := (← g.type true).tokens
    let colon ← mark ":"
    return life ++ bounded ++ colon ++ (← boundsUntil g.paramBound endsCondition)

/-- Reads the conditions of a `where` clause, with their commas. -/
def whereClause : Parser (List Token) := do
  let _ ← word "where"
  if ← ahead startsParams then fail .whereParams
  tokensWhile do
    if ← ahead endsCondition then return ([], false)
    let c ← g.condition
    if ← markNext "," then return (c ++ (← mark ","), true)
    return (c, false)

/-- Reads the conditions of a `where` clause, if one stands next, and says whether it does. -/
def whereClause? : Parser (List Token × Bool) := do
  if ← wordNext "where" then return (← g.whereClause, true) else return ([], false)

/-- Reads a `where` clause, if one stands next, and hands it on. -/
def whereTokens : Parser (List Token) := do
  return Generics.whereClause { conditions := (← g.whereClause?).1 }

/-- Reads generic parameters, if they stand next, and hands them on. -/
def genericTokens : Parser (List Token) := do return (← g.generics).declared

end PackedFields.Grammar
