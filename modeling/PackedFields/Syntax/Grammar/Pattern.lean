import PackedFields.Syntax.Grammar.Type

/-!
# The grammar of patterns

A pattern stands for the values that it matches. It can hold constants, ranges of them, and paths,
which are read as they are in expressions.
-/

namespace PackedFields.Grammar

open PackedFields.Parser

variable (g : Grammar)

/-! ## The names of fields -/

/-- The number of a field that a literal stands for. -/
def fieldNumber (spelling : String) : Except SyntaxError.Cause Nat :=
  match Literal.number? spelling with
  | none => .error (.expected [.integer] false)
  | some (_, true) => .error .suffixedNumber
  | some (n, false) => if Literal.wordLimit ≤ n then .error .tooLarge else .ok n

/-- The number of a field that a literal stands for after a minus sign, which none does. -/
def negativeFieldNumber (spelling : String) : SyntaxError.Cause :=
  match Literal.number? spelling with
  | none => .expected [.integer] false
  | some (_, true) => .suffixedNumber
  | some (_, false) => .negative

/-- Reads what names a field, and says whether it is a name. A number is written anew. -/
def member : Parser (List Token × Bool) := fun c =>
  match c.rest with
  | .ident n s :: rest =>
    if n.isKeyword then expected [.member] c else .ok (([.ident n s], true), { c with rest })
  | .literal spelling s :: rest =>
    if (Literal.number? spelling).isNone then expected [.member] c
    else match fieldNumber spelling with
      | .ok n => .ok (([.literal (toString n) s], false), { c with rest })
      | .error cause => .error ⟨cause, s⟩
  | .punct '-' _ s :: .literal spelling t :: _ =>
    if (Literal.number? spelling).isNone then expected [.member] c
    else .error ⟨negativeFieldNumber spelling, s.through t⟩
  | _ => expected [.member] c

/-! ## Ranges -/

/-- Whether a range ends here without an end of its own. -/
def endsRange (ts : List Token) : Bool :=
  ts.isEmpty || startsMarkOf ["|", "=", ",", ";"] ts || startsColon ts || startsWord "if" ts

/-- Reads an end of a range, if one stands here. -/
def rangeEnd? : Parser (List Token) := do
  if ← ahead endsRange then return []
  else if ← ahead startsLiteral then literal
  else if ← ahead startsPath then return (← g.qualifiedPath true).tokens
  else if ← wordNext "const" then
    let kw ← anyToken
    return kw ++ (← g.body)
  else expected Wanted.rangeEnds

/-- Reads the dots of a range that has a start, and says whether its end belongs to it. Three dots
stand for two and an equals sign. -/
def innerDots : Parser (List Token × Bool) := do
  if ← markNext "..=" then return (← mark "..=", true)
  else if ← markNext "..." then
    let _ ← mark "..."
    return (Code.operator "..=".toList, true)
  else return (← mark "..", false)

/-- Reads the dots and the end of a range with the given start. -/
def rangeFrom (start : List Token) : Parser SourcePattern := do
  let (dots, closed) ← innerDots
  let stop ← g.rangeEnd?
  if closed && stop.isEmpty then expected [.upperBound]
  return {
    tokens := start ++ dots ++ stop
    openRange := if stop.isEmpty then some (Token.spanOf dots) else none }

/-- Reads a range without a start. Dots alone stand for any number of parts. -/
def rangeTo : Parser SourcePattern := do
  let closed ← markNext "..="
  let dots ← mark (if closed then "..=" else "..")
  let stop ← g.rangeEnd?
  if closed && stop.isEmpty then expected [.upperBound]
  return {
    tokens := dots ++ stop
    openRange := if stop.isEmpty then none else some (Token.spanOf dots) }

/-! ## Alternatives -/

/-- Whether the bar between two alternatives stands at the start. -/
def startsBar (ts : List Token) : Bool := startsMark "|" ts && !startsMarkOf ["||", "|="] ts

/-- Reads alternatives, each after a bar. -/
def furtherAlternatives : Parser (List Token) := tokensWhile do
  if ← ahead startsBar then
    let bar ← mark "|"
    return (bar ++ (← g.pattern).tokens, true)
  else return ([], false)

/-- Reads a pattern with alternatives, and maybe a bar before the first. -/
def alternatives : Parser SourcePattern := do
  let bar ← mark? "|"
  let first ← g.pattern
  let more ← g.furtherAlternatives
  if bar.isEmpty && more.isEmpty then return first
  return { tokens := bar ++ first.tokens ++ more }

/-! ## Patterns with parts -/

/-- Reads the parts of a tuple. -/
def tupleParts : Parser (List Token) :=
  groupOf .paren (commaTokens do return (← g.alternatives).tokens)

/-- Reads a part of a slice. A range without one of its ends must stand in parentheses. -/
def slicePart : Parser (List Token) := do
  let p ← g.alternatives
  match p.openRange with
  | some dots => throw ⟨.openRangeInSlice, dots⟩
  | none => return p.tokens

/-- Reads a field of a struct. One in a box is kept as it is written. -/
def fieldPattern : Parser (List Token) := orWritten do
  let boxed ← word? "box"
  let ref ← word? "ref"
  let mutable ← word? "mut"
  let qualifiers := boxed ++ ref ++ mutable
  if !qualifiers.isEmpty then
    let (n, s) ← name
    return (qualifiers ++ [.ident n s], !boxed.isEmpty)
  let (m, named) ← member
  if named && !(← markNext ":") then return (m, false)
  let colon ← mark ":"
  return (m ++ colon ++ (← g.alternatives).tokens, false)

/-- Reads the fields of a struct. Two dots leave out all others and come last. -/
def fieldPatterns : Parser (List Token) := tokensWhile do
  if ← atEnd then return ([], false)
  let attrs ← g.attributeTokens
  if ← markNext ".." then return (attrs ++ (← mark ".."), false)
  let p ← g.fieldPattern
  if ← atEnd then return (attrs ++ p, false)
  return (attrs ++ p ++ (← mark ","), true)

/-- Reads a pattern that starts with a path: a macro, a struct, a tuple, a range or a constant. -/
def pathPattern : Parser SourcePattern := do
  let p ← g.qualifiedPath true
  if let some input ← macroInput? p then return { tokens := p.tokens ++ input }
  if ← groupNext .brace then
    return { tokens := p.tokens ++ (← groupOf .brace g.fieldPatterns) }
  else if ← groupNext .paren then return { tokens := p.tokens ++ (← g.tupleParts) }
  else if ← markNext ".." then g.rangeFrom p.tokens
  else return { tokens := p.tokens }

/-- Reads a name that is given to a value, which can be matched by a pattern of its own. -/
def namePattern : Parser SourcePattern := do
  let ref ← word? "ref"
  let mutable ← word? "mut"
  let (n, s) ← if ← wordNext "self" then anyName else name
  let start := ref ++ mutable ++ [.ident n s]
  if ← markNext "@" then
    let sign ← mark "@"
    return { tokens := start ++ sign ++ (← g.pattern).tokens }
  else return { tokens := start }

/-! ## All patterns -/

/-- Whether a path stands at the start that is more than a name for a value. -/
def startsPathPattern (ts : List Token) : Bool :=
  let next := ts.tail
  (startsName ts && (startsMarkOf ["::", "!", ".."] next || startsGroup .brace next ||
      startsGroup .paren next)) ||
    (startsWord "self" ts && startsMark "::" next) || startsMarkOf ["::", "<"] ts ||
    startsWordOf ["Self", "super", "crate"] ts

/-- Reads a pattern without alternatives. -/
def patternStep : Parser SourcePattern := do
  if ← ahead startsPathPattern then g.pathPattern
  else if ← wordNext "_" then return { tokens := ← anyToken }
  else if ← wordNext "box" then
    let (_, source) ← written do
      let _ ← word "box"
      g.pattern
    return { tokens := source, kept := true }
  else if ← ahead (fun ts => startsMark "-" ts || startsLiteral ts || startsWord "const" ts) then
    let start ← g.rangeEnd?
    if ← markNext ".." then g.rangeFrom start else return { tokens := start }
  else if ← ahead (fun ts => startsWordOf ["ref", "mut", "self"] ts || startsName ts) then
    g.namePattern
  else if ← markNext "&" then
    let sign ← mark "&"
    let mutable ← word? "mut"
    return { tokens := sign ++ mutable ++ (← g.pattern).tokens }
  else if ← groupNext .paren then return { tokens := ← g.tupleParts }
  else if ← groupNext .bracket then
    return { tokens := ← groupOf .bracket (commaTokens g.slicePart) }
  else if ← ahead (fun ts => startsMark ".." ts && !startsMark "..." ts) then g.rangeTo
  else expected Wanted.patternStarts

end PackedFields.Grammar
