import PackedFields.Syntax.Grammar.Generics

/-!
# The grammar of types

A path can be the name of a type, the use of a macro, or the first bound of a type that is known
only by its bounds. Where a type must not go on with a plus sign, that sign belongs to what
surrounds the type.
-/

namespace PackedFields.Grammar

open PackedFields.Parser

variable (g : Grammar)

/-- Reads the type of a result, if an arrow stands next. -/
def result (plus : Bool) : Parser (List Token) := do
  if ← markNext "->" then
    let arrow ← mark "->"
    return arrow ++ (← g.type plus).tokens
  else return []

/-! ## Types that consist of bounds -/

/-- Reads the bounds that a type consists of. One of them must be a trait: if there is none, `cause`
is wrong from `start` to the last bound. -/
def bodyOfBounds (cause : SyntaxError.Cause) (start : Span) (plus admitsCaptures const : Bool) :
    Parser (List Token) := do
  let bs ← g.bounds plus admitsCaptures const
  if bs.all fun (b, _) => b.kind != .trait then
    match bs.getLast? with
    | some (⟨_, .lifetime place⟩, _) => throw ⟨cause, start.through place⟩
    | some (⟨_, .captures closing⟩, _) => throw ⟨cause, start.through closing⟩
    | _ => throw ⟨cause, start⟩
  return bs.flatMap fun (b, sign) => b.tokens ++ sign

/-- Reads a type that consists of bounds, the first of them a lifetime. -/
def bareBounds : Parser (List Token) := fun c =>
  g.bodyOfBounds .noObjectTrait (Cursor.front c) true false false c

/-- Reads plus signs, each with a bound after it. Only the last may be without one. -/
def furtherBounds : Parser (List Token) := tokensWhile do
  if ← markNext "+" then
    let sign ← mark "+"
    if ← ahead startsBound then return (sign ++ (← g.bound false false).tokens, true)
    return (sign, false)
  else return ([], false)

/-- Reads plus signs, each with a bound after it. -/
def plusBounds : Parser (List Token) := tokensWhile do
  if ← markNext "+" then
    let sign ← mark "+"
    return (sign ++ (← g.bound false false).tokens, true)
  else return ([], false)

/-- Reads a type after the word `dyn`, which allows for an asterisk. -/
def dynType (plus : Bool) : Parser (List Token) := orWritten do
  let kw ← word "dyn"
  let star ← mark? "*"
  let bs ← g.bodyOfBounds .noObjectTrait (Token.spanOf kw) plus false false
  return (kw ++ star ++ bs, !star.isEmpty)

/-- Reads a type after the word `impl`. -/
def implType (plus : Bool) : Parser (List Token) := do
  let kw ← word "impl"
  return kw ++ (← g.bodyOfBounds .noTrait (Token.spanOf kw) plus true true)

/-! ## Types that start with a path -/

/-- Whether a path can start here. -/
def startsPath (ts : List Token) : Bool :=
  startsName ts || startsWordOf ["super", "self", "Self", "crate"] ts ||
    startsMarkOf ["::", "<"] ts

/-- Reads a type that starts with a path, after the parameters `params` of a `for`. Where a macro is
used these are left out. -/
def pathType (params : List Token) (plus : Bool) : Parser SourceType := do
  let p ← g.qualifiedPath false
  if p.qualified then return p.type
  if let some input ← macroInput? p then return .other (p.tokens ++ input)
  if !params.isEmpty || (plus && (← markNext "+")) then
    let more ← if plus then g.furtherBounds else pure []
    if more.isEmpty then return .trait (params ++ p.tokens)
    return .other (params ++ p.tokens ++ more)
  return p.type

/-! ## Types in delimiters -/

/-- What stands in parentheses at the start of a type. -/
inductive Inside where
  /-- The types of a tuple. -/
  | tuple (ts : List Token)
  /-- A trait with a question mark. -/
  | optional (ts : List Token)
  /-- Bounds, the first of them a lifetime. -/
  | bounds (ts : List Token)
  /-- One type. -/
  | single (t : SourceType)

/-- Goes on in parentheses after a type: a comma makes it the first type of a tuple. -/
def insideAfter (first : SourceType) : Parser Inside := do
  if ← markNext "," then
    let comma ← mark ","
    let more ← commaTokens do return (← g.type true).tokens
    return .tuple (first.tokens ++ comma ++ more)
  return .single first

/-- Reads what stands in parentheses at the start of a type. -/
def inside : Parser Inside := do
  if ← atEnd then return .tuple []
  if ← ahead startsLifetime then return .bounds (← g.bareBounds)
  if ← markNext "?" then return .optional (← g.traitBound false).1
  g.insideAfter (← g.type true)

/-- The tokens of a type in parentheses, as a bound that other bounds follow, if it can be one. Two
pairs of parentheses around a trait are one. -/
def asBound? (t : SourceType) (opening closing : Span) : Option (List Token) :=
  let wrap := fun ts => [Token.group .paren ts opening closing]
  match t with
  | .name .. => some (wrap t.tokens)
  | .path .. => some (wrap t.tokens)
  | .trait [.group .paren ts _ _] => some (wrap ts)
  | .trait ts => some (wrap ts)
  | _ => none

/-- Goes on after parentheses with `i` in them, at the start of a type. -/
def afterParens (plus : Bool) (i : Inside) (opening closing : Span) : Parser SourceType := do
  let wrap := fun ts => [Token.group .paren ts opening closing]
  match i with
  | .tuple ts => return .other (wrap ts)
  | .bounds ts => return .paren (.other ts) opening closing
  | .optional ts =>
    let more ← g.plusBounds
    return if more.isEmpty then .trait (wrap ts) else .other (wrap ts ++ more)
  | .single t =>
    if plus && (← markNext "+") then
      if let some first := asBound? t opening closing then
        return .other (first ++ (← g.plusBounds))
    return .paren t opening closing

/-- Reads a type that starts with parentheses. -/
def parenType (plus : Bool) : Parser SourceType := do
  let (i, opening, closing) ← group .paren g.inside
  g.afterParens plus i opening closing

/-- Reads a type in square brackets: a slice, or an array with its length. -/
def bracketType : Parser (List Token) := groupOf .bracket do
  let element := (← g.type true).tokens
  if ← markNext ";" then
    let sign ← mark ";"
    return element ++ sign ++ (← g.expression true).tokens
  else return element

/-! ## Types in groups without visible delimiters -/

/-- Whether a separator and a name or a keyword stand at the start. -/
def startsNamedSegment (ts : List Token) : Bool := (dropMark "::".toList ts).any startsAnyName

/-- Whether a type is a path that does not end in arguments. -/
def isBarePath (t : SourceType) : Bool :=
  match t with
  | .name .. => true
  | .path ts _ => startsAnyName ts.reverse
  | .other ts => startsMark "<" ts && startsAnyName ts.reverse
  | _ => false

/-- Goes on after a group without visible delimiters with the type `t` in it. A path goes on with
arguments if it has none, or with further segments, and other types with segments only. -/
def afterUnseen (t : SourceType) : Parser SourceType := fun c =>
  (do
    if ← ahead startsNamedSegment then
      let p ← g.furtherSegments false startsFurtherSegment c.rest.length
        ⟨t.tokens, false, false, false, !t.isPath⟩
      return p.type
    else if ← ahead fun ts => isBarePath t && (startsMark "<" ts || startsTurbofish ts) then
      let sep ← mark? "::"
      let args ← g.angleArguments
      let p ← g.furtherSegments false startsFurtherSegment c.rest.length
        ⟨t.tokens ++ sep ++ args, t.isSingle, false, false, !t.isPath⟩
      return p.type
    else return .unseen t : Parser _) c

/-! ## Types of functions -/

/-- Reads the word `extern` and the name of a convention, if they stand next. -/
def convention : Parser (List Token) := do
  if ← wordNext "extern" then
    let kw ← anyToken
    if ← ahead startsText then return kw ++ (← anyToken) else return kw
  else return []

/-- Whether a name and a colon stand at the start. -/
def startsLabel (ts : List Token) : Bool :=
  (startsName ts || startsWord "_" ts) && startsMark ":" (skipOne ts)

/-- Whether what stands at the start says that any number of arguments follows. -/
def startsVariadic (ts : List Token) : Bool :=
  startsMark "..." ts || (startsLabel ts && startsMark "..." (skipOne (skipOne ts)))

/-- Reads a parameter of the type of a function, after its attributes: a type, maybe with a name.
A variable `self`, which only the first can be, is kept as it is written. -/
def functionTypeParam (isFirst : Bool) : Parser (List Token) := orWritten do
  let startsVariableSelf := fun ts => isFirst && startsWord "mut" ts && startsWord "self" ts.tail
  let mutable ← if ← ahead startsVariableSelf then anyToken else pure []
  let namedSelf ← ahead fun ts =>
    isFirst && startsWord "self" ts && startsColon (skipOne ts)
  let named ← ahead fun ts =>
    (startsName ts || startsWord "_" ts) && startsColon (skipOne ts)
  let label ← if named || namedSelf then do
      let n ← anyToken
      pure (n ++ (← mark ":"))
    else pure []
  if !namedSelf && (← ahead startsVariableSelf) then
    let kw ← anyToken
    return (mutable ++ label ++ kw ++ (← anyToken), true)
  let t ← if label.isEmpty && !mutable.isEmpty then word "self"
    else do pure (← g.type true).tokens
  return (mutable ++ label ++ t, !mutable.isEmpty)

/-- Reads the parameters of the type of a function, at most so many. -/
def functionTypeParams (isFirst : Bool) : Nat → Parser (List Token)
  | 0 => return []
  | count + 1 => do
    if ← atEnd then return []
    let attrs ← g.attributeTokens
    if ← ahead startsVariadic then
      let label ← if ← markNext "..." then pure []
        else do
          let n ← anyToken
          pure (n ++ (← mark ":"))
      let dots ← mark "..."
      return attrs ++ label ++ dots ++ (← mark? ",")
    let p ← g.functionTypeParam isFirst
    if ← atEnd then return attrs ++ p
    let comma ← mark ","
    return attrs ++ p ++ comma ++ (← functionTypeParams false count)

/-- Reads the type of a function. -/
def functionType : Parser (List Token) := do
  let qualifier ← word? "unsafe"
  let foreign ← convention
  let kw ← word "fn"
  let inputs ← groupOf .paren fun c => g.functionTypeParams true (c.rest.length + 1) c
  return qualifier ++ foreign ++ kw ++ inputs ++ (← g.result false)

/-! ## All types -/

/-- Reads a type. -/
def typeStep (plus : Bool) : Parser SourceType := do
  let params ← g.binder
  let startsFunction := startsWordOf ["fn", "unsafe", "extern"]
  if !params.isEmpty && !(← ahead fun ts => startsFunction ts || startsName ts ||
      startsWordOf ["super", "self", "Self", "crate"] ts) then
    expected Wanted.boundTypeStarts
  else if ← groupNext .paren then g.parenType plus
  else if ← ahead startsFunction then return .other (params ++ (← g.functionType))
  else if ← ahead startsPath then g.pathType params plus
  else if ← wordNext "dyn" then return .other (← g.dynType plus)
  else if ← groupNext .bracket then return .other (← g.bracketType)
  else if ← markNext "*" then
    let star ← mark "*"
    let kind ← if ← ahead (startsWordOf ["const", "mut"]) then anyToken
      else expected [.word "const", .word "mut"]
    return .other (star ++ kind ++ (← g.type false).tokens)
  else if ← markNext "&" then
    let sign ← mark "&"
    let life ← if ← ahead startsLifetime then lifetimeTokens else pure []
    let kind ← word? "mut"
    return .other (sign ++ life ++ kind ++ (← g.type false).tokens)
  else if ← markNext "!" then return .other (← mark "!")
  else if ← wordNext "impl" then return .other (← g.implType plus)
  else if ← wordNext "_" then return .other (← anyToken)
  else if ← ahead startsLifetime then return .other (← g.bareBounds)
  else expected Wanted.typeStarts

end PackedFields.Grammar
