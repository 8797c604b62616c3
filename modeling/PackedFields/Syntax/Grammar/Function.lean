import PackedFields.Syntax.Grammar.Statement

/-!
# The grammar of functions

What stands before the body of a function. A method names first what it belongs to, its receiver.
-/

namespace PackedFields.Grammar

open PackedFields.Parser

variable (g : Grammar)

/-! ## Parameters -/

/-- What a parameter of a function is. -/
inductive ParamKind where
  /-- What the function belongs to; the word for it stands at `place`. -/
  | receiver (place : Span)
  /-- Any number of arguments. -/
  | variadic
  /-- A pattern with a type. -/
  | typed
  deriving DecidableEq, Repr

/-- Reads a receiver: its tokens, and the place of the word for it. -/
def receiver : Parser (List Token × Span) := do
  let reference ← mark? "&"
  let life ← if !reference.isEmpty && (← ahead startsLifetime) then lifetimeTokens else pure []
  let mutable ← word? "mut"
  let self ← word "self"
  let start := reference ++ life ++ mutable ++ self
  let place := Token.spanOf self
  if reference.isEmpty && (← markNext ":") then
    let colon ← mark ":"
    return (start ++ colon ++ (← g.type true).tokens, place)
  else return (start, place)

/-- Reads a parameter after its attributes. A type with arguments can stand alone, as if its
parameter were called `_`. -/
def param : Parser (List Token × ParamKind) := do
  if ← markNext "..." then return (← mark "...", .variadic)
  if let some (ts, place) ← attempt g.receiver then return (ts, .receiver place)
  if ← ahead (fun ts => startsName ts && startsMark "<" ts.tail) then
    return ([Code.word "_", Code.sign ':'] ++ (← g.type true).tokens, .typed)
  let p := (← g.pattern).tokens
  let colon ← mark ":"
  if ← markNext "..." then return (p ++ colon ++ (← mark "..."), .variadic)
  return (p ++ colon ++ (← g.type true).tokens, .typed)

/-- Reads parameters, at most so many. Only the first can be a receiver, and after one that stands
for any number of arguments none is read. -/
def params (isFirst received : Bool) : Nat → Parser (List Token)
  | 0 => return []
  | count + 1 => do
    if ← atEnd then return []
    let attrs ← g.attributeTokens
    let (ts, kind) ← g.param
    let isReceiver ← match kind with
      | .receiver place =>
        if received then throw ⟨.secondReceiver, place⟩
        if !isFirst then throw ⟨.lateReceiver, place⟩
        pure true
      | _ => pure false
    if ← atEnd then return attrs ++ ts
    let comma ← mark ","
    if kind == .variadic then return attrs ++ ts ++ comma
    return attrs ++ ts ++ comma ++ (← params false (received || isReceiver) count)

/-! ## Signatures -/

/-- Whether a function stands at the start, with the words that can qualify it in their order. The
word `safe` can be one of them only if it is `admitted`. -/
def startsSignature (admitted : Bool) (ts : List Token) : Bool :=
  let skip := fun (w : String) (ts : List Token) => if startsWord w ts then ts.tail else ts
  let ts := skip "async" (skip "const" ts)
  let ts := if admitted && startsWord "safe" ts then ts.tail else skip "unsafe" ts
  let ts := if startsWord "extern" ts then
      if startsText ts.tail then ts.tail.tail else ts.tail
    else ts
  startsWord "fn" ts

/-- Reads a function up to its body, and says whether the word `safe` qualifies it. -/
def signature (admitted : Bool) : Parser (List Token × Bool) := do
  let const ← word? "const"
  let async ← word? "async"
  let unsafety ← word? "unsafe"
  let safe ← if admitted && unsafety.isEmpty then word? "safe" else pure []
  let foreign ← convention
  let kw ← word "fn"
  let (n, s) ← name
  let start := const ++ async ++ unsafety ++ safe ++ foreign ++ kw ++ [.ident n s]
  let generics ← g.genericTokens
  let inputs ← groupOf .paren fun c => g.params true false (c.rest.length + 1) c
  let output ← g.result true
  let conditions ← g.whereTokens
  return (start ++ generics ++ inputs ++ output ++ conditions, !safe.isEmpty)

end PackedFields.Grammar
