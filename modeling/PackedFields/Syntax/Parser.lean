import PackedFields.Syntax.Error
import PackedFields.Syntax.Path
import PackedFields.Token.Literal

/-!
# Reading token by token

A parser looks at the tokens from some point of a text to the end of the group that holds them. It
answers with what it has read, or with the first error.

An error points at the next token, or where none is left at the end of the group (`Cursor.stop`).
A parser may leave tokens of an inner group unread; the first such token is remembered
(`Cursor.stray`), and makes the whole text wrong if nothing else does.

Tokens that a parser hands on have the joint marks of the operators it took them for.
-/

namespace PackedFields

/-- A point in a text. -/
structure Cursor where
  /-- The tokens from here to the end of the group. -/
  rest : List Token
  /-- The place of an error at the end of the group. -/
  stop : Span
  /-- The first token that was left unread in an inner group. -/
  stray : Option SyntaxError := none
  deriving Inhabited

/-- A reader of tokens. -/
abbrev Parser (α : Type) := StateT Cursor (Except SyntaxError) α

namespace Parser

/-! ## Looking at tokens -/

/-- The tokens after the mark of the given characters, if it stands at the start: all characters
but the last must be joint. -/
def dropMark : List Char → List Token → Option (List Token)
  | [c], .punct d _ _ :: ts => if c = d then some ts else none
  | c :: cs, .punct d true _ :: ts => if c = d then dropMark cs ts else none
  | _, _ => none

/-- Whether the mark `m` stands at the start. -/
def startsMark (m : String) (ts : List Token) : Bool := (dropMark m.toList ts).isSome

/-- Whether one of the marks `ms` stands at the start. -/
def startsMarkOf (ms : List String) (ts : List Token) : Bool := ms.any (startsMark · ts)

/-- The lifetime at the start, and the tokens after it. -/
def lifetime? : List Token → Option (Name × List Token × List Token)
  | .punct '\x27' true s :: .ident n t :: ts =>
    some (n, [.punct '\x27' true s, .ident n t], ts)
  | _ => none

/-- Whether a lifetime stands at the start. -/
def startsLifetime (ts : List Token) : Bool := (lifetime? ts).isSome

/-- Whether the keyword `w` stands at the start. -/
def startsWord (w : String) : List Token → Bool
  | .ident n _ :: _ => n == ⟨w, false⟩
  | _ => false

/-- Whether one of the keywords `ws` stands at the start. -/
def startsWordOf (ws : List String) (ts : List Token) : Bool := ws.any (startsWord · ts)

/-- Whether a name stands at the start. -/
def startsName : List Token → Bool
  | .ident n _ :: _ => !n.isKeyword
  | _ => false

/-- Whether a name or a keyword stands at the start. -/
def startsAnyName : List Token → Bool
  | .ident .. :: _ => true
  | _ => false

/-- Whether a literal stands at the start. The words for truth values are literals, and so is a
number with a minus sign. -/
def startsLiteral : List Token → Bool
  | .literal .. :: _ => true
  | .ident n _ :: _ => n == ⟨"true", false⟩ || n == ⟨"false", false⟩
  | .punct '-' _ _ :: .literal s _ :: _ => Literal.isNumber s
  | _ => false

/-- Whether a literal that holds a text stands at the start. -/
def startsText : List Token → Bool
  | .literal s _ :: _ => (Literal.text? s).isSome
  | _ => false

/-- Whether a group with the delimiter `d` stands at the start. -/
def startsGroup (d : Delimiter) : List Token → Bool
  | .group e _ _ _ :: _ => e == d
  | _ => false

/-- Whether a group stands at the start. -/
def startsAnyGroup : List Token → Bool
  | .group .. :: _ => true
  | _ => false

/-- The tokens after the first token, or after the lifetime that stands first. -/
def skipOne (ts : List Token) : List Token :=
  match lifetime? ts with
  | some (_, _, rest) => rest
  | none => ts.tail

/-! ## Errors -/

/-- The place of an error at the next token. -/
def Cursor.front (c : Cursor) : Span :=
  match c.rest with
  | t :: _ => t.front
  | [] => c.stop

/-- The given error, at the next token. -/
def fail {α : Type} (cause : SyntaxError.Cause) : Parser α := fun c =>
  .error ⟨cause, Cursor.front c⟩

/-- Whether what is asked for is a word or a mark that stands at the start. -/
def stands (ts : List Token) : Wanted → Bool
  | .word w => startsWord w ts
  | .mark m => startsMark m ts
  | _ => false

/-- The error that something else was expected next. A choice that does stand next, and only could
not go on, is not among what was expected. -/
def expected {α : Type} (choices : List Wanted) : Parser α := fun c =>
  .error ⟨.expected (choices.filter (!stands c.rest ·)) c.rest.isEmpty, Cursor.front c⟩

/-- The error that the next token, of which nothing in particular was expected, is wrong. -/
def unexpected {α : Type} : Parser α := fun c =>
  match c.rest with
  | t :: _ => .error ⟨.expected [] false, t.span⟩
  | [] => .error ⟨.expected [] true, c.stop⟩

/-! ## Looking ahead -/

/-- Whether `p` holds of the tokens ahead. -/
def ahead (p : List Token → Bool) : Parser Bool := fun c => .ok (p c.rest, c)

/-- Whether nothing is left. -/
def atEnd : Parser Bool := ahead List.isEmpty

/-- Whether the mark `m` stands next. -/
def markNext (m : String) : Parser Bool := ahead (startsMark m)

/-- Whether the keyword `w` stands next. -/
def wordNext (w : String) : Parser Bool := ahead (startsWord w)

/-- Whether a group with the delimiter `d` stands next. -/
def groupNext (d : Delimiter) : Parser Bool := ahead (startsGroup d)

/-- The outcome of `p`, and the tokens it has read, as they are written. -/
def written {α : Type} (p : Parser α) : Parser (α × List Token) := fun c =>
  match p c with
  | .error e => .error e
  | .ok (a, c') => .ok ((a, c.rest.take (c.rest.length - c'.rest.length)), c')

/-- The outcome of `p`, or nothing where `p` fails, and then nothing has been read. -/
def attempt {α : Type} (p : Parser α) : Parser (Option α) := fun c =>
  match p c with
  | .error _ => .ok (none, c)
  | .ok (a, c') => .ok (some a, c')

/-- Reads tokens by `p`, which also says whether they are kept as they are written. -/
def orWritten (p : Parser (List Token × Bool)) : Parser (List Token) := do
  let ((ts, kept), source) ← written p
  return if kept then source else ts

/-! ## Reading tokens -/

/-- Reads the next token, whatever it is. -/
def anyToken : Parser (List Token) := fun c =>
  .ok (c.rest.take 1, { c with rest := c.rest.tail })

/-- The first tokens, as the punctuation of one mark. -/
def joined : List Char → List Token → List Token
  | c :: cs, .punct _ _ s :: ts => .punct c (!cs.isEmpty) s :: joined cs ts
  | _, _ => []

/-- Reads a mark. -/
def mark (m : String) : Parser (List Token) := fun c =>
  match dropMark m.toList c.rest with
  | some rest => .ok (joined m.toList c.rest, { c with rest })
  | none => .error ⟨.missing m, Cursor.front c⟩

/-- Reads a mark if it stands next. -/
def mark? (m : String) : Parser (List Token) := do
  if ← markNext m then mark m else return []

/-- Reads one of the given keywords if it stands next. -/
def wordOf? (ws : List String) : Parser (List Token) := do
  if ← ahead (startsWordOf ws) then anyToken else return []

/-- Reads a keyword. -/
def word (w : String) : Parser (List Token) := do
  if ← wordNext w then anyToken else expected [.word w]

/-- Reads a keyword if it stands next. -/
def word? (w : String) : Parser (List Token) := do
  if ← wordNext w then anyToken else return []

/-- Reads a name, and its place. -/
def name : Parser (Name × Span) := fun c =>
  match c.rest with
  | .ident n s :: rest =>
    if n.isKeyword then .error ⟨.keyword n, s⟩ else .ok ((n, s), { c with rest })
  | _ => expected [.name] c

/-- Reads a name or a keyword, and its place. -/
def anyName : Parser (Name × Span) := fun c =>
  match c.rest with
  | .ident n s :: rest => .ok ((n, s), { c with rest })
  | _ => expected [.name] c

/-- Reads a lifetime: its name and its tokens. -/
def lifetime : Parser (Name × List Token) := fun c =>
  match lifetime? c.rest with
  | some (n, ts, rest) => .ok ((n, ts), { c with rest })
  | none => expected [.lifetime] c

/-- Reads a literal. -/
def literal : Parser (List Token) := fun c =>
  if startsLiteral c.rest then
    let n := if startsMark "-" c.rest then 2 else 1
    .ok (c.rest.take n, { c with rest := c.rest.drop n })
  else expected [.literal] c

/-- The error that a token is left over, if one is. -/
def leftover? (inside : Option Delimiter) (ts : List Token) : Option SyntaxError :=
  ts.head?.map fun t => ⟨.leftover inside, t.span⟩

/-- Reads a group with the delimiter `d`, and what is in it by `inner`: the outcome, and the places
of the delimiters. -/
def group {α : Type} (d : Delimiter) (inner : Parser α) : Parser (α × Span × Span) := fun c =>
  match c.rest with
  | .group e ts o s :: rest =>
    if e = d then
      match inner ⟨ts, s, c.stray⟩ with
      | .error e => .error e
      | .ok (a, c') =>
        .ok ((a, o, s), ⟨rest, c.stop, c'.stray <|> leftover? (some d) c'.rest⟩)
    else expected [.group d] c
  | _ => expected [.group d] c

/-- Reads a group with the delimiter `d`, and tokens from it by `inner`. -/
def groupOf (d : Delimiter) (inner : Parser (List Token)) : Parser (List Token) := do
  let (ts, o, c) ← group d inner
  return [.group d ts o c]

/-- Reads any group as it is written. -/
def anyGroup : Parser (List Token) := do
  if ← ahead startsAnyGroup then anyToken else expected [.delimiter]

/-- Repeats a step as long as it reads something, at most `bound` times, and collects what the
steps read. -/
def repeatUpTo {α : Type} (step : Parser (Option α)) : Nat → Parser (List α)
  | 0 => return []
  | bound + 1 => do
    match ← step with
    | none => return []
    | some a => return a :: (← repeatUpTo step bound)

/-- Repeats a step as long as it reads something, and collects what the steps read. There are no
more steps than tokens, and a last one that reads nothing. -/
def repeated {α : Type} (step : Parser (Option α)) : Parser (List α) := fun c =>
  repeatUpTo step (c.rest.length + 1) c

/-- Repeats a step that says whether another may follow, and joins the tokens of all. -/
def tokensWhile (step : Parser (List Token × Bool)) : Parser (List Token) := fun c =>
  go (c.rest.length + 1) c
where
  /-- The repetition, at most so often. -/
  go : Nat → Parser (List Token)
    | 0 => return []
    | bound + 1 => do
      let (ts, more) ← step
      if more then return ts ++ (← go bound) else return ts

/-- Reads elements with commas between them up to the end of the group: the elements, and whether a
comma follows the last. -/
def commaSeparated {α : Type} (element : Parser α) : Parser (List α × Bool) := fun c =>
  go (c.rest.length + 1) c
where
  /-- The elements, at most so many. -/
  go : Nat → Parser (List α × Bool)
    | 0 => return ([], false)
    | bound + 1 => do
      if ← atEnd then return ([], false)
      let a ← element
      if ← atEnd then return ([a], false)
      let _ ← mark ","
      let (as, trailing) ← go bound
      return (a :: as, trailing || as.isEmpty)

/-- Reads elements with commas between them up to the mark `closing`: each of them, with whether a
comma follows it. -/
def commaSeparatedTo {α : Type} (closing : String) (element : Parser α) :
    Parser (List (α × Bool)) := fun c =>
  go (c.rest.length + 1) c
where
  /-- The elements, at most so many. -/
  go : Nat → Parser (List (α × Bool))
    | 0 => return []
    | bound + 1 => do
      if ← markNext closing then return []
      let a ← element
      if ← markNext closing then return [(a, false)]
      let _ ← mark ","
      return (a, true) :: (← go bound)

/-- Reads runs of tokens with commas between them up to the end of the group, with their commas. -/
def commaTokens (element : Parser (List Token)) : Parser (List Token) := do
  let (runs, trailing) ← commaSeparated element
  return Code.commaList trailing runs

/-- Reads all of `ts` by `p`; an error at the end of them is at `stop`. Of two tokens left unread,
one in an inner group makes the error. -/
def runAll {α : Type} (p : Parser α) (ts : List Token) (stop : Span) : Except SyntaxError α :=
  match p ⟨ts, stop, none⟩ with
  | .error e => .error e
  | .ok (a, c) =>
    match c.stray <|> leftover? none c.rest with
    | some e => .error e
    | none => .ok a

/-! ## Paths -/

/-- Whether the segment of a path stands at the start. -/
def startsSegment : List Token → Bool
  | .ident n _ :: _ => Path.isSegment n
  | _ => false

/-- Reads the segments of a path after the first, each with its separator. -/
def moreSegments : Nat → Parser (List Name)
  | 0 => return []
  | bound + 1 => do
    if ← markNext "::" then
      let _ ← mark "::"
      if ← ahead startsSegment then
        let (n, _) ← anyName
        return n :: (← moreSegments bound)
      else expected [.segment]
    else return []

/-- Reads a path without generic arguments. -/
def path : Parser Path := fun c =>
  (do
    let rooted := !(← mark? "::").isEmpty
    if ← ahead startsSegment then
      let (n, _) ← anyName
      return ⟨rooted, n :: (← moreSegments c.rest.length)⟩
    else
      let (n, _) ← name
      return ⟨rooted, [n]⟩ : Parser Path) c

end Parser

end PackedFields
