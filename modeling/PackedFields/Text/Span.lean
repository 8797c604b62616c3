/-!
# Places in a text

A place is a pair of positions. What a program writes itself, rather than reads, has no place and
carries the span `Span.nowhere`.
-/

namespace PackedFields

/-- A position between two characters of a text. -/
structure Position where
  /-- The line, counted from one. -/
  line : Nat
  /-- The characters before the position on its line. -/
  column : Nat
  deriving DecidableEq, Repr, Inhabited

namespace Position

/-- The start of a text. -/
def origin : Position := ⟨1, 0⟩

/-- The position after `c`, for `c` at the position `p`. Only a line feed ends a line. -/
def step (p : Position) (c : Char) : Position :=
  if c = '\n' then ⟨p.line + 1, 0⟩ else ⟨p.line, p.column + 1⟩

/-- The position after all of `cs`. -/
def advance (p : Position) (cs : List Char) : Position := cs.foldl step p

end Position

/-- A stretch of text, from its first position to the one after its end. -/
structure Span where
  /-- Where the stretch starts. -/
  start : Position
  /-- Where the stretch has ended. -/
  stop : Position
  deriving DecidableEq, Repr, Inhabited

namespace Span

/-- The span of what stands in no text. -/
def nowhere : Span := ⟨.origin, .origin⟩

/-- From the start of `a` to the end of `b`. -/
def through (a b : Span) : Span := ⟨a.start, b.stop⟩

end Span

end PackedFields
