import PackedFields.Token.Code

/-!
# Paths

The path of a module or an item, without generic arguments. Its segments may be any names, and the
words `self`, `Self`, `super` and `crate`.
-/

namespace PackedFields

/-- A path. -/
structure Path where
  /-- Whether the path starts with a separator, that is, at the root of all names. -/
  rooted : Bool
  /-- The segments, of which there is at least one. -/
  segments : List Name
  deriving DecidableEq, Repr, Inhabited

namespace Path

/-- The path of one segment. -/
def ofName (n : Name) : Path := ⟨false, [n]⟩

/-- The keywords that can be segments. -/
def segmentWords : List String := ["super", "self", "Self", "crate"]

/-- Whether a name can be a segment. -/
def isSegment (n : Name) : Bool := !n.isKeyword || (!n.raw && segmentWords.contains n.text)

/-- Whether the path is the single word `w`. -/
def isWord (p : Path) (w : String) : Bool := p == ⟨false, [⟨w, false⟩]⟩

/-- The tokens of a path. -/
def tokens (p : Path) : List Token :=
  (if p.rooted then Code.pathSep else []) ++
    Code.separated Code.pathSep (p.segments.map fun n => [Code.name n])

end Path

end PackedFields
