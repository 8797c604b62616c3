import PackedFields.Schema.Allocation

/-!
# Bit diagrams

A diagram shows which bit of an integer belongs to which sub-field. The bytes are drawn from the
highest to the lowest, two in a row of two lines: the upper line has the numbers of the bits, and
the lower one has under each number the tag of the sub-field that takes the bit. A legend explains
the tags.

A tag is a letter, of the name of the sub-field if one is left. Letters that are easily taken for
one another are never used.
-/

namespace PackedFields.Diagram

/-- The mark of a bit that no sub-field takes. -/
def unused : Char := '◦'

/-- The tag of a sub-field for which no letter is left. -/
def exhausted : Char := '?'

/-- The letters that serve as tags. -/
def palette : List Char := "ABCDEFGHJKMNPQRSTUVWXYZabcdefghjkmnpqrstuvwxyz".toList

/-- Whether `c` is one of the letters `A` to `Z`, or the small form of one. -/
def isLetter (c : Char) : Bool := ('a' ≤ c && c ≤ 'z') || ('A' ≤ c && c ≤ 'Z')

/-- The capital form of one of the letters `a` to `z`. -/
def capital (c : Char) : Char := if 'a' ≤ c && c ≤ 'z' then Char.ofNat (c.toNat - 32) else c

/-- The capitals that the letters of a name suggest as tags. -/
def suggestions (spelling : String) : List Char :=
  ((spelling.toList.filter isLetter).map capital).filter (palette.contains ·)

/-- The tag for a name when the tags `taken` are given. -/
def tagFor (taken : List Char) (spelling : String) : Char :=
  ((suggestions spelling ++ palette).find? (!taken.contains ·)).getD exhausted

/-- The tags for names, in order, when the tags `taken` are given. -/
def tagsFrom (taken : List Char) : List String → List Char
  | [] => []
  | n :: ns => tagFor taken n :: tagsFrom (tagFor taken n :: taken) ns

/-- The slots with their tags. -/
def tagged (slots : List Slot) : List (Char × Slot) :=
  (tagsFrom [] (slots.map (·.subField.name.spelling))).zip slots

/-- The tag of the bit `bit`. If several slots take it, the last one counts. -/
def cell (tags : List (Char × Slot)) (bit : Nat) : Char :=
  match tags.reverse.find? (·.2.has bit) with
  | some (tag, _) => tag
  | none => unused

/-- The characters with blanks before them, up to `width` in all. -/
def padLeft (width : Nat) (cs : List Char) : List Char :=
  List.replicate (width - cs.length) ' ' ++ cs

/-- The digits of a number. -/
def digits (n : Nat) : List Char := (toString n).toList

/-- The number of a bit, of at least two digits. -/
def index (bit : Nat) : List Char := if bit < 10 then '0' :: digits bit else digits bit

/-- The number of columns of each bit. -/
def columns (backing : IntType) : Nat := max 2 (digits (backing.bits - 1)).length

/-- The bytes of a row whose highest byte is `high`, from high to low. -/
def rowBytes (high : Nat) : List Nat := if high = 0 then [0] else [high, high - 1]

/-- The bits of a byte, from high to low. -/
def byteBits (byte : Nat) : List Nat := (List.range 8).reverse.map fun i => byte * 8 + i

/-- One line of a row, where `shown` gives the characters for a bit. One blank stands between bits,
and three between bytes. -/
def line (width : Nat) (bytes : List Nat) (shown : Nat → List Char) : List Char :=
  [' ', ' ', ' '].intercalate (bytes.map fun byte =>
    [' '].intercalate ((byteBits byte).map fun bit => padLeft width (shown bit)))

/-- The highest byte of each row, from the top. -/
def rowStarts (bytes : Nat) : List Nat :=
  ((List.range bytes).reverse.zipIdx.filter fun (_, i) => i % 2 = 0).map Prod.fst

/-- The two lines of a row. -/
def row (backing : IntType) (tags : List (Char × Slot)) (high : Nat) : List (List Char) :=
  [line (columns backing) (rowBytes high) index,
    line (columns backing) (rowBytes high) fun bit => [cell tags bit]]

/-- The lines of all rows. -/
def rows (backing : IntType) (tags : List (Char × Slot)) : List (List Char) :=
  (rowStarts (backing.bits / 8)).flatMap (row backing tags)

/-- The line of the legend for a sub-field. -/
def legend (entry : Char × Slot) : String :=
  let (tag, slot) := entry
  tag.toString ++ " = " ++ slot.subField.name.spelling ++ ": " ++ slot.subField.kind.name ++
    ", bits " ++ toString slot.offset ++ ".." ++ toString slot.stop

/-- The lines of a diagram, as a block of preformatted text. -/
def lines (backing : IntType) (slots : List Slot) : List String :=
  let tags := tagged slots
  ["```text"] ++ (rows backing tags).map String.ofList ++ tags.map legend ++ ["```"]

/-- The documentation that shows a diagram. Each line but the empty one starts with a blank. -/
def docs (backing : IntType) (slots : List Slot) : List String :=
  [" _Bit layout_", ""] ++ (lines backing slots).map (" " ++ ·)

end PackedFields.Diagram
