import PackedFields.Diagram
import PackedFields.Proofs.Partition
import PackedFields.Proofs.Published

/-!
# Drawing a diagram

A diagram is drawn into cells, one for each bit of the backing integer. The tags are written slot by
slot, into those bits of a slot for which there is a cell; the rows then read the cells by index.
Here this is written out with the places where a program would stop: an index past the last cell,
and a number past its range.

No row asks for a bit past the end of the integer. So the drawing always comes to an end, wherever
the slots stand, and what it puts under the number of a bit is the tag of the last slot that has the
bit.
-/

namespace PackedFields

/-- The difference of two numbers. -/
def Checked.less (a b : Nat) : Option Nat := if b ≤ a then some (a - b) else none

/-- A step that stops for no element of a list is done for all of them. -/
theorem mapM_eq_some {α β : Type} {f : α → Option β} {g : α → β} {xs : List α}
    (h : ∀ x ∈ xs, f x = some (g x)) : xs.mapM f = some (xs.map g) := by
  induction xs with
  | nil => rfl
  | cons x xs ih =>
    obtain ⟨hx, hxs⟩ := List.forall_mem_cons.mp h
    rw [List.mapM_cons, hx, ih hxs]
    rfl

namespace Diagram

/-! ## The tags -/

theorem length_tagsFrom (taken : List Char) (spellings : List String) :
    (tagsFrom taken spellings).length = spellings.length := by
  induction spellings generalizing taken with
  | nil => rfl
  | cons n ns ih => rw [tagsFrom, List.length_cons, ih, List.length_cons]

/-- Every slot has a tag. -/
theorem map_snd_tagged (slots : List Slot) : (tagged slots).map Prod.snd = slots := by
  have hlength : slots.length ≤ (tagsFrom [] (slots.map (·.subField.name.spelling))).length := by
    rw [length_tagsFrom, List.length_map]
  rw [tagged, List.map_snd_zip hlength]

/-- The legend of every slot stands in the diagram. -/
theorem legend_mem_docs (backing : IntType) {slots : List Slot} {entry : Char × Slot}
    (hentry : entry ∈ tagged slots) : " " ++ legend entry ∈ docs backing slots := by
  have hline : legend entry ∈ lines backing slots := by
    unfold lines
    apply List.mem_append_left
    apply List.mem_append_right
    exact List.mem_map_of_mem hentry
  unfold docs
  apply List.mem_append_right
  exact List.mem_map_of_mem hline

section Cells

variable {tags : List (Char × Slot)} {bit : Nat}

theorem cell_of_unique {entry : Char × Slot} (hentry : entry ∈ tags) (hbit : entry.2.has bit)
    (hunique : ∀ other ∈ tags, other.2.has bit → other = entry) : cell tags bit = entry.1 := by
  unfold cell
  cases hfound : tags.reverse.find? (·.2.has bit) with
  | none => exact absurd hbit (List.find?_eq_none.mp hfound entry (List.mem_reverse.mpr hentry))
  | some other =>
    have hmem := List.mem_reverse.mp (List.mem_of_find?_eq_some hfound)
    have hother := List.find?_some hfound
    obtain rfl := hunique other hmem hother
    rfl

theorem cell_of_free (h : ∀ entry ∈ tags, ¬ entry.2.has bit) : cell tags bit = unused := by
  have hnone : tags.reverse.find? (·.2.has bit) = none :=
    List.find?_eq_none.mpr fun entry hentry => h entry (List.mem_reverse.mp hentry)
  rw [cell, hnone]

end Cells

/-! ## The cells -/

/-- Writes the tag of a slot into the cells for its bits, as far as there are any. -/
def paint (cells : List Char) (entry : Char × Slot) : List Char :=
  (List.range' entry.2.offset (entry.2.stop - entry.2.offset)).foldl
    (fun cells bit => cells.set bit entry.1) cells

/-- The cells for `bits` bits when all tags have been written. -/
def painted (bits : Nat) (tags : List (Char × Slot)) : List Char :=
  tags.foldl paint (List.replicate bits unused)

theorem getElem?_foldl_set (places : List Nat) (tag : Char) (cells : List Char) (bit : Nat) :
    (places.foldl (fun cells place => cells.set place tag) cells)[bit]? =
      cells[bit]?.map fun c => if bit ∈ places then tag else c := by
  induction places generalizing cells with
  | nil => simp
  | cons place places ih =>
    rw [List.foldl_cons, ih, List.getElem?_set]
    by_cases hplace : place = bit
    · subst hplace
      by_cases hlength : place < cells.length
      · simp [hlength]
      · simp [hlength]
    · have hmem : bit ∈ place :: places ↔ bit ∈ places := by
        rw [List.mem_cons]
        exact or_iff_right (Ne.symm hplace)
      rw [if_neg hplace]
      simp only [hmem]

theorem getElem?_paint (cells : List Char) (entry : Char × Slot) (bit : Nat) :
    (paint cells entry)[bit]? = cells[bit]?.map fun c => if entry.2.has bit then entry.1 else c := by
  have hmem : bit ∈ List.range' entry.2.offset (entry.2.stop - entry.2.offset) ↔
      entry.2.has bit := by
    rw [List.mem_range'_1, Slot.has_iff]
    omega
  rw [paint, getElem?_foldl_set]
  simp only [hmem]

theorem cell_concat (tags : List (Char × Slot)) (entry : Char × Slot) (bit : Nat) :
    cell (tags ++ [entry]) bit = if entry.2.has bit then entry.1 else cell tags bit := by
  rw [cell, List.reverse_concat, List.find?_cons]
  cases entry.2.has bit with
  | true => rfl
  | false => rfl

/-- A cell has the tag of the last slot that has its bit. -/
theorem getElem?_painted {bits bit : Nat} (hbit : bit < bits) (tags : List (Char × Slot)) :
    (painted bits tags)[bit]? = some (cell tags bit) := by
  -- the slot that is written last is the first one that `cell` looks at
  induction tags using List.reverseRecOn with
  | nil => exact List.getElem?_replicate_of_lt hbit
  | append_singleton tags entry ih =>
    rw [painted, List.foldl_concat, getElem?_paint, ← painted, ih, cell_concat]
    rfl

/-! ## The rows -/

/-- The number of columns of each bit. -/
def columns? (backing : IntType) : Option Nat := do
  let last ← Checked.less backing.bits 1
  return max 2 (digits last).length

/-- One line of a row. -/
def line? (width : Nat) (bytes : List Nat) (shown : Nat → Option (List Char)) :
    Option (List Char) := do
  let groups ← bytes.mapM fun byte => do
    let places ← (List.range 8).reverse.mapM fun i => do
      let bit ← Checked.add (byte * 8) i
      let cs ← shown bit
      return padLeft width cs
    return [' '].intercalate places
  return [' ', ' ', ' '].intercalate groups

/-- The two lines of a row. -/
def row? (backing : IntType) (cells : List Char) (high : Nat) : Option (List (List Char)) := do
  let width ← columns? backing
  let numbers ← line? width (rowBytes high) fun bit => some (index bit)
  let tags ← line? width (rowBytes high) fun bit => cells[bit]?.map fun c => [c]
  return [numbers, tags]

/-- The documentation that shows a diagram. -/
def docs? (backing : IntType) (slots : List Slot) : Option (List String) := do
  let tags := tagged slots
  let rows ← (rowStarts (backing.bits / 8)).mapM (row? backing (painted backing.bits tags))
  let lines := ["```text"] ++ rows.flatten.map String.ofList ++ tags.map legend ++ ["```"]
  return [" _Bit layout_", ""] ++ lines.map (" " ++ ·)

theorem columns?_eq (backing : IntType) : columns? backing = some (columns backing) := by
  have hpos : 1 ≤ backing.bits := by
    have hbits := backing.bits_ge
    omega
  rw [columns?, Checked.less, if_pos hpos]
  rfl

theorem line?_eq (width : Nat) {bytes : List Nat} {shown? : Nat → Option (List Char)}
    {shown : Nat → List Char} {bits : Nat} (hbits : bits ≤ lastPosition)
    (hbytes : ∀ byte ∈ bytes, byte * 8 + 8 ≤ bits)
    (hshown : ∀ bit < bits, shown? bit = some (shown bit)) :
    line? width bytes shown? = some (line width bytes shown) := by
  rw [line?, mapM_eq_some (g := fun byte =>
    [' '].intercalate ((byteBits byte).map fun bit => padLeft width (shown bit)))]
  · rfl
  · intro byte hbyte
    have hend := hbytes byte hbyte
    rw [mapM_eq_some (g := fun i => padLeft width (shown (byte * 8 + i)))]
    · rw [byteBits, List.map_map]
      rfl
    · intro i hi
      have hi8 : i < 8 := List.mem_range.mp (List.mem_reverse.mp hi)
      have hlast : byte * 8 + i ≤ lastPosition := by omega
      rw [Checked.add, if_pos hlast, Option.bind_eq_bind, Option.bind_some,
        hshown _ (by omega)]
      rfl

theorem row?_eq (backing : IntType) (tags : List (Char × Slot)) {high : Nat}
    (hhigh : high < backing.bits / 8) :
    row? backing (painted backing.bits tags) high = some (row backing tags high) := by
  have hlast := backing.bits_lt_lastPosition.le
  have hbytes : ∀ byte ∈ rowBytes high, byte * 8 + 8 ≤ backing.bits := by
    intro byte hbyte
    have hle : byte ≤ high := by
      rw [rowBytes] at hbyte
      split_ifs at hbyte with hzero
      · rw [List.mem_singleton] at hbyte
        omega
      · simp only [List.mem_cons, List.not_mem_nil, or_false] at hbyte
        omega
    omega
  have hcells : ∀ bit < backing.bits,
      ((painted backing.bits tags)[bit]?.map fun c => [c]) = some [cell tags bit] := by
    intro bit hbit
    rw [getElem?_painted hbit, Option.map_some]
  have hnumbers : line? (columns backing) (rowBytes high) (fun bit => some (index bit)) =
      some (line (columns backing) (rowBytes high) index) :=
    line?_eq (columns backing) hlast hbytes fun _ _ => rfl
  have htags := line?_eq (columns backing) hlast hbytes hcells
  simp only [row?, columns?_eq, hnumbers, htags, Option.bind_eq_bind, Option.bind_some]
  rfl

theorem lt_of_mem_rowStarts {bytes high : Nat} (h : high ∈ rowStarts bytes) : high < bytes := by
  obtain ⟨entry, hentry, rfl⟩ := List.mem_map.mp h
  have hmem := List.fst_mem_of_mem_zipIdx (List.mem_of_mem_filter hentry)
  exact List.mem_range.mp (List.mem_reverse.mp hmem)

/-- A diagram can be drawn for any slots. -/
theorem docs?_eq (backing : IntType) (slots : List Slot) :
    docs? backing slots = some (docs backing slots) := by
  have hrows : (rowStarts (backing.bits / 8)).mapM
      (row? backing (painted backing.bits (tagged slots))) =
        some ((rowStarts (backing.bits / 8)).map (row backing (tagged slots))) :=
    mapM_eq_some fun high hhigh => row?_eq backing (tagged slots) (lt_of_mem_rowStarts hhigh)
  rw [docs?, hrows, docs, lines, rows, List.flatMap_def]
  rfl

end Diagram

end PackedFields
