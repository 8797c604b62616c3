import PackedFields.Proofs.InRange
import PackedFields.Proofs.Tagging

/-!
# Reading a diagram

A reader takes the two lines of a row together. Each word of the upper line is the number of a bit,
and the character of the lower line under the end of the word says which sub-field has the bit
(`readRow?`). This works because both lines are made in one way from pieces of one width, so that
what is above a blank of a separator is a blank again (`zip_line`), and because no number is wider
than its piece (`length_index_le_columns`).

What is read that way from the diagram of an accepted schema are all bits, in order, each with the
tag of the sub-field that takes it (`Schema.Depiction`).
-/

namespace PackedFields

namespace Diagram

/-! ## Words -/

/-- The words of the upper of two lines, where each character comes with the one under it. -/
def words (cells : List (Char × Char)) : List (List (Char × Char)) :=
  (cells.splitOnP (·.1 == ' ')).filter (!·.isEmpty)

/-- A word as a number, with the character under its end. -/
def readWord? (word : List (Char × Char)) : Option (Nat × Char) :=
  if (word.map Prod.fst).all Char.isDigit then
    word.getLast?.map fun last => (Nat.ofDigitChars 10 (word.map Prod.fst) 0, last.2)
  else none

/-- The numbers in the upper line of a row, each with the character under its end. -/
def readRow? (row : String × String) : Option (List (Nat × Char)) :=
  (words (row.1.toList.zip row.2.toList)).mapM readWord?

section Words

variable {blanks word : List (Char × Char)}

theorem words_append_cons (xs ys : List (Char × Char)) {blank : Char × Char}
    (hblank : blank.1 = ' ') :
    words (xs ++ blank :: ys) = words xs ++ words ys := by
  have hsep : (blank.1 == ' ') = true := beq_iff_eq.mpr hblank
  rw [words, List.splitOnP_append_cons xs ys hsep, List.filter_append, ← words, ← words]

theorem words_blanks_append (hblanks : ∀ b ∈ blanks, b.1 = ' ') (ys : List (Char × Char)) :
    words (blanks ++ ys) = words ys := by
  induction blanks with
  | nil => rfl
  | cons b bs ih =>
    obtain ⟨hb, hbs⟩ := List.forall_mem_cons.mp hblanks
    have hcons := words_append_cons [] (bs ++ ys) hb
    rw [List.nil_append] at hcons
    rw [List.cons_append, hcons, ih hbs]
    rfl

theorem words_eq_singleton (hne : word ≠ []) (hword : ∀ c ∈ word, c.1 ≠ ' ') :
    words word = [word] := by
  have hone : word.splitOnP (·.1 == ' ') = [word] :=
    List.splitOnP_eq_singleton fun c hc => beq_eq_false_iff_ne.mpr (hword c hc)
  rw [words, hone, List.filter_singleton, List.isEmpty_eq_false_iff.mpr hne]
  rfl

/-- Between blanks, each part is read on its own. -/
theorem words_intercalate (hne : blanks ≠ []) (hblanks : ∀ b ∈ blanks, b.1 = ' ')
    (parts : List (List (Char × Char))) :
    words (blanks.intercalate parts) = parts.flatMap words := by
  obtain ⟨b, bs, rfl⟩ := List.exists_cons_of_ne_nil hne
  obtain ⟨hb, hbs⟩ := List.forall_mem_cons.mp hblanks
  induction parts with
  | nil => rfl
  | cons part parts ih =>
    cases parts with
    | nil => rw [List.intercalate_singleton, List.flatMap_singleton]
    | cons next parts =>
      rw [List.intercalate_cons_cons, List.append_assoc, List.cons_append, words_append_cons _ _ hb,
        words_blanks_append hbs, ih, ← List.flatMap_cons]

end Words

/-! ## Two lines of one form -/

section Zip

variable {α : Type} {f g : α → List Char} {xs : List α}

theorem length_intercalate_congr (sep : List Char) (h : ∀ x ∈ xs, (f x).length = (g x).length) :
    (sep.intercalate (xs.map f)).length = (sep.intercalate (xs.map g)).length := by
  induction xs with
  | nil => rfl
  | cons x xs ih =>
    obtain ⟨hx, hxs⟩ := List.forall_mem_cons.mp h
    cases xs with
    | nil => simpa using hx
    | cons y ys =>
      have hrest := ih hxs
      simp only [List.map_cons] at hrest ⊢
      simp only [List.intercalate_cons_cons, List.length_append, hx, hrest]

theorem zip_intercalate (sep : List Char) (h : ∀ x ∈ xs, (f x).length = (g x).length) :
    (sep.intercalate (xs.map f)).zip (sep.intercalate (xs.map g)) =
      (sep.zip sep).intercalate (xs.map fun x => (f x).zip (g x)) := by
  induction xs with
  | nil => rfl
  | cons x xs ih =>
    obtain ⟨hx, hxs⟩ := List.forall_mem_cons.mp h
    cases xs with
    | nil => simp only [List.map_cons, List.map_nil, List.intercalate_singleton]
    | cons y ys =>
      have hrest := ih hxs
      have hpiece : (f x ++ sep).length = (g x ++ sep).length := by
        rw [List.length_append, List.length_append, hx]
      simp only [List.map_cons] at hrest ⊢
      simp only [List.intercalate_cons_cons, List.zip_append hpiece, List.zip_append hx, hrest]

end Zip

theorem length_padLeft {width : Nat} {cs : List Char} (h : cs.length ≤ width) :
    (padLeft width cs).length = width := by
  rw [padLeft, List.length_append, List.length_replicate]
  omega

section Line

variable {width : Nat} {bytes : List Nat} {upper lower : Nat → List Char}

variable (hupper : ∀ bit ∈ bytes.flatMap byteBits, (upper bit).length ≤ width)
  (hlower : ∀ bit ∈ bytes.flatMap byteBits, (lower bit).length ≤ width)
include hupper hlower

/-- The pieces for one bit are of one length. -/
theorem length_pieces : ∀ byte ∈ bytes, ∀ bit ∈ byteBits byte,
    (padLeft width (upper bit)).length = (padLeft width (lower bit)).length := by
  intro byte hbyte bit hbit
  have hmem := List.mem_flatMap.mpr ⟨byte, hbyte, hbit⟩
  rw [length_padLeft (hupper bit hmem), length_padLeft (hlower bit hmem)]

theorem length_line_congr :
    (line width bytes upper).length = (line width bytes lower).length := by
  apply length_intercalate_congr
  intro byte hbyte
  exact length_intercalate_congr _ (length_pieces hupper hlower byte hbyte)

theorem zip_line :
    (line width bytes upper).zip (line width bytes lower) =
      [(' ', ' '), (' ', ' '), (' ', ' ')].intercalate (bytes.map fun byte =>
        [(' ', ' ')].intercalate ((byteBits byte).map fun bit =>
          (padLeft width (upper bit)).zip (padLeft width (lower bit)))) := by
  have hpieces := length_pieces hupper hlower
  rw [line, line,
    zip_intercalate _ fun byte hbyte => length_intercalate_congr _ (hpieces byte hbyte)]
  congr 1
  apply List.map_congr_left
  intro byte hbyte
  exact zip_intercalate _ (hpieces byte hbyte)

/-- The words of a row are those of its pieces. -/
theorem words_line :
    words ((line width bytes upper).zip (line width bytes lower)) =
      (bytes.flatMap byteBits).flatMap fun bit =>
        words ((padLeft width (upper bit)).zip (padLeft width (lower bit))) := by
  rw [zip_line hupper hlower, words_intercalate (by decide) (by decide), List.flatMap_map,
    List.flatMap_assoc]
  congr 1
  funext byte
  rw [words_intercalate (by decide) (by decide), List.flatMap_map]

end Line

/-! ## Numbers -/

theorem toList_digits (n : Nat) : digits n = Nat.toDigits 10 n := by
  rw [digits, Nat.toString_eq_repr, Nat.repr_eq_ofList_toDigits, String.toList_ofList]

theorem isDigit_of_mem_index {bit : Nat} {c : Char} (hc : c ∈ index bit) : c.isDigit := by
  have hdigits : ∀ c ∈ digits bit, c.isDigit := by
    rw [toList_digits]
    exact fun c hc => Nat.isDigit_of_mem_toDigits (by decide) (by decide) hc
  rw [index] at hc
  split_ifs at hc
  · rcases List.mem_cons.mp hc with rfl | hc
    · rfl
    · exact hdigits c hc
  · exact hdigits c hc

theorem ofDigitChars_index (bit : Nat) : Nat.ofDigitChars 10 (index bit) 0 = bit := by
  have hdigits : Nat.ofDigitChars 10 (digits bit) 0 = bit := by
    rw [toList_digits, Nat.ofDigitChars_ten_toDigits]
  rw [index]
  split_ifs
  · rw [Nat.ofDigitChars_cons]
    exact hdigits
  · exact hdigits

theorem length_digits_mono {m n : Nat} (h : m ≤ n) : (digits m).length ≤ (digits n).length := by
  rw [toList_digits, toList_digits]
  have hpos : 0 < (Nat.toDigits 10 n).length := Nat.length_toDigits_pos
  have hn := (Nat.length_toDigits_le_iff (b := 10) (n := n) (by decide) hpos).mp le_rfl
  exact (Nat.length_toDigits_le_iff (by decide) hpos).mpr (h.trans_lt hn)

theorem index_ne_nil (bit : Nat) : index bit ≠ [] := by
  rw [index]
  split_ifs
  · exact List.cons_ne_nil _ _
  · rw [toList_digits]
    exact Nat.toDigits_ne_nil

theorem columns_pos (backing : IntType) : 1 ≤ columns backing :=
  le_trans (by decide) (Nat.le_max_left 2 _)

/-- The columns of a bit have room for the number of any bit. -/
theorem length_index_le_columns {backing : IntType} {bit : Nat} (hbit : bit < backing.bits) :
    (index bit).length ≤ columns backing := by
  rw [index, columns]
  split_ifs with hsmall
  · have hone : (digits bit).length ≤ (digits 9).length := length_digits_mono (by omega)
    have hnine : (digits 9).length = 1 := by decide
    rw [List.length_cons]
    omega
  · have hlast : (digits bit).length ≤ (digits (backing.bits - 1)).length :=
      length_digits_mono (by omega)
    omega

/-! ## Reading rows -/

theorem padLeft_eq_append {n width : Nat} {cs : List Char} (hcs : cs.length ≤ n) (hn : n ≤ width) :
    padLeft width cs = List.replicate (width - n) ' ' ++ padLeft n cs := by
  rw [padLeft, padLeft, ← List.append_assoc, List.replicate_append_replicate]
  congr 2
  omega

section Word

variable {word : List Char} (hne : word ≠ []) (hdigits : ∀ c ∈ word, c.isDigit) (mark : Char)
include hne hdigits

/-- A number above a mark is one word. -/
theorem words_piece {width : Nat} (hwidth : word.length ≤ width) :
    words ((padLeft width word).zip (padLeft width [mark])) =
      [word.zip (padLeft word.length [mark])] := by
  have hpos : 1 ≤ word.length := List.length_pos_of_ne_nil hne
  have hfull : padLeft word.length word = word := by
    rw [padLeft, Nat.sub_self]
    rfl
  have hmark : padLeft width [mark] =
      List.replicate (width - word.length) ' ' ++ padLeft word.length [mark] :=
    padLeft_eq_append hpos hwidth
  rw [padLeft_eq_append le_rfl hwidth, hmark, hfull, List.zip_append rfl, words_blanks_append]
  · apply words_eq_singleton
    · rw [← List.length_pos_iff_ne_nil, List.length_zip, length_padLeft hpos]
      omega
    · rintro ⟨c, d⟩ hc rfl
      exact absurd (hdigits _ (List.of_mem_zip hc).1) (by decide)
  · rintro ⟨c, d⟩ hc
    exact (List.mem_replicate.mp (List.of_mem_zip hc).1).2

theorem readWord?_zip :
    readWord? (word.zip (padLeft word.length [mark])) =
      some (Nat.ofDigitChars 10 word 0, mark) := by
  have hpos : 1 ≤ word.length := List.length_pos_of_ne_nil hne
  have hword : (word.zip (padLeft word.length [mark])).map Prod.fst = word :=
    List.map_fst_zip (length_padLeft hpos).ge
  have hlast : (word.zip (padLeft word.length [mark])).getLast? =
      some (word.getLast hne, mark) := by
    have hlength : word.dropLast.length = (List.replicate (word.length - 1) ' ').length := by
      rw [List.length_dropLast, List.length_replicate]
    rw [padLeft]
    nth_rewrite 1 [← List.dropLast_concat_getLast hne]
    rw [List.length_singleton, List.zip_append hlength]
    exact List.getLast?_concat
  rw [readWord?, hword, if_pos (List.all_eq_true.mpr hdigits), hlast]
  rfl

end Word

/-- The lines of a row. -/
def rowLines (backing : IntType) (tags : List (Char × Slot)) (high : Nat) : String × String :=
  (String.ofList (line (columns backing) (rowBytes high) index),
    String.ofList (line (columns backing) (rowBytes high) fun bit => [cell tags bit]))

/-- The bits of a row, from left to right. -/
def rowBits (high : Nat) : List Nat := (rowBytes high).flatMap byteBits

/-- The rows have all bits, in order. -/
theorem flatMap_rowBits (backing : IntType) :
    (rowStarts (backing.bits / 8)).flatMap rowBits = (List.range backing.bits).reverse := by
  rw [IntType.bits]
  cases backing.size <;> decide

theorem lt_of_mem_rowBits {backing : IntType} {high bit : Nat}
    (hhigh : high ∈ rowStarts (backing.bits / 8)) (hbit : bit ∈ rowBits high) :
    bit < backing.bits := by
  have hmem := List.mem_flatMap.mpr ⟨high, hhigh, hbit⟩
  rw [flatMap_rowBits] at hmem
  exact List.mem_range.mp (List.mem_reverse.mp hmem)

section Row

variable {backing : IntType} {high : Nat} (hhigh : high ∈ rowStarts (backing.bits / 8))
  (tags : List (Char × Slot))
include hhigh

theorem length_index_of_mem_rowBits :
    ∀ bit ∈ (rowBytes high).flatMap byteBits, (index bit).length ≤ columns backing :=
  fun _ hbit => length_index_le_columns (lt_of_mem_rowBits hhigh hbit)

theorem aligned_rowLines :
    (rowLines backing tags high).1.length = (rowLines backing tags high).2.length := by
  rw [rowLines, String.length_ofList, String.length_ofList]
  exact length_line_congr (length_index_of_mem_rowBits hhigh) fun _ _ => columns_pos backing

theorem readRow?_rowLines :
    readRow? (rowLines backing tags high) =
      some ((rowBits high).map fun bit => (bit, cell tags bit)) := by
  have hnumbers := length_index_of_mem_rowBits hhigh
  have hcells : ∀ bit ∈ (rowBytes high).flatMap byteBits,
      [cell tags bit].length ≤ columns backing :=
    fun _ _ => columns_pos backing
  have hpieces : (rowBits high).flatMap (fun bit => words
      ((padLeft (columns backing) (index bit)).zip (padLeft (columns backing) [cell tags bit]))) =
        (rowBits high).map fun bit =>
          (index bit).zip (padLeft (index bit).length [cell tags bit]) := by
    rw [List.map_eq_flatMap]
    apply List.flatMap_congr
    intro bit hbit
    exact words_piece (index_ne_nil bit) (fun _ => isDigit_of_mem_index) _ (hnumbers bit hbit)
  rw [readRow?, rowLines, String.toList_ofList, String.toList_ofList,
    words_line hnumbers hcells, ← rowBits, hpieces, List.mapM_map]
  apply mapM_eq_some
  intro bit _
  rw [Function.comp_apply,
    readWord?_zip (index_ne_nil bit) (fun _ => isDigit_of_mem_index), ofDigitChars_index]

end Row

/-- All rows together are read as the bits in order, each with its cell. -/
theorem mapM_readRow?_rowLines (backing : IntType) (tags : List (Char × Slot)) :
    (((rowStarts (backing.bits / 8)).map (rowLines backing tags)).mapM readRow?).map List.flatten =
      some ((List.range backing.bits).reverse.map fun bit => (bit, cell tags bit)) := by
  have hrows : (rowStarts (backing.bits / 8)).mapM (readRow? ∘ rowLines backing tags) =
      some ((rowStarts (backing.bits / 8)).map fun high =>
        (rowBits high).map fun bit => (bit, cell tags bit)) := by
    apply mapM_eq_some
    intro high hhigh
    rw [Function.comp_apply, readRow?_rowLines hhigh]
  rw [List.mapM_map, hrows, Option.map_some, ← List.flatMap_def, ← List.map_flatMap,
    flatMap_rowBits]

theorem rows_eq (backing : IntType) (tags : List (Char × Slot)) :
    (rows backing tags).map String.ofList =
      ((rowStarts (backing.bits / 8)).map (rowLines backing tags)).flatMap fun row =>
        [row.1, row.2] := by
  rw [rows, List.map_flatMap, List.flatMap_map]
  rfl

end Diagram

/-! ## Diagrams of accepted schemas -/

namespace Schema

/-- Whether the sub-field at `k` takes the bit `bit`, when the sub-fields follow one another without
a gap. -/
def Takes (s : Schema) (k bit : Nat) : Prop :=
  ∃ d, s.subFields[k]? = some d ∧
    bitsBefore s.subFields k ≤ bit ∧ bit < bitsBefore s.subFields k + d.bits

/-- A diagram that can be trusted: its rows show which sub-field takes which bit, and its legend
explains the sub-fields. -/
structure Depiction (s : Schema) where
  /-- The rows, of two lines each. -/
  rows : List (String × String)
  /-- The lines that explain the tags. -/
  legend : List String
  /-- The character that stands for a bit. -/
  mark : Nat → Char
  /-- The lines of a row are of one length. -/
  aligned : ∀ row ∈ rows, row.1.length = row.2.length
  /-- The numbers in the rows are those of all bits, each once, from the highest down, and under the
  end of each stands the mark of the bit. -/
  numbered : (rows.mapM Diagram.readRow?).map List.flatten =
    some ((List.range s.backing.bits).reverse.map fun bit => (bit, mark bit))
  /-- A bit that a sub-field takes is marked with the tag of the sub-field. -/
  taken : ∀ k bit, s.Takes k bit → (Diagram.tags s.slots)[k]? = some (mark bit)
  /-- A bit that no sub-field takes is marked as such. -/
  free : ∀ bit, (∀ k, ¬ s.Takes k bit) → mark bit = Diagram.unused
  /-- There is a line for each sub-field. -/
  length_legend : legend.length = s.subFields.length
  /-- The line for a sub-field has its tag, its name, its type, and its bits. -/
  explained : ∀ k d, s.subFields[k]? = some d → ∃ tag, (Diagram.tags s.slots)[k]? = some tag ∧
    legend[k]? = some (tag.toString ++ " = " ++ d.name.spelling ++ ": " ++ d.kind.name ++
      ", bits " ++ toString (bitsBefore s.subFields k) ++ ".." ++
      toString (bitsBefore s.subFields k + d.bits))

/-- The lines of a depiction. -/
def Depiction.lines {s : Schema} (d : s.Depiction) : List String :=
  ["```text"] ++ d.rows.flatMap (fun row => [row.1, row.2]) ++ d.legend ++ ["```"]

variable {s : Schema} {k bit : Nat}

theorem Accepted.tags_of_takes (h : s.Accepted) (htakes : s.Takes k bit) :
    (Diagram.tags s.slots)[k]? = some (Diagram.cell (Diagram.tagged s.slots) bit) := by
  obtain ⟨d, hd, hstart, hstop⟩ := htakes
  obtain ⟨tag, htag, hcells⟩ := h.exists_tag hd
  rw [Diagram.tags, List.getElem?_map, htag, hcells bit hstart hstop]
  rfl

theorem Accepted.cell_of_not_takes (h : s.Accepted) (hfree : ∀ k, ¬ s.Takes k bit) :
    Diagram.cell (Diagram.tagged s.slots) bit = Diagram.unused := by
  apply Diagram.cell_of_free
  intro entry hentry hhas
  obtain ⟨j, e, -, he, hplace⟩ := h.exists_of_mem_tagged hentry
  rw [hplace, h.has_iff he bit, bitsBefore_succ he] at hhas
  exact hfree j ⟨e, he, hhas⟩

theorem Accepted.getElem?_legend {d : SubField} (h : s.Accepted) (hd : s.subFields[k]? = some d) :
    ∃ tag, (Diagram.tags s.slots)[k]? = some tag ∧
      ((Diagram.tagged s.slots).map Diagram.legend)[k]? =
        some (tag.toString ++ " = " ++ d.name.spelling ++ ": " ++ d.kind.name ++ ", bits " ++
          toString (bitsBefore s.subFields k) ++ ".." ++
          toString (bitsBefore s.subFields k + d.bits)) := by
  obtain ⟨tag, htag, -⟩ := h.exists_tag hd
  have hstop := addUpTo_of_le (h.bitsBefore_add_bits_le_lastPosition hd)
  refine ⟨tag, ?_, ?_⟩
  · rw [Diagram.tags, List.getElem?_map, htag]
    rfl
  · rw [List.getElem?_map, htag, Option.map_some, Diagram.legend, Slot.stop, hstop]

/-- The diagram of an accepted schema. -/
def Accepted.depiction (h : s.Accepted) : s.Depiction where
  rows := (Diagram.rowStarts (s.backing.bits / 8)).map
    (Diagram.rowLines s.backing (Diagram.tagged s.slots))
  legend := (Diagram.tagged s.slots).map Diagram.legend
  mark := Diagram.cell (Diagram.tagged s.slots)
  aligned := by
    rw [List.forall_mem_map]
    exact fun high hhigh => Diagram.aligned_rowLines hhigh _
  numbered := Diagram.mapM_readRow?_rowLines s.backing (Diagram.tagged s.slots)
  taken := fun _ _ htakes => h.tags_of_takes htakes
  free := fun _ hfree => h.cell_of_not_takes hfree
  length_legend := by
    rw [List.length_map, ← List.length_map (f := Prod.snd), Diagram.map_snd_tagged,
      ← List.length_map (f := Slot.subField), s.map_subField_slots]
  explained := fun _ _ hd => h.getElem?_legend hd

/-- The diagram that is drawn for a schema that validation has nothing to say against can be
trusted: its rows are read as all bits of the backing integer, from the highest down, each with the
tag of the sub-field that takes it, and its legend has a line for each sub-field, in order. -/
theorem lines_depict (hvalid : s.validate = []) :
    ∃ d : s.Depiction, Diagram.lines s.backing s.slots = d.lines := by
  have haccepted := s.validate_eq_nil_iff.mp hvalid
  refine ⟨haccepted.depiction, ?_⟩
  rw [Diagram.lines, Diagram.rows_eq]
  rfl

/-- Two bytes with a sub-field that has bits of both, and four bits that are left. -/
def acrossBytes : Schema :=
  Sample.field "Data" ⟨"i", false⟩ (Sample.u .w16)
    [Sample.part (Sample.u .w8) 5 "low", Sample.part (Sample.i .w8) 6 "Across", Sample.flag "top"]

theorem lines_depict_acrossBytes :
    acrossBytes.validate = [] ∧
      ∃ d : acrossBytes.Depiction, Diagram.lines acrossBytes.backing acrossBytes.slots = d.lines ∧
        (∀ bit, 5 ≤ bit → bit < 11 → d.mark bit = 'A') ∧ d.mark 12 = Diagram.unused := by
  have hvalid : acrossBytes.validate = [] := by decide
  obtain ⟨d, hlines⟩ := lines_depict hvalid
  refine ⟨hvalid, d, hlines, fun bit hstart hstop => ?_, d.free 12 ?_⟩
  · have htag := d.taken 1 bit ⟨Sample.part (Sample.i .w8) 6 "Across", rfl, hstart, hstop⟩
    exact (Option.some.inj htag).symm
  · rintro k ⟨e, he, -, hstop⟩
    have hend : bitsBefore acrossBytes.subFields (k + 1) ≤ totalBits acrossBytes.subFields :=
      bitsBefore_le_totalBits acrossBytes.subFields (k + 1)
    have htotal : totalBits acrossBytes.subFields = 12 := rfl
    rw [bitsBefore_succ he] at hend
    omega

end Schema

end PackedFields
