import PackedFields.Layout
import PackedFields.Proofs.Reading

/-!
# Published layouts and accessors

A published layout comes with functions of its own: they add positions up, make masks and find
sub-fields by name. In a program each step of them stops at an overflow. Here the steps are written
out with their stops (`Checked`), and for an accepted schema none of them stops.

The layout then says the same as the accessors. What a mask keeps of a backing integer, shifted
down, is what the getter returns. The masks do not meet, and together they are the bits that are
used, which are as many as the sub-fields take. The name of every sub-field finds its entry, and no
other name finds any.
-/

namespace PackedFields

/-! ## Steps that stop at an overflow -/

namespace Checked

/-- The sum of two positions. -/
def add (a b : Nat) : Option Nat := if a + b ≤ lastPosition then some (a + b) else none

/-- The difference of two words. -/
def sub (a b : Word) : Option Word := if b ≤ a then some (a - b) else none

/-- A word, shifted to the left. -/
def shiftLeft (w : Word) (n : Nat) : Option Word := if n < wordBits then some (w <<< n) else none

/-- A word, shifted to the right. -/
def shiftRight (w : Word) (n : Nat) : Option Word := if n < wordBits then some (w >>> n) else none

end Checked

namespace SubFieldLayout

/-- One past the highest bit, if that is a position. -/
def stop? (e : SubFieldLayout) : Option Nat := Checked.add e.offset e.width

/-- The mask, if no step towards it overflows. -/
def mask? (e : SubFieldLayout) : Option Word :=
  if wordBits ≤ e.width then some (BitVec.allOnes wordBits)
  else do
    let above ← Checked.shiftLeft 1 e.width
    let low ← Checked.sub above 1
    Checked.shiftLeft low e.offset

/-- What the mask keeps of a word, shifted down, if no step towards it overflows. -/
def read? (e : SubFieldLayout) (raw : Word) : Option Word := do
  let mask ← e.mask?
  Checked.shiftRight (raw &&& mask) e.offset

end SubFieldLayout

namespace FieldLayout

/-- The number of bits that the sub-fields take, if no sum on the way overflows. -/
def usedBits? (f : FieldLayout) : Option Nat :=
  f.subFields.foldlM (fun total e => Checked.add total e.width) 0

/-- The bits of all sub-fields, in place. -/
def covered (f : FieldLayout) : Word := f.subFields.foldr (fun e bits => e.mask ||| bits) 0

end FieldLayout

/-! ## One entry -/

namespace SubFieldLayout

variable {e : SubFieldLayout}

/-- The mask of a sub-field inside a word has the bits from its first to its last. -/
theorem getLsbD_mask (h : e.offset + e.width ≤ wordBits) {i : Nat} (hi : i < wordBits) :
    e.mask.getLsbD i = decide (e.offset ≤ i ∧ i < e.offset + e.width) := by
  rw [mask]
  split_ifs with hwide hoffset
  · rw [BitVec.getLsbD_allOnes, decide_eq_decide]
    omega
  · rw [BitVec.getLsbD_shiftLeft, getLsbD_ones e.width (by omega), decide_eq_true hi,
      Bool.true_and, ← decide_not, ← Bool.decide_and, decide_eq_decide]
    omega
  · have hnone : ¬ (e.offset ≤ i ∧ i < e.offset + e.width) := by omega
    rw [decide_eq_false hnone]
    exact BitVec.getLsbD_zero

/-- What the mask keeps of a word, shifted down, is the number that the bits of the sub-field make
up. -/
theorem toNat_and_mask_shiftRight (h : e.offset + e.width ≤ wordBits) (raw : Word) :
    ((raw &&& e.mask) >>> e.offset).toNat = raw.toNat / 2 ^ e.offset % 2 ^ e.width := by
  refine Nat.eq_of_testBit_eq fun i => ?_
  rw [BitVec.testBit_toNat, BitVec.getLsbD_ushiftRight, BitVec.getLsbD_and,
    Nat.testBit_mod_two_pow, Nat.testBit_div_two_pow, BitVec.testBit_toNat, Nat.add_comm i]
  by_cases hi : e.offset + i < wordBits
  · rw [getLsbD_mask h hi, Bool.and_comm]
    congr 1
    rw [decide_eq_decide]
    omega
  · rw [BitVec.getLsbD_of_ge raw _ (by omega), Bool.false_and, Bool.and_false]

theorem mask_and_mask {d : SubFieldLayout} (hd : d.offset + d.width ≤ e.offset)
    (he : e.offset + e.width ≤ wordBits) : d.mask &&& e.mask = 0 := by
  refine BitVec.eq_of_getLsbD_eq fun i hi => ?_
  rw [BitVec.getLsbD_and, getLsbD_mask (by omega) hi, getLsbD_mask he hi, ← Bool.decide_and,
    decide_eq_false (by omega)]
  exact BitVec.getLsbD_zero.symm

theorem stop?_eq (h : e.offset + e.width ≤ wordBits) : e.stop? = some e.stop := by
  have hsum : e.offset + e.width ≤ lastPosition := h.trans (by decide)
  rw [stop?, Checked.add, if_pos hsum, stop]

theorem sub_one_eq_ones {width : Nat} (h : width < wordBits) :
    Checked.sub ((1 : Word) <<< width) 1 = some (ones width) := by
  have hlt : 2 ^ width < 2 ^ wordBits := Nat.pow_lt_pow_right (by decide) h
  have hpow : ((1 : Word) <<< width).toNat = 2 ^ width := by
    rw [BitVec.toNat_shiftLeft, Nat.shiftLeft_eq]
    show 1 * 2 ^ width % 2 ^ wordBits = 2 ^ width
    rw [Nat.one_mul, Nat.mod_eq_of_lt hlt]
  have hle : (1 : Word) ≤ (1 : Word) <<< width := by
    rw [BitVec.le_def, hpow]
    exact Nat.one_le_two_pow
  rw [Checked.sub, if_pos hle]
  congr 1
  rw [← BitVec.toNat_inj, BitVec.toNat_sub_of_le hle, hpow, toNat_ones h.le]
  rfl

theorem mask?_eq (h : e.offset + e.width ≤ wordBits) (hpos : 0 < e.width) :
    e.mask? = some e.mask := by
  rw [mask?, mask]
  split_ifs with hwide hoffset
  · rfl
  · have hwidth : e.width < wordBits := by omega
    rw [Checked.shiftLeft, if_pos hwidth, Option.bind_eq_bind, Option.bind_some,
      sub_one_eq_ones hwidth, Option.bind_some, Checked.shiftLeft, if_pos hoffset]
  · omega

theorem read?_eq (h : e.offset + e.width ≤ wordBits) (hpos : 0 < e.width) (raw : Word) :
    e.read? raw = some ((raw &&& e.mask) >>> e.offset) := by
  have hoffset : e.offset < wordBits := by omega
  rw [read?, mask?_eq h hpos, Option.bind_eq_bind, Option.bind_some, Checked.shiftRight,
    if_pos hoffset]

/-- Whether an entry says of a sub-field what its getter does, and says it without overflow. -/
structure Describes (e : SubFieldLayout) (backing : IntType) (g : Getter) : Prop where
  /-- The entry is for the sub-field that the getter reads. -/
  name_eq : e.name = g.slot.subField.name.text
  /-- The end of the sub-field does not overflow. -/
  stop?_eq : e.stop? = some e.stop
  /-- The mask does not overflow. -/
  mask?_eq : e.mask? = some e.mask
  /-- What the mask keeps of a backing integer, shifted down, is what the getter returns. -/
  read?_eq : ∀ raw : Word, e.read? raw = some (g.value.eval { type := backing, backing := raw })

end SubFieldLayout

/-- The entry for a slot. -/
def Slot.published (s : Slot) : SubFieldLayout := ⟨s.subField.name.text, s.offset, s.width⟩

theorem Slot.Fits.inside_word {s : Slot} {backing : IntType} (h : s.Fits backing) :
    s.published.offset + s.published.width ≤ wordBits :=
  h.inside.trans backing.bits_le

theorem Slot.Fits.describes {s : Slot} {backing : IntType} (h : s.Fits backing) :
    s.published.Describes backing ⟨s, s.extraction backing⟩ where
  name_eq := rfl
  stop?_eq := SubFieldLayout.stop?_eq h.inside_word
  mask?_eq := SubFieldLayout.mask?_eq h.inside_word h.width_pos
  read?_eq raw := by
    rw [SubFieldLayout.read?_eq h.inside_word h.width_pos]
    congr 1
    rw [← BitVec.toNat_inj, SubFieldLayout.toNat_and_mask_shiftRight h.inside_word,
      h.toNat_eval_extraction rfl]
    rfl

/-! ## All entries -/

/-- The masks of packed slots have together the bits from the first slot to the end of the last. -/
theorem getLsbD_foldr_mask {cursor : Nat} {ds : List SubField}
    (h : cursor + totalBits ds ≤ wordBits) {i : Nat} (hi : i < wordBits) :
    ((allocateFrom cursor ds).foldr (fun (slot : Slot) bits => slot.published.mask ||| bits)
      0).getLsbD i =
      decide (cursor ≤ i ∧ i < cursor + totalBits ds) := by
  -- the mask of the first slot has the bits up to where those of the others start
  induction ds generalizing cursor with
  | nil =>
    have hnone : ¬ (cursor ≤ i ∧ i < cursor + totalBits []) := by
      rw [totalBits]
      omega
    rw [decide_eq_false hnone]
    exact BitVec.getLsbD_zero
  | cons d ds ih =>
    rw [allocateFrom_cons_of_le (by decide) h, List.foldr_cons, BitVec.getLsbD_or]
    rw [totalBits] at h ⊢
    have hd : cursor + d.bits ≤ wordBits := by omega
    have hmask := SubFieldLayout.getLsbD_mask (e := Slot.published ⟨d, cursor, d.bits⟩) hd hi
    rw [hmask, ih (by omega), ← Bool.decide_or, decide_eq_decide]
    show cursor ≤ i ∧ i < cursor + d.bits ∨ _ ↔ _
    omega

theorem foldl_width_eq (entries : List SubFieldLayout) (total : Nat) :
    entries.foldl (fun total e => total + e.width) total =
      total + (entries.map (·.width)).sum := by
  induction entries generalizing total with
  | nil => rfl
  | cons e entries ih => rw [List.foldl_cons, ih, List.map_cons, List.sum_cons, Nat.add_assoc]

/-- If no name occurs twice, every name finds its own entry. -/
theorem FieldLayout.subField?_of_mem {f : FieldLayout}
    (hnames : (f.subFields.map (·.name)).Nodup) {e : SubFieldLayout} (he : e ∈ f.subFields) :
    f.subField? e.name = some e := by
  rw [subField?]
  cases hfound : f.subFields.find? (·.name == e.name) with
  | none => exact absurd (beq_self_eq_true e.name) (List.find?_eq_none.mp hfound e he)
  | some first =>
    have hsame := List.find?_some hfound
    rw [beq_iff_eq] at hsame
    rw [List.inj_on_of_nodup_map hnames (List.mem_of_find?_eq_some hfound) he hsame]

theorem FieldLayout.isSome_subField?_iff (f : FieldLayout) (n : String) :
    (f.subField? n).isSome ↔ n ∈ f.subFields.map (·.name) := by
  rw [subField?, List.find?_isSome, List.mem_map]
  simp only [beq_iff_eq]

/-- Whether a layout says of a schema what its accessors do. -/
structure FieldLayout.Describes (f : FieldLayout) (s : Schema) : Prop where
  /-- There is an entry for every getter, in order. -/
  entries : List.Forall₂ (fun e g => e.Describes s.backing g) f.subFields s.accessors.getters
  /-- The masks of two entries do not meet. -/
  disjoint : f.subFields.Pairwise (fun a b => a.mask &&& b.mask = 0)
  /-- All masks together are the bits that are used. -/
  covered_eq : f.covered.toNat = 2 ^ f.usedBits - 1
  /-- The number of used bits does not overflow. -/
  usedBits?_eq : f.usedBits? = some f.usedBits
  /-- The bits that are used are those that the sub-fields take. -/
  usedBits_eq : f.usedBits = (s.subFields.map (·.bits)).sum
  /-- There is a last entry, and it ends with the last bit that is used. -/
  last_stop : f.subFields.getLast?.map (·.stop) = some f.usedBits
  /-- The name of every sub-field finds the entry in its place. -/
  found : s.subFields.map (fun d => f.subField? d.name.text) = f.subFields.map some
  /-- No other name finds an entry. -/
  isSome_subField?_iff : ∀ n, (f.subField? n).isSome ↔ n ∈ s.subFields.map (·.name.text)

namespace Schema

variable {s : Schema}

theorem subFields_layout : s.layout.subFields = s.slots.map Slot.published := rfl

theorem map_name_layout : s.layout.subFields.map (·.name) = s.subFields.map (·.name.text) := by
  rw [← s.map_subField_slots, subFields_layout, List.map_map, List.map_map]
  rfl

theorem sum_width_layout : (s.layout.subFields.map (·.width)).sum = totalBits s.subFields := by
  rw [subFields_layout, List.map_map]
  exact sum_width_allocateFrom 0 s.subFields

theorem usedBits_layout : s.layout.usedBits = totalBits s.subFields := by
  rw [FieldLayout.usedBits, foldl_width_eq, Nat.zero_add, sum_width_layout]

namespace Accepted

theorem entries_layout (h : s.Accepted) :
    List.Forall₂ (fun e g => e.Describes s.backing g) s.layout.subFields s.accessors.getters := by
  rw [subFields_layout, accessors, getters, List.forall₂_map_left_iff, List.forall₂_map_right_iff,
    List.forall₂_same]
  exact fun slot hslot => (h.fits hslot).describes

theorem disjoint_layout (h : s.Accepted) :
    s.layout.subFields.Pairwise (fun a b => a.mask &&& b.mask = 0) := by
  have hpairs : s.slots.Pairwise (fun a b => a.offset + a.width ≤ b.offset) :=
    pairwise_allocateFrom s.backing.bits_lt_lastPosition h.zero_add_totalBits_le
  rw [subFields_layout, List.pairwise_map]
  exact hpairs.imp_of_mem fun _ hb hle => SubFieldLayout.mask_and_mask hle (h.fits hb).inside_word

theorem totalBits_le_wordBits (h : s.Accepted) : totalBits s.subFields ≤ wordBits :=
  h.capacity.trans s.backing.bits_le

theorem covered_layout (h : s.Accepted) : s.layout.covered = ones s.layout.usedBits := by
  refine BitVec.eq_of_getLsbD_eq fun i hi => ?_
  have hbits := getLsbD_foldr_mask ((Nat.zero_add _).le.trans h.totalBits_le_wordBits) hi
  simp only [Nat.zero_le, true_and, Nat.zero_add] at hbits
  rw [FieldLayout.covered, subFields_layout, List.foldr_map, getLsbD_ones _ hi, usedBits_layout]
  exact hbits

theorem usedBits?_layout (h : s.Accepted) : s.layout.usedBits? = some s.layout.usedBits := by
  have hsum : 0 + (s.layout.subFields.map (·.width)).sum ≤ lastPosition := by
    rw [Nat.zero_add, sum_width_layout]
    exact h.totalBits_le_wordBits.trans (by decide)
  have hadd : ∀ a b, a + b ≤ lastPosition → Checked.add a b = some (a + b) := fun _ _ h => if_pos h
  rw [FieldLayout.usedBits?, foldlM_add_eq hadd SubFieldLayout.width _ hsum, Nat.zero_add,
    sum_width_layout, usedBits_layout]

theorem last_stop_layout (h : s.Accepted) :
    s.layout.subFields.getLast?.map (·.stop) = some s.layout.usedBits := by
  have hlast := getLast?_allocateFrom s.backing.bits_lt_lastPosition h.declared
    h.zero_add_totalBits_le
  rw [Nat.zero_add] at hlast
  rw [subFields_layout, usedBits_layout, List.getLast?_map, Option.map_map, ← hlast]
  rfl

theorem found_layout (h : s.Accepted) :
    s.subFields.map (fun d => s.layout.subField? d.name.text) = s.layout.subFields.map some := by
  have hnames : (s.layout.subFields.map (·.name)).Nodup := by
    rw [map_name_layout]
    exact h.names
  have hfound : s.layout.subFields.map (fun e => s.layout.subField? e.name) =
      s.layout.subFields.map some :=
    List.map_congr_left fun e he => FieldLayout.subField?_of_mem hnames he
  have hlookup := congrArg (·.map s.layout.subField?) (map_name_layout (s := s))
  simp only [List.map_map] at hlookup
  exact hlookup.symm.trans hfound

end Accepted

/-- The layout that an accepted schema publishes says of every sub-field what its getter does, and
its functions never overflow. -/
theorem layout_describes_accessors (s : Schema) (h : s.validate = []) : s.layout.Describes s := by
  have haccepted := s.validate_eq_nil_iff.mp h
  refine
    { entries := haccepted.entries_layout
      disjoint := haccepted.disjoint_layout
      covered_eq := ?_
      usedBits?_eq := haccepted.usedBits?_layout
      usedBits_eq := usedBits_layout.trans (totalBits_eq_sum s.subFields)
      last_stop := haccepted.last_stop_layout
      found := haccepted.found_layout
      isSome_subField?_iff := fun n => ?_ }
  · rw [haccepted.covered_layout, toNat_ones]
    rw [usedBits_layout]
    exact haccepted.totalBits_le_wordBits
  · rw [FieldLayout.isSome_subField?_iff, map_name_layout]

/-- The header of a packet: half of its bits are declared. -/
def header : Schema :=
  Sample.field "Packet" ⟨"header", false⟩ (Sample.u .w32)
    [Sample.part (Sample.u .w8) 3 "ver", Sample.flag "ack", Sample.part (Sample.u .w16) 12 "len"]

theorem layout_describes_accessors_header :
    header.validate = [] ∧ header.layout.usedBits = 16 ∧ header.layout.covered = 0xFFFF ∧
      header.layout.subField? "len" = some ⟨"len", 4, 12⟩ := by
  have hvalid : header.validate = [] := by decide
  have hdescribes := layout_describes_accessors header hvalid
  refine ⟨hvalid, hdescribes.usedBits_eq, ?_, ?_⟩
  · rw [← BitVec.toNat_inj, hdescribes.covered_eq, hdescribes.usedBits_eq]
    decide
  · exact Option.some.inj (congrArg (·[2]?) hdescribes.found)

end Schema

end PackedFields
