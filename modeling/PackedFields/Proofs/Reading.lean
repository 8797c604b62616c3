import PackedFields.Machine.Value
import PackedFields.Proofs.Members
import PackedFields.Proofs.Printing

/-!
# What getters return

A getter isolates the bits of its sub-field (`Slot.isolated`): it shifts them down and masks what is
above them. On words, and on the machine with its signed shifts, that gives the number that the bits
make up (`Slot.content`), since a slot of an accepted schema lies inside the backing integer and a
shift that copies the sign changes bits above the mask only.

The value is then cast to the type of the sub-field. On words a cast never shows. On the machine it
copies the sign of a signed integer, and there is a sign to copy only where the mask is left out:
the sub-field is then the whole of a signed backing integer, and a type wider than that shows the
sign in bits that the sub-field does not have (`Slot.Widens`).
-/

namespace PackedFields

/-! ## Shifts and casts of typed integers -/

namespace IntType

variable {t : IntType}

theorem shiftRight_zero (b : BitVec t.bits) : t.shiftRight b 0 = b := by
  rw [shiftRight]
  cases t.signed <;> simp

/-- Whether the sign is copied or not, the bits that were in the integer before a shift are the
same. -/
theorem toNat_shiftRight_mod (b : BitVec t.bits) {n width : Nat} (h : n + width ≤ t.bits) :
    (t.shiftRight b n).toNat % 2 ^ width = b.toNat / 2 ^ n % 2 ^ width := by
  refine Nat.eq_of_testBit_eq fun i => ?_
  rw [Nat.testBit_mod_two_pow, Nat.testBit_mod_two_pow, Nat.testBit_div_two_pow]
  by_cases hi : i < width
  · have hin : n + i < t.bits := by omega
    have hnot : ¬ t.bits ≤ i := by omega
    rw [BitVec.testBit_toNat, BitVec.testBit_toNat, shiftRight, Nat.add_comm i n]
    cases t.signed <;> simp [BitVec.getLsbD_sshiftRight, BitVec.getLsbD_ushiftRight, hin, hnot]
  · rw [decide_eq_false hi, Bool.false_and, Bool.false_and]

/-- A cast fills up with zeros unless it copies a sign that is set. -/
theorem convert_eq_setWidth_iff (u : IntType) (b : BitVec t.bits) :
    t.convert u b = b.setWidth u.bits ↔ ¬ (t.signed ∧ t.bits < u.bits ∧ b.msb) := by
  rw [convert]
  cases hs : t.signed with
  | false => simp
  | true =>
    by_cases hle : u.bits ≤ t.bits
    · simp [BitVec.signExtend_eq_setWidth_of_le b hle, hle]
    · cases hmsb : b.msb with
      | false => simp [BitVec.signExtend_eq_setWidth_of_msb_false hmsb]
      | true =>
        have hlt : t.bits < u.bits := by omega
        simp only [if_true, hlt, and_self, not_true, iff_false]
        intro heq
        -- the bit just above those of `b` is the sign on one side and 0 on the other
        have hbit := congrArg (·.getLsbD t.bits) heq
        simp only [BitVec.getLsbD_signExtend, BitVec.getLsbD_setWidth, hlt, lt_irrefl, hmsb,
          decide_true, Bool.true_and, if_false] at hbit
        rw [BitVec.getLsbD_of_ge b t.bits (le_refl _)] at hbit
        cases hbit

end IntType

/-! ## Expressions on the machine -/

namespace Expr

variable {frame : Frame} {e : Expr} {t : IntType} {b : BitVec t.bits}

theorem run_shiftRight (he : run frame e = some (.int t b)) {n : Nat} (hn : n < t.bits) :
    run frame (e.shiftRight n) = some (.int t (t.shiftRight b n)) := by
  rw [shiftRight]
  split
  · next h => rw [h, IntType.shiftRight_zero, he]
  · show (run frame e >>= fun v => v.onInt fun t b =>
      if n < t.bits then some (.int t (t.shiftRight b n)) else none) = _
    rw [he]
    exact if_pos hn

theorem run_mask (he : run frame e = some (.int t b)) (width : Nat) :
    run frame (mask e width) = some (.int t (b &&& (ones width).setWidth t.bits)) := by
  show (run frame e >>= fun v => v.onInt fun t b =>
    some (.int t (b &&& (ones width).setWidth t.bits))) = _
  rw [he]
  rfl

theorem run_cast (he : run frame e = some (.int t b)) (u : IntType) :
    run frame (cast e u) = some (.int u (t.convert u b)) := by
  show (run frame e >>= fun v => v.onInt fun t b => some (.int u (t.convert u b))) = _
  rw [he]
  rfl

theorem run_test (he : run frame e = some (.int t b)) :
    run frame (test e) = some (.bool (b == 1)) := by
  show (run frame e >>= fun v => v.onInt fun _ b => some (.bool (b == 1))) = _
  rw [he]
  rfl

end Expr

namespace Slot

/-! ## The content of a slot -/

/-- The number that the bits of a slot make up, among the bits of `raw`. -/
def content (s : Slot) (raw : Nat) : Nat := raw / 2 ^ s.offset % 2 ^ s.width

/-- The value that has the bits of a slot, and zeros above them. -/
def reading (s : Slot) (raw : Nat) : Value :=
  match s.subField.kind with
  | .bool => .bool (raw.testBit s.offset)
  | .int t => .int t (BitVec.ofNat t.bits (s.content raw))

/-- Whether a slot is the whole of a signed integer and its value has a wider type. -/
def Widens (s : Slot) (backing : IntType) : Prop :=
  backing.signed ∧ s.width = backing.bits ∧ ∃ t, s.subField.kind = .int t ∧ backing.bits < t.bits

/-- What allocation and validation establish of a slot. -/
structure Fits (s : Slot) (backing : IntType) : Prop where
  /-- It has as many bits as its sub-field takes. -/
  width_eq : s.width = s.subField.bits
  /-- It has bits. -/
  width_pos : 0 < s.width
  /-- It ends within the backing integer. -/
  inside : s.offset + s.width ≤ backing.bits
  /-- It has no more bits than its value. -/
  width_le : ∀ t, s.subField.kind = .int t → s.width ≤ t.bits

/-- The bits of a slot, shifted down and without those above them. -/
def isolated (s : Slot) (backing : IntType) : Expr :=
  let shifted := Expr.backing.shiftRight s.offset
  if s.width < backing.bits then .mask shifted s.width else shifted

theorem extraction_eq (s : Slot) (backing : IntType) :
    s.extraction backing =
      match s.subField.kind with
      | .bool => .test (s.isolated backing)
      | .int t => .cast (s.isolated backing) t := rfl

theorem content_lt (s : Slot) (raw : Nat) : s.content raw < 2 ^ s.width :=
  Nat.mod_lt _ (by positivity)

variable {s : Slot} {backing : IntType}

/-- The content does not depend on bits past the end of the slot. -/
theorem content_mod_of_le {n : Nat} (h : s.offset + s.width ≤ n) (raw : Nat) :
    s.content (raw % 2 ^ n) = s.content raw := by
  have hsplit : 2 ^ n = 2 ^ s.offset * 2 ^ (n - s.offset) := by
    rw [← pow_add]
    congr 1
    omega
  have hdvd : 2 ^ s.width ∣ 2 ^ (n - s.offset) := pow_dvd_pow 2 (by omega)
  rw [content, content, hsplit, Nat.mod_mul_right_div_self, Nat.mod_mod_of_dvd _ hdvd]

namespace Fits

theorem width_of_bool (h : s.Fits backing) (hkind : s.subField.kind = .bool) : s.width = 1 := by
  rw [h.width_eq, SubField.bits, hkind]

/-- A slot that is not masked is the whole integer. -/
theorem whole_of_not_lt (h : s.Fits backing) (hwhole : ¬ s.width < backing.bits) :
    s.offset = 0 ∧ s.width = backing.bits := by
  have := h.inside
  omega

theorem content_of_whole (h : s.Fits backing) (hwhole : ¬ s.width < backing.bits) (raw : Nat) :
    s.content raw = raw % 2 ^ backing.bits := by
  obtain ⟨hoffset, hwidth⟩ := h.whole_of_not_lt hwhole
  rw [content, hoffset, hwidth, pow_zero, Nat.div_one]

/-- The content does not depend on bits that the backing integer does not have. -/
theorem content_mod (h : s.Fits backing) (raw : Nat) :
    s.content (raw % 2 ^ backing.bits) = s.content raw :=
  content_mod_of_le h.inside raw

/-- The bit of a truth value is its content. -/
theorem content_of_bool (h : s.Fits backing) (hkind : s.subField.kind = .bool) (raw : Nat) :
    s.content raw = (raw.testBit s.offset).toNat := by
  rw [content, h.width_of_bool hkind, pow_one, Nat.testBit_eq_decide_div_mod_eq]
  rcases Nat.mod_two_eq_zero_or_one (raw / 2 ^ s.offset) with hbit | hbit <;> rw [hbit] <;> rfl

/-! ## Getters on words -/

theorem toNat_eval_isolated (h : s.Fits backing) {env : Expr.Env} (henv : env.type = backing) :
    ((s.isolated backing).eval env).toNat = s.content env.backing.toNat := by
  rw [isolated]
  split_ifs with hmask
  · rw [Expr.toNat_eval_mask, Expr.toNat_eval_shiftRight, Expr.toNat_eval_backing, henv]
    exact h.content_mod _
  · rw [Expr.toNat_eval_shiftRight, Expr.toNat_eval_backing, henv, h.content_of_whole hmask,
      (h.whole_of_not_lt hmask).1, pow_zero, Nat.div_one]

/-- On words a getter computes the content of its slot. -/
theorem toNat_eval_extraction (h : s.Fits backing) {env : Expr.Env} (henv : env.type = backing) :
    ((s.extraction backing).eval env).toNat = s.content env.backing.toNat := by
  have hcontent := h.toNat_eval_isolated henv
  rw [extraction_eq]
  cases hkind : s.subField.kind with
  | bool =>
    have hbool := h.content_of_bool hkind env.backing.toNat
    have hone : (s.isolated backing).eval env = 1 ↔ env.backing.toNat.testBit s.offset := by
      rw [← BitVec.toNat_inj, hcontent, hbool]
      cases env.backing.toNat.testBit s.offset <;> decide
    rw [Expr.eval_test, Expr.toNat_truth, hbool]
    congr 1
    rw [Bool.eq_iff_iff, beq_iff_eq, hone]
  | int t =>
    have hlt : s.content env.backing.toNat < 2 ^ t.bits :=
      lt_of_lt_of_le (s.content_lt _) (Nat.pow_le_pow_right (by omega) (h.width_le t hkind))
    rw [Expr.toNat_eval_cast, hcontent, Nat.mod_eq_of_lt hlt]

/-! ## Getters on the machine -/

theorem run_isolated (h : s.Fits backing) (raw : BitVec backing.bits) :
    ∃ b : BitVec backing.bits,
      (s.isolated backing).run { backing := .int backing raw } = some (.int backing b) ∧
        b.toNat = s.content raw.toNat := by
  have hinside := h.inside
  have hpos := h.width_pos
  have hshifted : Expr.run { backing := .int backing raw } (Expr.backing.shiftRight s.offset) =
      some (.int backing (backing.shiftRight raw s.offset)) :=
    Expr.run_shiftRight rfl (by omega)
  rw [isolated]
  split_ifs with hmask
  · refine ⟨_, Expr.run_mask hshifted s.width, ?_⟩
    rw [toNat_and_setWidth_ones backing.bits_le, IntType.toNat_shiftRight_mod raw h.inside, content]
  · refine ⟨_, hshifted, ?_⟩
    rw [h.content_of_whole hmask, (h.whole_of_not_lt hmask).1, IntType.shiftRight_zero,
      Nat.mod_eq_of_lt raw.isLt]

/-- The isolated bits have a sign to copy only if they are the whole integer and that has. -/
theorem msb_isolated_iff (h : s.Fits backing) {raw b : BitVec backing.bits}
    (hb : b.toNat = s.content raw.toNat) :
    b.msb ↔ s.width = backing.bits ∧ raw.msb := by
  by_cases hmask : s.width < backing.bits
  · have hlt : b.toNat < 2 ^ s.width := hb ▸ s.content_lt raw.toNat
    have hhalf : 2 * 2 ^ s.width ≤ 2 ^ backing.bits := by
      rw [← pow_succ']
      exact Nat.pow_le_pow_right (by omega) hmask
    have hmsb : b.msb = false := BitVec.msb_eq_false_iff_two_mul_lt.mpr (by omega)
    simp only [hmsb, Bool.false_eq_true, hmask.ne, false_and]
  · have hwhole : b = raw := by
      rw [← BitVec.toNat_inj, hb, h.content_of_whole hmask, Nat.mod_eq_of_lt raw.isLt]
    rw [hwhole, (h.whole_of_not_lt hmask).2, eq_self_iff_true, true_and]

/-- On the machine a getter returns a value. It is the reading of its slot unless the slot widens a
negative integer. -/
theorem run_extraction (h : s.Fits backing) (raw : BitVec backing.bits) :
    ∃ v, (s.extraction backing).run { backing := .int backing raw } = some v ∧
      (v = s.reading raw.toNat ↔ ¬ (s.Widens backing ∧ raw.msb)) := by
  obtain ⟨b, hrun, hb⟩ := h.run_isolated raw
  rw [extraction_eq, reading]
  cases hkind : s.subField.kind with
  | bool =>
    refine ⟨_, Expr.run_test hrun, ?_⟩
    have hone : b = 1 ↔ raw.toNat.testBit s.offset := by
      have hbits := backing.bits_ge
      have hlt : 1 < 2 ^ backing.bits := Nat.one_lt_two_pow (by omega)
      rw [← BitVec.toNat_inj, hb, h.content_of_bool hkind]
      cases raw.toNat.testBit s.offset <;> simp [Nat.mod_eq_of_lt hlt]
    have hnot : ¬ s.Widens backing := by
      rintro ⟨-, -, t, ht, -⟩
      rw [hkind] at ht
      cases ht
    simp only [hnot, false_and, not_false_eq_true, iff_true, Value.bool.injEq]
    rw [Bool.eq_iff_iff, beq_iff_eq, hone]
  | int t =>
    refine ⟨_, Expr.run_cast hrun t, ?_⟩
    simp only [Value.int.injEq, heq_eq_eq, true_and]
    rw [← hb, BitVec.ofNat_toNat, IntType.convert_eq_setWidth_iff, h.msb_isolated_iff hb, Widens,
      hkind]
    simp only [Kind.int.injEq, exists_eq_left', not_iff_not]
    tauto

end Fits

end Slot

namespace Schema

variable {s : Schema}

theorem Accepted.fits (h : s.Accepted) {slot : Slot} (hslot : slot ∈ s.slots) :
    slot.Fits s.backing := by
  have hwidth := width_of_mem_allocateFrom hslot
  have hwidths := h.widths slot.subField (subField_mem_of_mem_allocateFrom hslot)
  refine ⟨hwidth, ?_,
    offset_add_width_le s.backing.bits_lt_lastPosition h.zero_add_totalBits_le hslot, ?_⟩
  · rw [hwidth, SubField.bits]
    cases hkind : slot.subField.kind with
    | bool => exact Nat.one_pos
    | int t => exact (hwidths t hkind).1
  · intro t hkind
    rw [hwidth, SubField.bits, hkind]
    exact (hwidths t hkind).2

/-- An accepted schema has a getter for every sub-field. Its body is the expression of the getter,
written out, and reads as that expression if the field is not called by a reserved word. Every
getter returns a value. On words that is the content of its slot. On the machine it is the reading
of the slot, with zeros above its bits, unless the slot is the whole of a signed integer, that
integer is negative, and the type of the value is wider. -/
theorem getter_reads_bits_iff (s : Schema) (h : s.validate = []) :
    ∃ block, s.memberBlock = .ok block ∧
      ∀ g ∈ s.accessors.getters, s.getterMember g ∈ block.members ∧
        (s.getterMember g).body = g.value.tokens s.readTokens ∧
        (s.field.isReserved = false → Term.read? (s.getterMember g).body =
          some (g.value.term (.written s.readTokens))) ∧
        ∀ raw : BitVec s.backing.bits,
          (g.value.eval { type := s.backing, backing := raw.setWidth wordBits }).toNat =
            g.slot.content raw.toNat ∧
          ∃ v, g.value.run { backing := .int s.backing raw } = some v ∧
            (v = g.slot.reading raw.toNat ↔ ¬ (g.slot.Widens s.backing ∧ raw.msb)) := by
  have haccepted := s.validate_eq_nil_iff.mp h
  obtain ⟨block, hblock, -, hmembers⟩ := haccepted.memberBlock_eq
  refine ⟨block, hblock, fun g hg => ⟨hmembers g hg, rfl, fun hfield =>
    read?_getterMember hfield hg, fun raw => ?_⟩⟩
  obtain ⟨slot, hslot, rfl⟩ := List.mem_map.mp hg
  have hfits := haccepted.fits hslot
  refine ⟨?_, hfits.run_extraction raw⟩
  rw [hfits.toNat_eval_extraction rfl, BitVec.toNat_setWidth_of_le s.backing.bits_le]

/-- A signed byte that is one sub-field of a type of two bytes. -/
def wideByte : Schema :=
  Sample.field "Data" ⟨"i", false⟩ (Sample.i .w8) [Sample.part (Sample.i .w16) 8 "x"]

/-- All bits of the byte set read back as all bits of the wider type set. -/
theorem wideByte_copies_sign :
    wideByte.validate = [] ∧ ∃ g ∈ wideByte.accessors.getters,
      g.value.run { backing := .int wideByte.backing 0xFF } =
        some (.int (Sample.i .w16) 0xFFFF) ∧
      g.slot.reading 0xFF = .int (Sample.i .w16) 0x00FF := by
  refine ⟨by decide, _, List.mem_singleton.mpr rfl, by decide, by decide⟩

/-- A signed byte of three sub-fields, of which one has a wider type. -/
def signedByte : Schema :=
  Sample.field "Data" ⟨"i", false⟩ (Sample.i .w8)
    [Sample.part (Sample.i .w8) 3 "lo", Sample.part (Sample.i .w16) 4 "hi", Sample.flag "top"]

theorem getter_reads_bits_signedByte :
    signedByte.validate = [] ∧ ∀ g ∈ signedByte.accessors.getters,
      ∀ raw : BitVec signedByte.backing.bits,
        g.value.run { backing := .int signedByte.backing raw } =
          some (g.slot.reading raw.toNat) := by
  have hvalid : signedByte.validate = [] := by decide
  obtain ⟨_, -, hgetters⟩ := getter_reads_bits_iff signedByte hvalid
  refine ⟨hvalid, fun g hg raw => ?_⟩
  obtain ⟨-, -, -, hreads⟩ := hgetters g hg
  obtain ⟨v, hrun, hread⟩ := (hreads raw).2
  have hnarrow : ∀ g ∈ signedByte.accessors.getters, g.slot.width ≠ signedByte.backing.bits := by
    decide
  rw [hrun, hread.mpr fun hwide => hnarrow g hg hwide.1.2.1]

end Schema

end PackedFields
