import PackedFields.Proofs.Packing

/-!
# What reading and writing back restores

The slots of an accepted schema lie side by side from bit 0 on, so what their contents make up
together is the backing integer up to the end of the last slot (`packed_of_content`). Given back to
the mutator, the values of all getters therefore restore the declared bits, and the bits above them
are cleared. The getters tell two backing integers apart by these bits and by no others.
-/

namespace PackedFields

/-- The contents of slots that lie side by side are packed the way they stood in the number. -/
theorem packed_of_content {limit : Nat} (hlimit : limit < lastPosition) {cursor : Nat}
    {ds : List SubField} (hcursor : cursor + totalBits ds ≤ limit) {value : SubField → Nat}
    {raw : Nat} (hvalue : ds.map value = (allocateFrom cursor ds).map (·.content raw)) :
    packed value ds = raw / 2 ^ cursor % 2 ^ totalBits ds := by
  -- the slots after the first start where it ends, and there the rest of the number is its quotient
  induction ds generalizing cursor with
  | nil => rw [packed, totalBits, pow_zero, Nat.mod_one]
  | cons d ds ih =>
    rw [allocateFrom_cons_of_le hlimit hcursor, List.map_cons, List.map_cons] at hvalue
    obtain ⟨hd, hds⟩ := List.cons.inj hvalue
    have hd' : value d = raw / 2 ^ cursor % 2 ^ d.bits := hd
    rw [totalBits] at hcursor
    rw [packed, hd', ih (by omega) hds, totalBits, pow_add, pow_add, Nat.mod_mul,
      Nat.div_div_eq_div_mul]

namespace Schema

variable {s : Schema}

/-- The values that the getters return fit their sub-fields, and are the contents of the slots when
they are given to the mutator. -/
theorem Accepted.given_readings (h : s.Accepted) (old raw : Word) {env : Expr.Env}
    (henv : env =
      { type := s.backing, backing := old,
        params := (s.accessors.mutator.params.map Prod.fst).zip (s.readings raw) }) :
    s.subFields.map env.given = s.slots.map (·.content raw.toNat) ∧
      ∀ d ∈ s.subFields, env.given d < 2 ^ d.bits := by
  have hlen : s.subFields.length = (s.readings raw).length := by
    rw [← s.map_subField_slots, readings, accessors, getters, List.length_map, List.length_map, List.length_map]
  have hgiven : s.subFields.map env.given = s.slots.map (·.content raw.toNat) := by
    rw [← h.map_toNat_readings raw, ← h.map_param_params old hlen, List.map_map, henv]
    rfl
  refine ⟨hgiven, ?_⟩
  rw [← s.map_subField_slots, List.map_map, List.map_inj_left] at hgiven
  rw [← s.map_subField_slots, List.forall_mem_map]
  intro slot hslot
  have hslot' : env.given slot.subField = slot.content raw.toNat := hgiven slot hslot
  rw [hslot', ← (h.fits hslot).width_eq]
  exact slot.content_lt raw.toNat

/-- What is read and written back is the declared part of the backing integer. -/
theorem Accepted.toNat_written_readings (h : s.Accepted) (old raw : Word) :
    (s.written old (s.readings raw)).toNat = raw.toNat % 2 ^ totalBits s.subFields := by
  obtain ⟨hgiven, hfit⟩ := h.given_readings old raw rfl
  rw [written, h.toNat_eval_mutator rfl hfit,
    packed_of_content s.backing.bits_lt_lastPosition h.zero_add_totalBits_le hgiven, pow_zero,
    Nat.div_one]

/-- The getters do not see bits past the end of the last slot. -/
theorem Accepted.readings_eq_of_mod_eq (h : s.Accepted) {raw other : Word}
    (hmod : raw.toNat % 2 ^ totalBits s.subFields = other.toNat % 2 ^ totalBits s.subFields) :
    s.readings raw = s.readings other := by
  have hcapacity := s.backing.bits_lt_lastPosition.trans_le' h.capacity
  refine List.map_injective_iff.mpr BitVec.toNat_injective ?_
  rw [h.map_toNat_readings, h.map_toNat_readings, List.map_inj_left]
  intro slot hslot
  have hinside : slot.offset + slot.width ≤ totalBits s.subFields :=
    offset_add_width_le hcapacity (Nat.zero_add _).le hslot
  rw [← Slot.content_mod_of_le hinside, hmod, Slot.content_mod_of_le hinside]

/-- What is read and written back is restored in the declared bits and cleared in all others,
whatever stood there before. So the getters return the same values for two backing integers just in
case those agree in all declared bits. -/
theorem written_readings (s : Schema) (h : s.validate = []) (old raw : Word) :
    (s.written old (s.readings raw)).toNat = raw.toNat % 2 ^ (s.subFields.map (·.bits)).sum ∧
      ∀ other, s.readings raw = s.readings other ↔
        ∀ i < (s.subFields.map (·.bits)).sum, raw.getLsbD i = other.getLsbD i := by
  have haccepted := s.validate_eq_nil_iff.mp h
  rw [← totalBits_eq_sum]
  refine ⟨haccepted.toNat_written_readings old raw, fun other => ?_⟩
  rw [← mod_two_pow_eq_iff]
  constructor
  · intro hsame
    rw [← haccepted.toNat_written_readings old raw, hsame,
      haccepted.toNat_written_readings old other]
  · exact haccepted.readings_eq_of_mod_eq

/-- Two bytes of which five bits are declared. -/
def sparse : Schema :=
  Sample.field "Data" ⟨"i", false⟩ (Sample.u .w16)
    [Sample.part (Sample.u .w8) 4 "low", Sample.flag "top"]

theorem written_readings_sparse :
    sparse.validate = [] ∧ (sparse.written 0 (sparse.readings 0xFFF7)).toNat = 0x17 ∧
      sparse.readings 0xFFF7 = sparse.readings 0x0017 := by
  have hvalid : sparse.validate = [] := by decide
  obtain ⟨hrestored, hsame⟩ := written_readings sparse hvalid 0 0xFFF7
  refine ⟨hvalid, ?_, (hsame 0x0017).mpr ?_⟩
  · rw [hrestored]
    decide
  · decide

end Schema

end PackedFields
