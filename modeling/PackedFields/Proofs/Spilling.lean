import PackedFields.Proofs.Packing
import PackedFields.Proofs.Partition

/-!
# Values that do not fit

The mutator does not mask the values that it is given. A value with more bits than its sub-field
spills into the sub-fields above it, and never into one below: the term for a sub-field is a multiple
of the weight of its lowest bit. So what stands in a slot afterwards has two parts, the low bits of
its own value and the bits that were spilled by the values before it
(`Accepted.content_eval_mutator`), and the values after it have no part in it.
-/

namespace PackedFields

/-! ## Contents of numbers that are put together -/

namespace Slot

variable {s : Slot} {raw : Nat}

theorem content_or (a b : Nat) : s.content (a ||| b) = s.content a ||| s.content b := by
  rw [content, Nat.or_div_two_pow, Nat.or_mod_two_pow]
  rfl

theorem content_of_lt (h : raw < 2 ^ s.offset) : s.content raw = 0 := by
  rw [content, Nat.div_eq_of_lt h, Nat.zero_mod]

theorem content_of_dvd (h : 2 ^ (s.offset + s.width) ∣ raw) : s.content raw = 0 := by
  obtain ⟨k, rfl⟩ := h
  rw [content, pow_add, Nat.mul_assoc, Nat.mul_div_cancel_left _ (by positivity), Nat.mul_mod_right]

theorem content_mul (n : Nat) : s.content (n * 2 ^ s.offset) = n % 2 ^ s.width := by
  rw [content, Nat.mul_div_cancel _ (by positivity)]

end Slot

/-! ## The terms below and above a slot -/

theorem Expr.evalAll_append (env : Env) (es fs : List Expr) :
    evalAll env (es ++ fs) = evalAll env es ||| evalAll env fs := by
  induction es with
  | nil => exact BitVec.zero_or.symm
  | cons e es ih => rw [List.cons_append, evalAll, ih, evalAll, BitVec.or_assoc]

theorem Expr.evalAll_eq_foldr (env : Env) (es : List Expr) :
    evalAll env es = (es.map (eval env)).foldr (· ||| ·) 0 := by
  induction es with
  | nil => rfl
  | cons e es ih => rw [evalAll, ih, List.map_cons, List.foldr_cons]

/-- The number that the terms for `ds` make up, packed from the bit `cursor` upwards, whether or not
the values fit. -/
def Expr.Env.laidOut (env : Env) (cursor : Nat) (ds : List SubField) : Nat :=
  (evalAll env ((allocateFrom cursor ds).map (·.contribution env.type))).toNat

section LaidOut

variable {env : Expr.Env} {cursor : Nat} {ds : List SubField}

theorem laidOut_cons {d : SubField} (h : cursor + totalBits (d :: ds) ≤ env.type.bits) :
    env.laidOut cursor (d :: ds) =
      d.entry (env.given d) * 2 ^ cursor % 2 ^ env.type.bits |||
        env.laidOut (cursor + d.bits) ds := by
  rw [Expr.Env.laidOut, allocateFrom_cons_of_le env.type.bits_lt_lastPosition h, List.map_cons,
    Expr.evalAll, BitVec.toNat_or, Slot.toNat_eval_contribution]
  rfl

theorem laidOut_append {es : List SubField} (h : cursor + totalBits ds ≤ env.type.bits) :
    env.laidOut cursor (ds ++ es) =
      env.laidOut cursor ds ||| env.laidOut (cursor + totalBits ds) es := by
  have hlimit := env.type.bits_lt_lastPosition
  rw [Expr.Env.laidOut, allocateFrom_append (by omega), addUpTo_of_le (by omega), List.map_append,
    Expr.evalAll_append, BitVec.toNat_or]
  rfl

/-- No term has a bit below the first slot. -/
theorem two_pow_dvd_laidOut (h : cursor + totalBits ds ≤ env.type.bits) :
    2 ^ cursor ∣ env.laidOut cursor ds := by
  induction ds generalizing cursor with
  | nil => exact Nat.dvd_zero _
  | cons d ds ih =>
    have hterm : 2 ^ cursor ∣ d.entry (env.given d) * 2 ^ cursor % 2 ^ env.type.bits := by
      rw [Nat.dvd_mod_iff (pow_dvd_pow 2 (by omega))]
      exact Nat.dvd_mul_left _ _
    have hrest : 2 ^ cursor ∣ env.laidOut (cursor + d.bits) ds := by
      rw [totalBits] at h
      exact (pow_dvd_pow 2 (by omega)).trans (ih (by omega))
    rw [laidOut_cons h, Nat.dvd_iff_mod_eq_zero, Nat.or_mod_two_pow, Nat.mod_eq_zero_of_dvd hterm,
      Nat.mod_eq_zero_of_dvd hrest, Nat.or_zero]

/-- The terms depend on the values for their own sub-fields only. -/
theorem laidOut_congr {other : Expr.Env} (htype : other.type = env.type)
    (hgiven : ∀ d ∈ ds, other.given d = env.given d) :
    other.laidOut cursor ds = env.laidOut cursor ds := by
  rw [Expr.Env.laidOut, Expr.Env.laidOut, Expr.evalAll_eq_foldr, Expr.evalAll_eq_foldr,
    List.map_map, List.map_map]
  congr 2
  refine List.map_congr_left fun slot hslot => ?_
  have hsame := hgiven slot.subField (subField_mem_of_mem_allocateFrom hslot)
  rw [Function.comp_apply, Function.comp_apply, ← BitVec.toNat_inj, Slot.toNat_eval_contribution,
    Slot.toNat_eval_contribution, hsame, htype]

theorem packed_lt {value : SubField → Nat} (hvalue : ∀ d ∈ ds, value d < 2 ^ d.bits) :
    packed value ds < 2 ^ totalBits ds := by
  induction ds with
  | nil => exact Nat.one_pos
  | cons d ds ih =>
    obtain ⟨hd, hds⟩ := List.forall_mem_cons.mp hvalue
    have hrest : packed value ds + 1 ≤ 2 ^ totalBits ds := ih hds
    calc packed value (d :: ds) < 2 ^ d.bits + 2 ^ d.bits * packed value ds := by
          rw [packed]
          omega
      _ = 2 ^ d.bits * (packed value ds + 1) := by ring
      _ ≤ 2 ^ d.bits * 2 ^ totalBits ds := Nat.mul_le_mul_left _ hrest
      _ = 2 ^ totalBits (d :: ds) := by rw [← pow_add, totalBits]

end LaidOut

namespace Schema

variable {s : Schema} {before after : List SubField} {d : SubField}

/-! ## What stands in a slot after writing -/

theorem Accepted.bits_of_split (h : s.Accepted) (hsplit : s.subFields = before ++ d :: after) :
    totalBits before + (d.bits + totalBits after) ≤ s.backing.bits := by
  have hcapacity := h.capacity
  rwa [hsplit, totalBits_append, totalBits] at hcapacity

/-- The place of the sub-field `d` after the sub-fields `before`. -/
theorem Accepted.slots_getElem? (h : s.Accepted) (hsplit : s.subFields = before ++ d :: after) :
    s.slots[before.length]? = some ⟨d, totalBits before, d.bits⟩ := by
  have hd : s.subFields[before.length]? = some d := by
    rw [hsplit, List.getElem?_append_right (le_refl _), Nat.sub_self]
    rfl
  have hbefore : s.subFields.take before.length = before := by
    rw [hsplit, List.take_left]
  rw [h.getElem?_slots hd, bitsBefore_eq_totalBits, hbefore]

/-- A slot has the low bits of its own value, and what was spilled into it from below. -/
theorem Accepted.content_eval_mutator (h : s.Accepted) {env : Expr.Env}
    (henv : env.type = s.backing) (hsplit : s.subFields = before ++ d :: after) :
    Slot.content ⟨d, totalBits before, d.bits⟩ (s.accessors.mutator.value.eval env).toNat =
      Slot.content ⟨d, totalBits before, d.bits⟩ (env.laidOut 0 before) |||
        d.entry (env.given d) % 2 ^ d.bits := by
  have hbits := h.bits_of_split hsplit
  rw [← henv] at hbits
  have hvalue : (s.accessors.mutator.value.eval env).toNat = env.laidOut 0 s.subFields := by
    rw [Expr.Env.laidOut, henv]
    rfl
  -- the terms for the sub-fields after `d` start where its slot ends
  have hdvd : 2 ^ (totalBits before + d.bits) ∣ env.laidOut (totalBits before + d.bits) after :=
    two_pow_dvd_laidOut (by omega)
  have habove : Slot.content ⟨d, totalBits before, d.bits⟩
      (env.laidOut (totalBits before + d.bits) after) = 0 := Slot.content_of_dvd hdvd
  have hown : Slot.content ⟨d, totalBits before, d.bits⟩
      (d.entry (env.given d) * 2 ^ totalBits before % 2 ^ env.type.bits) =
        d.entry (env.given d) % 2 ^ d.bits := by
    have hinside : totalBits before + d.bits ≤ env.type.bits := by omega
    rw [Slot.content_mod_of_le hinside]
    exact Slot.content_mul _
  rw [hvalue, hsplit, laidOut_append (by omega), Nat.zero_add, laidOut_cons (by rw [totalBits]; omega),
    Slot.content_or, Slot.content_or, hown, habove, Nat.or_zero]

/-- Values that fit their sub-fields spill nothing. -/
theorem Accepted.content_laidOut (h : s.Accepted) {env : Expr.Env} (henv : env.type = s.backing)
    (hsplit : s.subFields = before ++ d :: after)
    (hvalue : ∀ e ∈ before, env.given e < 2 ^ e.bits) :
    Slot.content ⟨d, totalBits before, d.bits⟩ (env.laidOut 0 before) = 0 := by
  have hbits := h.bits_of_split hsplit
  have hfits : ∀ slot ∈ allocateFrom 0 before, slot.Fits env.type := by
    intro slot hslot
    refine henv ▸ h.fits ?_
    rw [slots, allocate, hsplit, allocateFrom_append (Nat.zero_le _)]
    exact List.mem_append_left _ hslot
  have hpacked : env.laidOut 0 before = packed env.given before := by
    rw [Expr.Env.laidOut, toNat_evalAll_contribution (by rw [henv]; omega) hfits hvalue, pow_zero,
      Nat.one_mul]
  rw [hpacked]
  exact Slot.content_of_lt (packed_lt hvalue)

/-! ## Reading after writing -/

/-- What the mutator is evaluated in if it is called with the given values, in order. -/
def callEnv (s : Schema) (old : Word) (values : List Word) : Expr.Env where
  type := s.backing
  backing := old
  params := (s.accessors.mutator.params.map Prod.fst).zip values

/-- A sub-field is given the value that stands in its place; one that is missing counts as 0. -/
theorem Accepted.given_callEnv (h : s.Accepted) (old : Word) (values : List Word) {i : Nat}
    (hi : s.subFields[i]? = some d) :
    (s.callEnv old values).given d = (values.getD i 0).toNat := by
  have hname : (s.accessors.mutator.params.map Prod.fst)[i]? = some d.name.parameter := by
    rw [map_fst_params, List.getElem?_map, hi]
    rfl
  rw [Expr.Env.given, Expr.Env.param, callEnv, lookup_zip_of_getElem? h.nodup_params hname,
    List.getD_eq_getElem?_getD]

/-- A getter returns the low bits of its own value, with what the values before it have spilled. -/
theorem Accepted.reading_written (h : s.Accepted) (hsplit : s.subFields = before ++ d :: after)
    (old : Word) (values : List Word) :
    ∃ v, (s.readings (s.written old values))[before.length]? = some v ∧
      v.toNat =
        Slot.content ⟨d, totalBits before, d.bits⟩ ((s.callEnv old values).laidOut 0 before) |||
          d.entry (values.getD before.length 0).toNat % 2 ^ d.bits := by
  have hd : s.subFields[before.length]? = some d := by
    rw [hsplit, List.getElem?_append_right (le_refl _), Nat.sub_self]
    rfl
  have hreadings :=
    congrArg (·[before.length]?) (h.map_toNat_readings (s.written old values))
  simp only [List.getElem?_map, h.slots_getElem? hsplit, Option.map_some,
    Option.map_eq_some_iff] at hreadings
  obtain ⟨v, hv, hcontent⟩ := hreadings
  have hwritten : s.written old values = s.accessors.mutator.value.eval (s.callEnv old values) := rfl
  refine ⟨v, hv, ?_⟩
  rw [hcontent, hwritten, h.content_eval_mutator rfl hsplit, h.given_callEnv old values hd]

theorem exists_getElem?_of_mem_take {ds : List SubField} {j : Nat} {e : SubField}
    (he : e ∈ ds.take j) : ∃ i < j, ds[i]? = some e := by
  obtain ⟨i, hi, rfl⟩ := List.mem_take_iff_getElem.mp he
  exact ⟨i, by omega, List.getElem?_eq_getElem _⟩

/-- What the values before `j` have spilled does not depend on any others. -/
theorem Accepted.laidOut_take (h : s.Accepted) {old old' : Word} {values values' : List Word}
    {j : Nat} (hsame : ∀ i < j, values'.getD i 0 = values.getD i 0) :
    (s.callEnv old' values').laidOut 0 (s.subFields.take j) =
      (s.callEnv old values).laidOut 0 (s.subFields.take j) := by
  refine laidOut_congr rfl fun e he => ?_
  obtain ⟨i, hi, hie⟩ := exists_getElem?_of_mem_take he
  rw [h.given_callEnv _ _ hie, h.given_callEnv _ _ hie, hsame i hi]

/-- Values before `j` that fit have spilled nothing. -/
theorem Accepted.content_take (h : s.Accepted) {old : Word} {values : List Word} {j : Nat}
    (hsplit : s.subFields = s.subFields.take j ++ d :: after)
    (hfit : ∀ i < j, ∀ e, s.subFields[i]? = some e → (values.getD i 0).toNat < 2 ^ e.bits) :
    Slot.content ⟨d, totalBits (s.subFields.take j), d.bits⟩
      ((s.callEnv old values).laidOut 0 (s.subFields.take j)) = 0 := by
  refine h.content_laidOut rfl hsplit fun e he => ?_
  obtain ⟨i, hi, hie⟩ := exists_getElem?_of_mem_take he
  rw [h.given_callEnv _ _ hie]
  exact hfit i hi e hie

/-- Of a number that is given to a truth value only that remains whether it is 0. -/
theorem eq_of_toNat_eq_entry {v value : Word} (hkind : d.kind = .bool)
    (hv : v.toNat = d.entry value.toNat % 2 ^ d.bits) : v = if value = 0 then 0 else 1 := by
  rw [SubField.entry, SubField.bits, hkind] at hv
  rw [← BitVec.toNat_inj, hv]
  by_cases hzero : value = 0
  · rw [if_pos hzero, hzero]
    rfl
  · have hne : value.toNat ≠ 0 := fun h0 => hzero (BitVec.toNat_inj.mp h0)
    rw [if_neg hzero, bne_iff_ne.mpr hne]
    rfl

/-- Values that do not fit spill only upwards. After any values are written, a getter returns a
value that depends on the values up to its own only. If those before its own fit their sub-fields,
it is what is left of its own: for a truth value, whether that is a number but 0, and otherwise the
remainder by the width. -/
theorem spill_goes_up (s : Schema) (h : s.validate = []) (j : Nat) (d : SubField)
    (hd : s.subFields[j]? = some d) (old : Word) (values : List Word) :
    ∃ v, (s.readings (s.written old values))[j]? = some v ∧
      (∀ old' values', values'.take (j + 1) = values.take (j + 1) →
        (s.readings (s.written old' values'))[j]? = some v) ∧
      ((∀ i < j, ∀ e, s.subFields[i]? = some e → (values.getD i 0).toNat < 2 ^ e.bits) →
        (d.kind = .bool → v = if values.getD j 0 = 0 then 0 else 1) ∧
        ∀ t, d.kind = .int t → v.toNat = (values.getD j 0).toNat % 2 ^ d.width) := by
  have haccepted := s.validate_eq_nil_iff.mp h
  obtain ⟨hj, rfl⟩ := List.getElem?_eq_some_iff.mp hd
  -- the sub-fields before and after the one at `j`
  have hsplit : s.subFields = s.subFields.take j ++ s.subFields[j] :: s.subFields.drop (j + 1) := by
    rw [← List.drop_eq_getElem_cons hj, List.take_append_drop]
  have hlength : (s.subFields.take j).length = j := by
    rw [List.length_take, Nat.min_eq_left hj.le]
  have hread := haccepted.reading_written hsplit
  rw [hlength] at hread
  obtain ⟨v, hv, hvalue⟩ := hread old values
  refine ⟨v, hv, ?_, ?_⟩
  · intro old' values' hsame
    have hsame' : ∀ i ≤ j, values'.getD i 0 = values.getD i 0 := by
      intro i hi
      have hget := congrArg (·[i]?) hsame
      simp only [List.getElem?_take, Nat.lt_succ_of_le hi, if_true] at hget
      rw [List.getD_eq_getElem?_getD, List.getD_eq_getElem?_getD, hget]
    obtain ⟨v', hv', hvalue'⟩ := hread old' values'
    rw [haccepted.laidOut_take fun i hi => hsame' i hi.le, hsame' j (le_refl j), ← hvalue,
      BitVec.toNat_inj] at hvalue'
    rw [hv', hvalue']
  · intro hfit
    rw [haccepted.content_take hsplit hfit, Nat.zero_or] at hvalue
    refine ⟨fun hkind => eq_of_toNat_eq_entry hkind hvalue, fun t hkind => ?_⟩
    rw [hvalue, SubField.entry, SubField.bits, hkind]

/-- A flag reads as set for any number but 0, and the value after it has no part in that. -/
theorem spill_goes_up_fullByte :
    fullByte.validate = [] ∧
      ∀ old last, (fullByte.readings (fullByte.written old [5, 6, last]))[1]? = some 1 := by
  have hvalid : fullByte.validate = [] := by decide
  obtain ⟨v, -, hothers, hown⟩ := spill_goes_up fullByte hvalid 1 (Sample.flag "flag") rfl 0 [5, 6, 0]
  have hfit : ∀ i < 1, ∀ e, fullByte.subFields[i]? = some e →
      (([5, 6, 0] : List Word).getD i 0).toNat < 2 ^ e.bits := by
    intro i hi e he
    obtain rfl : i = 0 := by omega
    obtain rfl : Sample.part (Sample.i .w8) 3 "Low" = e := Option.some.inj he
    decide
  obtain ⟨hflag, -⟩ := hown hfit
  have hone : v = 1 := hflag rfl
  refine ⟨hvalid, fun old last => ?_⟩
  rw [← hone]
  exact hothers old [5, 6, last] rfl

example : fullByte.readings (fullByte.written 0 [0xF, 0, 0]) = [7, 1, 0] := by decide

end Schema

end PackedFields
