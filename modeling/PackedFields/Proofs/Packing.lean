import PackedFields.Proofs.Reading

/-!
# What the mutator writes

The mutator packs the values of all sub-fields into one number, each above the bits of those before
it (`packed`). Its terms are shifted to ranges of bits that do not meet, so that the bits of all
terms are their sum. The getters take that number apart again: what is below a slot is dropped by
the shift and what is above it by the mask.

The values reach the terms by name. No two parameters of an accepted schema have the same name, so
the value that is found for a parameter is the one that was given for it.
-/

namespace PackedFields

/-! ## Values by name -/

/-- If no name occurs twice, a name finds the value that stands in its place, if one does. -/
theorem lookup_zip_of_getElem? {κ α : Type} [BEq κ] [LawfulBEq κ] {names : List κ}
    (hnames : names.Nodup) {i : Nat} {n : κ} (hi : names[i]? = some n) (values : List α) :
    (names.zip values).lookup n = values[i]? := by
  induction names generalizing i values with
  | nil => cases hi
  | cons m names ih =>
    obtain ⟨hnew, hnames⟩ := List.nodup_cons.mp hnames
    cases values with
    | nil => rfl
    | cons v values =>
      rw [List.zip_cons_cons]
      cases i with
      | zero =>
        obtain rfl : m = n := Option.some.inj hi
        exact List.lookup_cons_self
      | succ i =>
        have hi' : names[i]? = some n := hi
        -- the pair in front has another name than the one that is asked for
        have hne : (n == m) = false :=
          beq_eq_false_iff_ne.mpr fun heq => hnew (heq ▸ List.mem_of_getElem? hi')
        rw [List.lookup_cons, hne]
        exact ih hnames hi' values

theorem map_lookup_zip {κ α : Type} [BEq κ] [LawfulBEq κ] {names : List κ} (hnames : names.Nodup)
    {values : List α} (hlen : names.length = values.length) :
    (names.map fun n => (names.zip values).lookup n) = values.map some := by
  refine List.ext_getElem (by simp [hlen]) fun i hi hi' => ?_
  have hn : i < names.length := by simpa using hi
  have hv : i < values.length := by simpa using hi'
  rw [List.getElem_map, List.getElem_map,
    lookup_zip_of_getElem? hnames (List.getElem?_eq_getElem hn), List.getElem?_eq_getElem hv]

theorem Expr.Env.map_param_zip (type : IntType) (backing : Word) {names : List Name}
    (hnames : names.Nodup) {values : List Word} (hlen : names.length = values.length) :
    names.map (Env.param { type, backing, params := names.zip values }) = values := by
  have hlookup := congrArg (List.map (·.getD 0)) (map_lookup_zip hnames hlen)
  rw [List.map_map, List.map_map] at hlookup
  exact hlookup.trans (List.map_id values)

/-! ## Packed values -/

/-- The number that the values of sub-fields make up, each above the bits of those before it. -/
def packed (value : SubField → Nat) : List SubField → Nat
  | [] => 0
  | d :: ds => value d + 2 ^ d.bits * packed value ds

/-- What a value counts for in a sub-field: the number that it is, or whether it is one at all. -/
def SubField.entry (d : SubField) (v : Nat) : Nat :=
  match d.kind with
  | .bool => (v != 0).toNat
  | .int _ => v

theorem SubField.entry_of_lt {d : SubField} {v : Nat} (h : v < 2 ^ d.bits) : d.entry v = v := by
  rw [entry]
  cases hkind : d.kind with
  | int t => rfl
  | bool =>
    rw [SubField.bits, hkind] at h
    interval_cases v <;> rfl

section Packed

variable {value : SubField → Nat}

/-- Packed values are a sum of values, weighted by the bits before them. -/
theorem packed_eq_sum (ds : List SubField) :
    packed value ds =
      ∑ i ∈ Finset.range ds.length, (ds.map value).getD i 0 * 2 ^ totalBits (ds.take i) := by
  induction ds with
  | nil => rfl
  | cons d ds ih =>
    rw [packed, ih, List.length_cons, Finset.sum_range_succ', Finset.mul_sum, Nat.add_comm]
    simp only [List.map_cons, List.getD_cons_succ, List.getD_cons_zero, List.take_succ_cons,
      List.take_zero, totalBits, pow_zero, Nat.mul_one, pow_add]
    congr 1
    exact Finset.sum_congr rfl fun i _ => by ring

/-- A slot of a number holds the value that was packed there. -/
theorem content_of_packed {limit : Nat} (hlimit : limit < lastPosition) {cursor : Nat}
    {ds : List SubField} (hcursor : cursor + totalBits ds ≤ limit)
    (hvalue : ∀ d ∈ ds, value d < 2 ^ d.bits) {raw : Nat}
    (hraw : raw / 2 ^ cursor = packed value ds) :
    (allocateFrom cursor ds).map (·.content raw) = ds.map value := by
  induction ds generalizing cursor with
  | nil => rfl
  | cons d ds ih =>
    obtain ⟨hd, hds⟩ := List.forall_mem_cons.mp hvalue
    rw [allocateFrom_cons_of_le hlimit hcursor, List.map_cons, List.map_cons]
    rw [packed] at hraw
    rw [totalBits] at hcursor
    congr 1
    · rw [Slot.content, hraw, Nat.add_mul_mod_self_left, Nat.mod_eq_of_lt hd]
    · refine ih (by omega) hds ?_
      rw [pow_add, ← Nat.div_div_eq_div_mul, hraw, Nat.add_mul_div_left _ _ (by positivity),
        Nat.div_eq_of_lt hd, Nat.zero_add]

end Packed

/-! ## The terms of the mutator -/

/-- The value that is given for a sub-field. -/
def Expr.Env.given (env : Env) (d : SubField) : Nat := (env.param d.name.parameter).toNat

section Terms

variable {env : Expr.Env} {s : Slot}

/-- What a sub-field contributes, shifted to its place; bits past the end are lost. -/
theorem Slot.toNat_eval_contribution :
    ((s.contribution env.type).eval env).toNat =
      s.subField.entry (env.given s.subField) * 2 ^ s.offset % 2 ^ env.type.bits := by
  rw [contribution, SubField.entry, Expr.Env.given, ← Expr.eval_param]
  cases hkind : s.subField.kind with
  | bool =>
    have hbits := env.type.bits_ge
    have hlt : ((Expr.eval env (.param s.subField.name.parameter)).toNat != 0).toNat <
        2 ^ env.type.bits :=
      lt_of_le_of_lt (Bool.toNat_le _) (Nat.one_lt_two_pow (by omega))
    rw [← Expr.toNat_eval_ofBool env _ env.type] at hlt ⊢
    exact Expr.toNat_eval_shiftLeft env _ hlt
  | int t =>
    have hlt : (Expr.eval env (.param s.subField.name.parameter)).toNat % 2 ^ env.type.bits <
        2 ^ env.type.bits := Nat.mod_lt _ (by positivity)
    rw [← Expr.toNat_eval_cast] at hlt
    rw [Expr.toNat_eval_shiftLeft _ _ hlt, Expr.toNat_eval_cast, Nat.mod_mul_mod]

/-- A value that fits its sub-field stays whole. -/
theorem Slot.Fits.toNat_eval_contribution (h : s.Fits env.type)
    (hvalue : env.given s.subField < 2 ^ s.subField.bits) :
    ((s.contribution env.type).eval env).toNat = env.given s.subField * 2 ^ s.offset := by
  have hlt : env.given s.subField * 2 ^ s.offset < 2 ^ env.type.bits := by
    calc env.given s.subField * 2 ^ s.offset < 2 ^ s.subField.bits * 2 ^ s.offset :=
          Nat.mul_lt_mul_of_pos_right hvalue (by positivity)
      _ = 2 ^ (s.offset + s.width) := by rw [← pow_add, h.width_eq, Nat.add_comm]
      _ ≤ 2 ^ env.type.bits := Nat.pow_le_pow_right (by omega) h.inside
  rw [Slot.toNat_eval_contribution, SubField.entry_of_lt hvalue, Nat.mod_eq_of_lt hlt]

/-- The terms for packed slots have no bits in common, and together make up the packed values. -/
theorem toNat_evalAll_contribution {cursor : Nat} {ds : List SubField}
    (hcursor : cursor + totalBits ds ≤ env.type.bits)
    (hfits : ∀ slot ∈ allocateFrom cursor ds, slot.Fits env.type)
    (hvalue : ∀ d ∈ ds, env.given d < 2 ^ d.bits) :
    (Expr.evalAll env ((allocateFrom cursor ds).map (·.contribution env.type))).toNat =
      2 ^ cursor * packed env.given ds := by
  induction ds generalizing cursor with
  | nil => rfl
  | cons d ds ih =>
    obtain ⟨hd, hds⟩ := List.forall_mem_cons.mp hvalue
    rw [allocateFrom_cons_of_le env.type.bits_lt_lastPosition hcursor] at hfits ⊢
    obtain ⟨hfit, hfits⟩ := List.forall_mem_cons.mp hfits
    rw [totalBits] at hcursor
    have hlow : env.given d * 2 ^ cursor < 2 ^ (cursor + d.bits) := by
      rw [pow_add, Nat.mul_comm]
      exact Nat.mul_lt_mul_of_pos_left hd (by positivity)
    rw [List.map_cons, Expr.evalAll, BitVec.toNat_or, hfit.toNat_eval_contribution hd,
      ih (by omega) hfits hds, Nat.or_comm, ← Nat.two_pow_add_eq_or_of_lt hlow, packed, pow_add]
    ring

end Terms

namespace Schema

/-! ## Writing and reading -/

/-- The backing integer after the mutator has been called with the given values, in order. -/
def written (s : Schema) (old : Word) (values : List Word) : Word :=
  s.accessors.mutator.value.eval
    { type := s.backing, backing := old,
      params := (s.accessors.mutator.params.map Prod.fst).zip values }

/-- What all getters return, in order. -/
def readings (s : Schema) (raw : Word) : List Word :=
  s.accessors.getters.map fun g => g.value.eval { type := s.backing, backing := raw }

variable {s : Schema}

theorem map_fst_params :
    s.accessors.mutator.params.map Prod.fst = s.subFields.map (·.name.parameter) := by
  conv_rhs => rw [← s.map_subField_slots]
  simp only [accessors, mutator, slots, allocate, List.map_map]
  rfl

theorem Accepted.nodup_params (h : s.Accepted) :
    (s.accessors.mutator.params.map Prod.fst).Nodup := by
  rw [map_fst_params]
  refine List.Nodup.of_map Name.text ?_
  rw [List.map_map]
  exact h.parameters

/-- Every sub-field is given the value that stands in its place. -/
theorem Accepted.map_param_params (h : s.Accepted) (old : Word) {values : List Word}
    (hlen : s.subFields.length = values.length) :
    s.subFields.map (fun d => Expr.Env.param
      { type := s.backing, backing := old,
        params := (s.accessors.mutator.params.map Prod.fst).zip values } d.name.parameter) =
      values := by
  have hparams := Expr.Env.map_param_zip s.backing old h.nodup_params
    (by rw [map_fst_params, List.length_map, hlen])
  conv_lhs at hparams => rw [map_fst_params, List.map_map]
  rw [map_fst_params]
  exact hparams

/-- The mutator replaces the backing integer by the packed values of its parameters. -/
theorem Accepted.toNat_eval_mutator (h : s.Accepted) {env : Expr.Env} (henv : env.type = s.backing)
    (hvalue : ∀ d ∈ s.subFields, env.given d < 2 ^ d.bits) :
    (s.accessors.mutator.value.eval env).toNat = packed env.given s.subFields := by
  have hfits : ∀ slot ∈ allocateFrom 0 s.subFields, slot.Fits env.type := by
    rw [henv]
    exact fun slot hslot => h.fits hslot
  have hcapacity := h.zero_add_totalBits_le
  rw [← henv] at hcapacity
  have hpacked := toNat_evalAll_contribution hcapacity hfits hvalue
  rw [pow_zero, Nat.one_mul, henv] at hpacked
  exact hpacked

/-- What the getters return are the contents of the slots. -/
theorem Accepted.map_toNat_readings (h : s.Accepted) (raw : Word) :
    (s.readings raw).map BitVec.toNat = s.slots.map (·.content raw.toNat) := by
  rw [readings, accessors, getters, List.map_map, List.map_map, List.map_inj_left]
  exact fun slot hslot => (h.fits hslot).toNat_eval_extraction rfl

/-- Values that are written are read back, whatever stood there before: the mutator makes the sum
of the values, each weighted by the bits before it, and the getters return every one of them. -/
theorem readings_written (s : Schema) (h : s.validate = []) (values : List Word)
    (hvalues : List.Forall₂ (fun d v => v.toNat < 2 ^ d.bits) s.subFields values) (old : Word) :
    s.readings (s.written old values) = values ∧
      (s.written old values).toNat =
        ∑ i ∈ Finset.range values.length,
          (values.getD i 0).toNat * 2 ^ totalBits (s.subFields.take i) := by
  have haccepted := s.validate_eq_nil_iff.mp h
  have hparams := haccepted.map_param_params old hvalues.length_eq
  rw [written]
  set env : Expr.Env := { type := s.backing, backing := old, params := _ }
  have hgiven : s.subFields.map env.given = values.map BitVec.toNat := by
    rw [← hparams, List.map_map]
    rfl
  have hfit : ∀ d ∈ s.subFields, env.given d < 2 ^ d.bits := by
    rw [← hparams, List.forall₂_map_right_iff, List.forall₂_same] at hvalues
    exact hvalues
  have hnew := haccepted.toNat_eval_mutator rfl hfit
  refine ⟨List.map_injective_iff.mpr BitVec.toNat_injective ?_, ?_⟩
  · rw [haccepted.map_toNat_readings, ← hgiven]
    have hraw : (s.accessors.mutator.value.eval env).toNat / 2 ^ 0 =
        packed env.given s.subFields := by
      rw [hnew, pow_zero, Nat.div_one]
    exact content_of_packed s.backing.bits_lt_lastPosition haccepted.zero_add_totalBits_le hfit hraw
  · rw [hnew, packed_eq_sum, hgiven, hvalues.length_eq]
    have hzero : (0 : Nat) = BitVec.toNat (0 : Word) := rfl
    refine Finset.sum_congr rfl fun i _ => ?_
    rw [hzero, List.getD_map]

/-- A signed byte that is three sub-fields, one of them with a marked name. -/
def fullByte : Schema :=
  Sample.field "Data" ⟨"i", false⟩ (Sample.i .w8)
    [Sample.part (Sample.i .w8) 3 "Low", Sample.flag "flag",
      { Sample.part (Sample.u .w16) 4 "type" with name := ⟨"type", true⟩ }]

theorem readings_written_fullByte :
    fullByte.validate = [] ∧ fullByte.readings (fullByte.written 0xFF [5, 1, 9]) = [5, 1, 9] ∧
      (fullByte.written 0xFF [5, 1, 9]).toNat = 5 + 1 * 2 ^ 3 + 9 * 2 ^ 4 := by
  have hvalid : fullByte.validate = [] := by decide
  have hfits : List.Forall₂ (fun d v => BitVec.toNat v < 2 ^ d.bits) fullByte.subFields
      ([5, 1, 9] : List Word) := by
    refine .cons ?_ (.cons ?_ (.cons ?_ .nil)) <;> decide
  obtain ⟨hreadings, hsum⟩ := readings_written fullByte hvalid [5, 1, 9] hfits 0xFF
  refine ⟨hvalid, hreadings, ?_⟩
  rw [hsum]
  decide

end Schema

end PackedFields
