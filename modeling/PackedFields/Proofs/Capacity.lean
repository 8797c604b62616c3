import PackedFields.Machine.Sample
import PackedFields.Proofs.Partition

/-!
# Which sub-field is one too many

If sub-fields do not fit, the check of the capacity finds the first slot that ends past the backing
integer. It goes by positions that are cut off, and reports one of them. A backing integer ends long
before the last position, though: the slot that is found starts within the integer, so that its start
is exact, and it is the first one at which the exact sum of all widths so far is too large.

The report also has the sum of all widths. That is added up in 64 bits, which is enough for `2 ^ 32`
widths of 32 bits each.
-/

namespace PackedFields

/-! ## The sum of all widths -/

/-- The sum of two numbers of 64 bits. -/
def Checked.addWide (a b : Nat) : Option Nat := if a + b < 2 ^ 64 then some (a + b) else none

/-- The number of bits that sub-fields take together, if no sum on the way overflows. -/
def totalBits? (ds : List SubField) : Option Nat :=
  ds.foldlM (fun total d => Checked.addWide total d.bits) 0

theorem totalBits?_eq {ds : List SubField} (h : totalBits ds < 2 ^ 64) :
    totalBits? ds = some (totalBits ds) := by
  have hadd : ∀ a b, a + b ≤ 2 ^ 64 - 1 → Checked.addWide a b = some (a + b) := by
    intro a b hab
    have hlt : a + b < 2 ^ 64 := by omega
    rw [Checked.addWide, if_pos hlt]
  have hsum : 0 + (ds.map (·.bits)).sum ≤ 2 ^ 64 - 1 := by
    rw [← totalBits_eq_sum]
    omega
  rw [totalBits?, foldlM_add_eq hadd (·.bits) ds hsum, Nat.zero_add, ← totalBits_eq_sum]

/-- A sum that is too large stops somewhere on the way. -/
theorem totalBits?_eq_none {ds : List SubField} (h : 2 ^ 64 ≤ totalBits ds) :
    totalBits? ds = none := by
  have hfold : ∀ total < 2 ^ 64, 2 ^ 64 ≤ total + totalBits ds →
      ds.foldlM (fun total d => Checked.addWide total d.bits) total = none := by
    clear h
    induction ds with
    | nil =>
      intro total htotal h
      rw [totalBits] at h
      omega
    | cons d ds ih =>
      intro total _ h
      rw [totalBits] at h
      rw [List.foldlM_cons, Checked.addWide]
      split_ifs with hnext
      · exact ih _ hnext (by omega)
      · rfl
  exact hfold 0 (by decide) (by omega)

theorem SubField.bits_le_of_width_le {d : SubField} (h : d.width ≤ lastPosition) :
    d.bits ≤ lastPosition := by
  have hone : 1 ≤ lastPosition := by decide
  unfold SubField.bits
  split
  · exact hone
  · exact h

theorem totalBits_lt_of_length_le {ds : List SubField} (hcount : ds.length ≤ 2 ^ 32)
    (hwidth : ∀ d ∈ ds, d.width ≤ lastPosition) : totalBits ds < 2 ^ 64 := by
  have hbits : ∀ n ∈ ds.map (·.bits), n ≤ lastPosition := by
    intro n hn
    obtain ⟨d, hd, rfl⟩ := List.mem_map.mp hn
    exact SubField.bits_le_of_width_le (hwidth d hd)
  calc totalBits ds = (ds.map (·.bits)).sum := totalBits_eq_sum ds
    _ ≤ (ds.map (·.bits)).length * lastPosition := List.sum_le_card_nsmul _ _ hbits
    _ ≤ 2 ^ 32 * lastPosition := by
      rw [List.length_map]
      exact Nat.mul_le_mul_right _ hcount
    _ < 2 ^ 64 := by decide

/-! ## The first slot past the end -/

theorem find?_stop_allocateFrom {limit : Nat} (hlimit : limit < lastPosition) {cursor : Nat}
    (hcursor : cursor ≤ limit) (ds : List SubField) {first : Slot}
    (h : (allocateFrom cursor ds).find? (fun slot => limit < slot.stop) = some first) :
    ∃ k d, ds[k]? = some d ∧ first = ⟨d, cursor + bitsBefore ds k, d.bits⟩ ∧
      cursor + bitsBefore ds k ≤ limit ∧ limit < cursor + bitsBefore ds (k + 1) := by
  induction ds generalizing cursor with
  | nil => cases h
  | cons d ds ih =>
    rw [allocateFrom, List.find?_cons] at h
    have hstop : Slot.stop ⟨d, cursor, d.bits⟩ ≤ limit ↔ cursor + d.bits ≤ limit :=
      addUpTo_le_iff hlimit
    by_cases hpast : limit < Slot.stop ⟨d, cursor, d.bits⟩
    · rw [decide_eq_true hpast] at h
      obtain rfl := Option.some.inj h
      have hend : bitsBefore (d :: ds) 1 = d.bits := bitsBefore_cons ds d 0
      refine ⟨0, d, rfl, rfl, hcursor, ?_⟩
      rw [hend]
      omega
    · rw [decide_eq_false hpast] at h
      have hnext : cursor + d.bits ≤ limit := by omega
      rw [addUpTo_of_le (by omega)] at h
      obtain ⟨k, e, he, hfirst, hstart, hend⟩ := ih hnext h
      rw [Nat.add_assoc, ← bitsBefore_cons ds d] at hfirst hstart hend
      exact ⟨k + 1, e, he, hfirst, hstart, hend⟩

theorem isLeast_overrun {ds : List SubField} {limit k : Nat} (hstart : bitsBefore ds k ≤ limit)
    (hend : limit < bitsBefore ds (k + 1)) : IsLeast {j | limit < bitsBefore ds (j + 1)} k := by
  refine ⟨hend, fun j hj => ?_⟩
  by_contra hlt
  have hmono : bitsBefore ds (j + 1) ≤ bitsBefore ds k := bitsBefore_mono ds (by omega)
  have hpast : limit < bitsBefore ds (j + 1) := hj
  omega

namespace Schema

variable (s : Schema)

theorem capacityIssues_of_find? {first : Slot}
    (h : s.slots.find? (fun slot => s.backing.bits < slot.stop) = some first) :
    s.capacityIssues =
      [⟨.overflow s.field s.backing (totalBits s.subFields) first.subField.name first.offset,
        first.subField.place⟩] := by
  rw [capacityIssues, h]

/-- What is found among some sub-fields is found among more of them. -/
theorem find?_slots_append (more : List SubField) {p : Slot → Bool} {first : Slot}
    (h : s.slots.find? p = some first) :
    ({ s with subFields := s.subFields ++ more } : Schema).slots.find? p = some first := by
  have happend := allocateFrom_append (Nat.zero_le _) s.subFields more
  have hfirst : (allocateFrom 0 s.subFields).find? p = some first := h
  rw [slots, allocate, happend, List.find?_append, hfirst, Option.some_or]

/-- Whether a diagnostic says of the sub-field `d` at `k` that it is the first that does not fit. -/
structure Blames (s : Schema) (i : Diagnostic) (k : Nat) (d : SubField) : Prop where
  declared : s.subFields[k]? = some d
  /-- It is the first at which the exact sum of the widths is too large. -/
  first : IsLeast {j | s.backing.bits < bitsBefore s.subFields (j + 1)} k
  place : i.place = d.place
  /-- The numbers are the exact sum of all widths, and that of the widths before `d`. -/
  issue : i.issue = .overflow s.field s.backing (s.subFields.map (·.bits)).sum d.name
    (bitsBefore s.subFields k)
  message : i.message = Issue.shown s.field ++ " needs " ++
    toString (s.subFields.map (·.bits)).sum ++ " bits but " ++ Issue.ticked s.backing.name ++
    " holds " ++ toString s.backing.bits ++ "; " ++ Issue.shown d.name ++ " would start at bit " ++
    toString (bitsBefore s.subFields k)
  /-- The place where `d` would start is one of the backing integer, or its end. -/
  start_le : bitsBefore s.subFields k ≤ s.backing.bits

/-- The check of the capacity says something just in case the widths add up to more than the backing
integer has. It says one thing then: it puts the blame on the first sub-field at which the exact sum
is too large, and reports where that would start and how many bits there are in all, neither of them
cut off. More sub-fields change neither who is blamed nor where that would start. -/
theorem capacityIssues_blames_first (s : Schema) (hcount : s.subFields.length < 2 ^ 32)
    (hwidth : ∀ d ∈ s.subFields, d.width < 2 ^ 32) :
    s.capacityIssues.length ≤ 1 ∧
    (s.capacityIssues ≠ [] ↔ s.backing.bits < (s.subFields.map (·.bits)).sum) ∧
    totalBits? s.subFields = some (s.subFields.map (·.bits)).sum ∧
    ∀ i ∈ s.capacityIssues, ∃ k d, s.Blames i k d ∧
      ∀ more, ({ s with subFields := s.subFields ++ more } : Schema).capacityIssues =
        [⟨.overflow s.field s.backing ((s.subFields ++ more).map (·.bits)).sum d.name
          (bitsBefore s.subFields k), d.place⟩] := by
  have htotal : totalBits s.subFields < 2 ^ 64 :=
    totalBits_lt_of_length_le hcount.le fun d hd => Nat.le_of_lt_succ (hwidth d hd)
  have hiff : s.capacityIssues ≠ [] ↔ s.backing.bits < (s.subFields.map (·.bits)).sum := by
    rw [ne_eq, capacityIssues_eq_nil_iff, not_le, totalBits_eq_sum]
  have hwide := totalBits?_eq htotal
  rw [totalBits_eq_sum] at hwide
  cases hfind : s.slots.find? fun slot => s.backing.bits < slot.stop with
  | none =>
    have hnil : s.capacityIssues = [] := by rw [capacityIssues, hfind]
    refine ⟨by simp [hnil], hiff, hwide, fun i hi => ?_⟩
    rw [hnil] at hi
    cases hi
  | some first =>
    have hissues := s.capacityIssues_of_find? hfind
    refine ⟨by simp [hissues], hiff, hwide, fun i hi => ?_⟩
    obtain ⟨k, d, hd, rfl, hstart, hend⟩ :=
      find?_stop_allocateFrom s.backing.bits_lt_lastPosition (Nat.zero_le _) s.subFields hfind
    rw [Nat.zero_add] at hstart hend
    rw [hissues, Nat.zero_add, totalBits_eq_sum] at hi
    obtain rfl := List.mem_singleton.mp hi
    refine ⟨k, d, ⟨hd, isLeast_overrun hstart hend, rfl, rfl, rfl, hstart⟩, fun more => ?_⟩
    have hmore := capacityIssues_of_find? _ (s.find?_slots_append more hfind)
    rw [hmore, totalBits_eq_sum, Nat.zero_add]

/-- A byte of a flag and of two integers that are as wide as a declaration can say. -/
def crowded : Schema :=
  Sample.field "Data" ⟨"i", false⟩ (Sample.u .w8)
    [Sample.flag "on", Sample.part (Sample.u .w8) 0xFFFFFFFF "a",
      Sample.part (Sample.u .w8) 0xFFFFFFFF "b"]

theorem capacityIssues_blames_first_crowded :
    crowded.subFields.length < 2 ^ 32 ∧ (∀ d ∈ crowded.subFields, d.width < 2 ^ 32) ∧
      ∃ i ∈ crowded.capacityIssues, ∃ d, crowded.Blames i 1 d ∧
        i.message = "`i` needs 8589934591 bits but `u8` holds 8; `a` would start at bit 1" := by
  have hcount : crowded.subFields.length < 2 ^ 32 := by decide
  have hwidth : ∀ d ∈ crowded.subFields, d.width < 2 ^ 32 := by decide
  obtain ⟨-, hiff, -, hblames⟩ := capacityIssues_blames_first crowded hcount hwidth
  have hpast : crowded.backing.bits < (crowded.subFields.map (·.bits)).sum := by decide
  obtain ⟨i, hi⟩ := List.exists_mem_of_ne_nil _ (hiff.mpr hpast)
  obtain ⟨k, d, hd, -⟩ := hblames i hi
  have hleast : IsLeast {j | crowded.backing.bits < bitsBefore crowded.subFields (j + 1)} 1 :=
    isLeast_overrun (by decide) (by decide)
  obtain rfl := hd.first.unique hleast
  have hname : d.name = ⟨"a", false⟩ := by
    have hdeclared := hd.declared
    cases hdeclared
    rfl
  refine ⟨hcount, hwidth, i, hi, d, hd, ?_⟩
  rw [hd.message, hname]
  decide

end Schema

end PackedFields
