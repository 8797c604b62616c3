import PackedFields.Proofs.Acceptance

/-!
# Slots partition the bits

The slot of a sub-field starts where the sub-fields before it end, and ends where those up to it
end; a position past the last one is cut off. So the slots of any sub-fields, however many and
however wide, take every bit below the end of all of them once, and no other bit.

Nothing that is packed later moves what is there: the slots of a list are the first slots of every
longer list.
-/

namespace PackedFields

/-- The exact number of bits that the first `k` sub-fields take. -/
def bitsBefore (ds : List SubField) (k : Nat) : Nat := ((ds.take k).map (·.bits)).sum

section Sums

variable (ds : List SubField) {d : SubField} {j k : Nat}

theorem bitsBefore_eq_totalBits (k : Nat) : bitsBefore ds k = totalBits (ds.take k) :=
  (totalBits_eq_sum _).symm

theorem bitsBefore_of_length_le (h : ds.length ≤ k) : bitsBefore ds k = totalBits ds := by
  rw [bitsBefore_eq_totalBits, List.take_of_length_le h]

theorem bitsBefore_cons (d : SubField) (k : Nat) :
    bitsBefore (d :: ds) (k + 1) = d.bits + bitsBefore ds k := by
  rw [bitsBefore, List.take_succ_cons, List.map_cons, List.sum_cons, bitsBefore]

variable {ds} in
theorem bitsBefore_succ (hd : ds[k]? = some d) :
    bitsBefore ds (k + 1) = bitsBefore ds k + d.bits := by
  rw [bitsBefore, List.take_add_one, hd, List.map_append, List.sum_append, bitsBefore]
  rfl

theorem bitsBefore_mono (h : j ≤ k) : bitsBefore ds j ≤ bitsBefore ds k := by
  have hsplit := List.take_append_drop j (ds.take k)
  rw [List.take_take, Nat.min_eq_left h] at hsplit
  rw [bitsBefore_eq_totalBits, bitsBefore_eq_totalBits, ← hsplit, totalBits_append]
  exact Nat.le_add_right _ _

theorem bitsBefore_le_totalBits (k : Nat) : bitsBefore ds k ≤ totalBits ds := by
  rw [← bitsBefore_of_length_le ds (Nat.le_add_left _ k)]
  exact bitsBefore_mono ds (Nat.le_add_right _ _)

variable {ds} in
/-- A bit belongs to one sub-field at most. -/
theorem eq_of_bitsBefore_le {bit : Nat} (hj : bitsBefore ds j ≤ bit ∧ bit < bitsBefore ds (j + 1))
    (hk : bitsBefore ds k ≤ bit ∧ bit < bitsBefore ds (k + 1)) : j = k := by
  rcases lt_trichotomy j k with hlt | heq | hgt
  · have hmono : bitsBefore ds (j + 1) ≤ bitsBefore ds k := bitsBefore_mono ds hlt
    omega
  · exact heq
  · have hmono : bitsBefore ds (k + 1) ≤ bitsBefore ds j := bitsBefore_mono ds hgt
    omega

end Sums

/-! ## Where a slot stands -/

theorem Slot.has_iff {s : Slot} {bit : Nat} : s.has bit ↔ s.offset ≤ bit ∧ bit < s.stop := by
  rw [Slot.has, Bool.and_eq_true, decide_eq_true_eq, decide_eq_true_eq]

section Places

variable {cursor : Nat} (hcursor : cursor ≤ lastPosition) (ds es : List SubField)

include hcursor

theorem getElem?_allocateFrom (k : Nat) :
    (allocateFrom cursor ds)[k]? =
      ds[k]?.map fun d => ⟨d, addUpTo cursor (bitsBefore ds k), d.bits⟩ := by
  induction ds generalizing cursor k with
  | nil => rfl
  | cons d ds ih =>
    have hnext : addUpTo cursor d.bits ≤ lastPosition := Nat.min_le_right _ _
    cases k with
    | zero =>
      have hstart : addUpTo cursor (bitsBefore (d :: ds) 0) = cursor := addUpTo_of_le hcursor
      simp only [allocateFrom, List.getElem?_cons_zero, Option.map_some, hstart]
    | succ k =>
      have hrest := ih hnext k
      simp only [addUpTo_addUpTo] at hrest
      simp only [allocateFrom, List.getElem?_cons_succ, bitsBefore_cons, hrest]

/-- Each bit from the cursor to the end of the last slot is in one slot. -/
theorem countP_has_allocateFrom (bit : Nat) :
    (allocateFrom cursor ds).countP (·.has bit) =
      if cursor ≤ bit ∧ bit < addUpTo cursor (totalBits ds) then 1 else 0 := by
  -- the first slot has the bits up to the cursor of the others, which have the bits from there on
  induction ds generalizing cursor with
  | nil =>
    have hend : addUpTo cursor (totalBits []) = cursor := addUpTo_of_le hcursor
    rw [hend, if_neg (by omega)]
    rfl
  | cons d ds ih =>
    have hnext : addUpTo cursor d.bits ≤ lastPosition := Nat.min_le_right _ _
    have hrest := ih hnext
    rw [addUpTo_addUpTo] at hrest
    have hfrom : cursor ≤ addUpTo cursor d.bits := by
      unfold addUpTo
      omega
    have hto : addUpTo cursor d.bits ≤ addUpTo cursor (d.bits + totalBits ds) := by
      unfold addUpTo
      omega
    have hfirst : Slot.has ⟨d, cursor, d.bits⟩ bit ↔ cursor ≤ bit ∧ bit < addUpTo cursor d.bits :=
      Slot.has_iff
    rw [allocateFrom, List.countP_cons, hrest, totalBits]
    by_cases hown : cursor ≤ bit ∧ bit < addUpTo cursor d.bits
    · rw [if_neg (by omega), if_pos (hfirst.mpr hown), if_pos (by omega)]
    · rw [if_neg (mt hfirst.mp hown), Nat.add_zero]
      congr 1
      rw [eq_iff_iff]
      omega

end Places

variable (ds : List SubField)

theorem getElem?_allocate (k : Nat) :
    (allocate ds)[k]? =
      ds[k]?.map fun d => ⟨d, min lastPosition (bitsBefore ds k), d.bits⟩ := by
  have hat := getElem?_allocateFrom (Nat.zero_le _) ds k
  simp only [addUpTo, Nat.zero_add, Nat.min_comm] at hat
  exact hat

theorem allocate_eq_mapIdx :
    allocate ds = ds.mapIdx fun k d => ⟨d, min lastPosition (bitsBefore ds k), d.bits⟩ := by
  apply List.ext_getElem?
  intro k
  rw [getElem?_allocate, List.getElem?_mapIdx]

theorem map_stop_allocate :
    (allocate ds).map Slot.stop =
      (List.range ds.length).map fun k => min lastPosition (bitsBefore ds (k + 1)) := by
  apply List.ext_getElem?
  intro k
  rw [List.getElem?_map, getElem?_allocate, List.getElem?_map]
  cases hd : ds[k]? with
  | none =>
    have hlength : ds.length ≤ k := List.getElem?_eq_none_iff.mp hd
    rw [List.getElem?_eq_none (by rwa [List.length_range])]
    rfl
  | some d =>
    obtain ⟨hlength, -⟩ := List.getElem?_eq_some_iff.mp hd
    have hstop : Slot.stop ⟨d, min lastPosition (bitsBefore ds k), d.bits⟩ =
        min lastPosition (bitsBefore ds (k + 1)) := by
      rw [bitsBefore_succ hd]
      show addUpTo (min lastPosition (bitsBefore ds k)) d.bits = _
      unfold addUpTo
      omega
    rw [List.getElem?_range hlength, Option.map_some, Option.map_some, Option.map_some, hstop]

/-- The slots of sub-fields, of any number and any widths: there is one for each sub-field, in order,
with one bit for a truth value and the declared bits for an integer; it starts after the bits of the
sub-fields before it and ends after its own, where both are exact sums that are cut off at the last
position. So a bit is in one slot if it is below the end of all sub-fields and in none otherwise. More
sub-fields only add slots. -/
theorem allocate_partitions_bits (ds : List SubField) :
    allocate ds = ds.mapIdx (fun k d =>
      ⟨d, min lastPosition (bitsBefore ds k), match d.kind with | .bool => 1 | .int _ => d.width⟩) ∧
    (allocate ds).map Slot.stop =
      (List.range ds.length).map (fun k => min lastPosition (bitsBefore ds (k + 1))) ∧
    (∀ bit, (allocate ds).countP (fun slot => slot.offset ≤ bit && bit < slot.stop) =
      if bit < min lastPosition (totalBits ds) then 1 else 0) ∧
    ∀ es, allocate ds <+: allocate (ds ++ es) := by
  refine ⟨allocate_eq_mapIdx ds, map_stop_allocate ds, fun bit => ?_, fun es => ?_⟩
  · have hcount := countP_has_allocateFrom (Nat.zero_le _) ds bit
    simp only [Nat.zero_le, true_and, addUpTo, Nat.zero_add, Nat.min_comm _ lastPosition] at hcount
    exact hcount
  · have happend := allocateFrom_append (Nat.zero_le _) ds es
    exact ⟨_, happend.symm⟩

/-! ## The slots of accepted schemas -/

namespace Schema.Accepted

variable {s : Schema} {k : Nat} {d : SubField}

theorem bitsBefore_le_lastPosition (h : s.Accepted) (k : Nat) :
    bitsBefore s.subFields k ≤ lastPosition := by
  have hcapacity := (bitsBefore_le_totalBits s.subFields k).trans h.capacity
  exact hcapacity.trans s.backing.bits_lt_lastPosition.le

theorem bitsBefore_add_bits_le_lastPosition (h : s.Accepted) (hd : s.subFields[k]? = some d) :
    bitsBefore s.subFields k + d.bits ≤ lastPosition := by
  rw [← bitsBefore_succ hd]
  exact h.bitsBefore_le_lastPosition (k + 1)

/-- The slots of an accepted schema stand where exact sums put them. -/
theorem getElem?_slots (h : s.Accepted) (hd : s.subFields[k]? = some d) :
    s.slots[k]? = some ⟨d, bitsBefore s.subFields k, d.bits⟩ := by
  have hstart := Nat.min_eq_right (h.bitsBefore_le_lastPosition k)
  rw [slots, getElem?_allocate, hd, Option.map_some, hstart]

/-- A bit that a slot has is after the bits of the sub-fields before it. -/
theorem has_iff (h : s.Accepted) (hd : s.subFields[k]? = some d) (bit : Nat) :
    Slot.has ⟨d, bitsBefore s.subFields k, d.bits⟩ bit ↔
      bitsBefore s.subFields k ≤ bit ∧ bit < bitsBefore s.subFields (k + 1) := by
  have hstop := addUpTo_of_le (h.bitsBefore_add_bits_le_lastPosition hd)
  rw [Slot.has_iff, Slot.stop, hstop, bitsBefore_succ hd]

end Schema.Accepted

end PackedFields
