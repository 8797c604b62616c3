import PackedFields.Proofs.Word
import PackedFields.Schema.Allocation

/-!
# Packed positions

Allocation cuts positions off at the end of the 32-bit range. No integer comes near it: up to a
limit inside the range, slots stand where exact sums put them, and the last of them ends where the
widths of all sub-fields add up to.
-/

namespace PackedFields

theorem IntType.bits_lt_lastPosition (t : IntType) : t.bits < lastPosition :=
  lt_of_le_of_lt t.bits_le (by decide)

theorem addUpTo_of_le {a b : Nat} (h : a + b ≤ lastPosition) : addUpTo a b = a + b :=
  Nat.min_eq_left h

/-- Whether a sum of positions is within a limit can be seen from the sum that is cut off. -/
theorem addUpTo_le_iff {a b limit : Nat} (h : limit < lastPosition) :
    addUpTo a b ≤ limit ↔ a + b ≤ limit := by
  rw [addUpTo]
  omega

theorem addUpTo_addUpTo (a b c : Nat) : addUpTo (addUpTo a b) c = addUpTo a (b + c) := by
  rw [addUpTo, addUpTo, addUpTo]
  omega

/-- A sum that stops at the first number past a limit does not stop if all numbers together are
within the limit. -/
theorem foldlM_add_eq {α : Type*} {add : Nat → Nat → Option Nat} {limit : Nat}
    (hadd : ∀ a b, a + b ≤ limit → add a b = some (a + b)) (f : α → Nat) (xs : List α) {total : Nat}
    (h : total + (xs.map f).sum ≤ limit) :
    xs.foldlM (fun total x => add total (f x)) total = some (total + (xs.map f).sum) := by
  -- every sum on the way is at most the last one
  induction xs generalizing total with
  | nil => rfl
  | cons x xs ih =>
    rw [List.map_cons, List.sum_cons] at h ⊢
    have hsum := hadd total (f x) (by omega)
    have hrest : total + f x + (xs.map f).sum ≤ limit := by omega
    rw [List.foldlM_cons, hsum, Option.bind_eq_bind, Option.bind_some, ih hrest, Nat.add_assoc]

theorem totalBits_eq_sum (ds : List SubField) : totalBits ds = (ds.map (·.bits)).sum := by
  induction ds with
  | nil => rfl
  | cons d ds ih => rw [totalBits, ih, List.map_cons, List.sum_cons]

theorem totalBits_append (ds es : List SubField) :
    totalBits (ds ++ es) = totalBits ds + totalBits es := by
  rw [totalBits_eq_sum, totalBits_eq_sum, totalBits_eq_sum, List.map_append, List.sum_append]

/-! ## Slots -/

theorem map_subField_allocateFrom (cursor : Nat) (ds : List SubField) :
    (allocateFrom cursor ds).map (·.subField) = ds := by
  induction ds generalizing cursor with
  | nil => rfl
  | cons d ds ih => rw [allocateFrom, List.map_cons, ih]

theorem Schema.map_subField_slots (s : Schema) : s.slots.map (·.subField) = s.subFields :=
  map_subField_allocateFrom 0 s.subFields

theorem subField_mem_of_mem_allocateFrom {slot : Slot} {cursor : Nat} {ds : List SubField}
    (h : slot ∈ allocateFrom cursor ds) : slot.subField ∈ ds := by
  rw [← map_subField_allocateFrom cursor ds]
  exact List.mem_map_of_mem h

theorem width_of_mem_allocateFrom {slot : Slot} {cursor : Nat} {ds : List SubField}
    (h : slot ∈ allocateFrom cursor ds) : slot.width = slot.subField.bits := by
  induction ds generalizing cursor with
  | nil => cases h
  | cons d ds ih =>
    rcases List.mem_cons.mp h with rfl | h
    · rfl
    · exact ih h

/-- Further sub-fields are packed after those before them, which stay where they are. -/
theorem allocateFrom_append {cursor : Nat} (hcursor : cursor ≤ lastPosition) (ds es : List SubField) :
    allocateFrom cursor (ds ++ es) =
      allocateFrom cursor ds ++ allocateFrom (addUpTo cursor (totalBits ds)) es := by
  induction ds generalizing cursor with
  | nil => rw [List.nil_append, totalBits, addUpTo_of_le (by omega), Nat.add_zero]; rfl
  | cons d ds ih =>
    have hnext : addUpTo cursor d.bits ≤ lastPosition := Nat.min_le_right _ _
    rw [List.cons_append, allocateFrom, ih hnext, addUpTo_addUpTo, totalBits]
    rfl

/-- Within a limit, a slot starts where the one before it ends. -/
theorem allocateFrom_cons_of_le {limit : Nat} (hlimit : limit < lastPosition) {cursor : Nat}
    {d : SubField} {ds : List SubField} (h : cursor + totalBits (d :: ds) ≤ limit) :
    allocateFrom cursor (d :: ds) = ⟨d, cursor, d.bits⟩ :: allocateFrom (cursor + d.bits) ds := by
  rw [totalBits] at h
  rw [allocateFrom, addUpTo_of_le (by omega)]

/-- All slots end within a limit just in case the sub-fields take no more bits than there are up to
it. -/
theorem stop_le_iff {limit : Nat} (hlimit : limit < lastPosition) {cursor : Nat}
    (hcursor : cursor ≤ limit) (ds : List SubField) :
    (∀ slot ∈ allocateFrom cursor ds, slot.stop ≤ limit) ↔ cursor + totalBits ds ≤ limit := by
  induction ds generalizing cursor with
  | nil => simpa [allocateFrom, totalBits] using hcursor
  | cons d ds ih =>
    rw [allocateFrom, List.forall_mem_cons, totalBits, Slot.stop, addUpTo_le_iff hlimit]
    constructor
    · rintro ⟨hd, hds⟩
      have hd' : cursor + d.bits ≤ limit := hd
      rw [addUpTo_of_le (by omega), ih hd'] at hds
      omega
    · intro h
      have hd : cursor + d.bits ≤ limit := by omega
      refine ⟨hd, ?_⟩
      rw [addUpTo_of_le (by omega), ih hd]
      omega

theorem offset_add_width_le {limit : Nat} (hlimit : limit < lastPosition) {cursor : Nat}
    {ds : List SubField} (h : cursor + totalBits ds ≤ limit) {slot : Slot}
    (hslot : slot ∈ allocateFrom cursor ds) : slot.offset + slot.width ≤ limit := by
  have hstop := (stop_le_iff hlimit (by omega) ds).mpr h slot hslot
  rwa [Slot.stop, addUpTo_le_iff hlimit] at hstop

/-! ## Neighbours -/

theorem sum_width_allocateFrom (cursor : Nat) (ds : List SubField) :
    ((allocateFrom cursor ds).map (·.width)).sum = totalBits ds := by
  induction ds generalizing cursor with
  | nil => rfl
  | cons d ds ih => rw [allocateFrom, List.map_cons, List.sum_cons, ih, totalBits]

theorem le_offset_of_mem_allocateFrom {limit : Nat} (hlimit : limit < lastPosition) {cursor : Nat}
    {ds : List SubField} (h : cursor + totalBits ds ≤ limit) {slot : Slot}
    (hslot : slot ∈ allocateFrom cursor ds) : cursor ≤ slot.offset := by
  induction ds generalizing cursor with
  | nil => cases hslot
  | cons d ds ih =>
    rw [allocateFrom_cons_of_le hlimit h] at hslot
    rw [totalBits] at h
    rcases List.mem_cons.mp hslot with rfl | hslot
    · exact le_refl cursor
    · exact (Nat.le_add_right cursor d.bits).trans (ih (by omega) hslot)

/-- Every slot ends before those after it start. -/
theorem pairwise_allocateFrom {limit : Nat} (hlimit : limit < lastPosition) {cursor : Nat}
    {ds : List SubField} (h : cursor + totalBits ds ≤ limit) :
    (allocateFrom cursor ds).Pairwise (fun a b => a.offset + a.width ≤ b.offset) := by
  induction ds generalizing cursor with
  | nil => exact List.Pairwise.nil
  | cons d ds ih =>
    rw [allocateFrom_cons_of_le hlimit h, List.pairwise_cons]
    rw [totalBits] at h
    have hds : cursor + d.bits + totalBits ds ≤ limit := by omega
    exact ⟨fun slot hslot => le_offset_of_mem_allocateFrom hlimit hds hslot, ih hds⟩

/-- The last slot ends where the widths of all sub-fields add up to. -/
theorem getLast?_allocateFrom {limit : Nat} (hlimit : limit < lastPosition) {cursor : Nat}
    {ds : List SubField} (hds : ds ≠ []) (h : cursor + totalBits ds ≤ limit) :
    (allocateFrom cursor ds).getLast?.map (fun slot => slot.offset + slot.width) =
      some (cursor + totalBits ds) := by
  induction ds generalizing cursor with
  | nil => exact absurd rfl hds
  | cons d ds ih =>
    rw [allocateFrom_cons_of_le hlimit h]
    rw [totalBits] at h ⊢
    cases ds with
    | nil => rfl
    | cons e es =>
      have hnext : cursor + d.bits + totalBits (e :: es) ≤ limit := by omega
      have hlast := ih (List.cons_ne_nil e es) hnext
      rw [allocateFrom_cons_of_le hlimit hnext] at hlast ⊢
      rw [List.getLast?_cons_cons, hlast, Nat.add_assoc]

end PackedFields
