import PackedFields.Proofs.Capacity
import PackedFields.Proofs.Drawing
import PackedFields.Proofs.Reports

/-!
# Generation in machine numbers

`Schema.generate` computes with numbers that have no end. In a program, positions have 32 bits and
the sum of all widths has 64, and a step past the end of its range stops the run, as does an index
past the end of a list. Here generation is written out with these stops. The sums that allocation
itself takes are cut off, and never stop.

The sum of all widths is taken only to report that sub-fields do not fit. All other steps come after
validation, and what validation accepts is small enough for them.
-/

namespace PackedFields.Schema

/-! ## Validation -/

/-- What is wrong if the sub-fields do not fit the backing integer. -/
def capacityIssues? (s : Schema) : Option (List Diagnostic) :=
  match s.slots.find? fun slot => s.backing.bits < slot.stop with
  | some first => do
    let total ← totalBits? s.subFields
    return [⟨.overflow s.field s.backing total first.subField.name first.offset,
      first.subField.place⟩]
  | none => some []

/-- What is wrong with the sub-fields. -/
def subFieldIssues? (s : Schema) : Option (List Diagnostic) :=
  if s.subFields.isEmpty then some [⟨.noSubFields s.field, s.place⟩]
  else do
    let capacity ← s.capacityIssues?
    return capacity ++ s.subFields.flatMap widthIssues ++ s.nameIssues

/-- All that is wrong with a schema. -/
def validate? (s : Schema) : Option (List Diagnostic) := do
  let found ← s.subFieldIssues?
  return s.container.issues ++ s.sharingIssues ++ found

/-! ## Members -/

/-- The documentation of the getter of a sub-field. The end of its bits is a sum of positions. -/
def getterDoc? (s : Schema) (slot : Slot) : Option String :=
  let field := " of `" ++ s.field.spelling ++ "`."
  match slot.subField.kind with
  | .bool => some (" Bit " ++ toString slot.offset ++ field)
  | .int _ => do
    let stop ← Checked.add slot.offset slot.width
    return " Bits " ++ toString slot.offset ++ ".." ++ toString stop ++ field

/-- The function that reads a sub-field. -/
def getterMember? (s : Schema) (g : Getter) : Option Member := do
  let doc ← s.getterDoc? g.slot
  return { s.getterMember g with docs := [doc] }

/-- The function that replaces the whole backing integer. Its documentation has a diagram. -/
def mutatorMember? (s : Schema) (slots : List Slot) (m : Mutator) : Option Member := do
  let diagram ← Diagram.docs? s.backing slots
  return { s.mutatorMember slots m with
    docs := [" Overwrites all of `" ++ s.field.spelling ++ "` from its sub-fields.", "",
      " Bits outside the declared sub-fields are cleared and values are not",
      " masked to their width.", ""] ++ diagram }

/-- The members for a field. -/
def memberBlock? (s : Schema) : Option (Except Diagnostic MemberBlock) :=
  match s.sharedMembers with
  | .ok shared => do
    let getters ← s.accessors.getters.mapM s.getterMember?
    let mutator ← s.mutatorMember? s.slots s.accessors.mutator
    return .ok ⟨s.container, shared ++ getters ++ [mutator]⟩
  | .error d => some (.error d)

/-- The members and the layout for a schema, or what is wrong with it. -/
def generate? (s : Schema) : Option (Except (List Diagnostic) FieldOutput) := do
  let issues ← s.validate?
  if issues.isEmpty then
    match ← s.memberBlock? with
    | .ok block => do
      let docs ← Diagram.docs? s.backing s.slots
      return .ok ⟨s.field, block, s.layout, docs⟩
    | .error d => return .error [d]
  else return .error issues

/-! ## No step stops -/

variable {s : Schema}

theorem validate?_eq (h : totalBits s.subFields < 2 ^ 64) : s.validate? = some s.validate := by
  have hcapacity : s.capacityIssues? = some s.capacityIssues := by
    unfold capacityIssues? capacityIssues
    cases s.slots.find? fun slot => s.backing.bits < slot.stop with
    | none => rfl
    | some first =>
      simp only [totalBits?_eq h]
      rfl
  have hsubFields : s.subFieldIssues? = some s.subFieldIssues := by
    unfold subFieldIssues? subFieldIssues
    split_ifs
    · rfl
    · rw [hcapacity]
      rfl
  rw [validate?, hsubFields]
  rfl

theorem getterDoc?_eq {slot : Slot} (h : slot.offset + slot.width ≤ lastPosition) :
    s.getterDoc? slot = some (s.getterDoc slot) := by
  unfold getterDoc? getterDoc
  cases slot.subField.kind with
  | bool => rfl
  | int t =>
    simp only [Checked.add, if_pos h]
    rfl

theorem mutatorMember?_eq (slots : List Slot) (m : Mutator) :
    s.mutatorMember? slots m = some (s.mutatorMember slots m) := by
  rw [mutatorMember?, Diagram.docs?_eq]
  rfl

namespace Accepted

theorem offset_add_width_le_lastPosition (h : s.Accepted) {slot : Slot} (hslot : slot ∈ s.slots) :
    slot.offset + slot.width ≤ lastPosition := by
  have hinside := (h.fits hslot).inside
  have hlast := s.backing.bits_lt_lastPosition
  omega

theorem memberBlock?_eq (h : s.Accepted) : s.memberBlock? = some s.memberBlock := by
  have hgetters : s.accessors.getters.mapM s.getterMember? =
      some (s.accessors.getters.map s.getterMember) := by
    apply mapM_eq_some
    intro g hg
    obtain ⟨slot, hslot, rfl⟩ := List.mem_map.mp hg
    have hdoc := getterDoc?_eq (s := s) (h.offset_add_width_le_lastPosition hslot)
    rw [getterMember?, hdoc]
    rfl
  unfold memberBlock? memberBlock
  cases s.sharedMembers with
  | error d => rfl
  | ok shared =>
    simp only [hgetters, mutatorMember?_eq]
    rfl

theorem totalBits_lt (h : s.Accepted) : totalBits s.subFields < 2 ^ 64 := by
  have hcapacity := h.capacity
  have hbits := s.backing.bits_lt_lastPosition
  have hlast : lastPosition < 2 ^ 64 := by decide
  omega

end Accepted

/-- A run comes to its end if all widths can be added up. -/
theorem generate?_eq (h : totalBits s.subFields < 2 ^ 64) : s.generate? = some s.generate := by
  unfold generate? generate
  rw [validate?_eq h, Option.bind_eq_bind, Option.bind_some]
  by_cases hvalid : s.validate = []
  · have hblock := (s.validate_eq_nil_iff.mp hvalid).memberBlock?_eq
    rw [hvalid, if_pos List.isEmpty_nil, if_pos List.isEmpty_nil, hblock, Option.bind_eq_bind,
      Option.bind_some]
    cases s.memberBlock with
    | error d => rfl
    | ok block =>
      simp only [Diagram.docs?_eq]
      rfl
  · have hnonempty : ¬ s.validate.isEmpty := mt List.isEmpty_iff.mp hvalid
    rw [if_neg hnonempty, if_neg hnonempty]
    rfl

/-- A run stops if the widths cannot be added up: the sub-fields then do not fit, and their sum is
to be reported. -/
theorem generate?_eq_none (h : 2 ^ 64 ≤ totalBits s.subFields) : s.generate? = none := by
  have hnonempty : s.subFields.isEmpty = false := by
    rw [List.isEmpty_eq_false_iff]
    intro hnil
    rw [hnil, totalBits] at h
    omega
  have hcapacity : s.capacityIssues? = none := by
    have hissues : s.capacityIssues ≠ [] := by
      rw [ne_eq, capacityIssues_eq_nil_iff]
      have hbits := s.backing.bits_lt_lastPosition
      have hlast : lastPosition < 2 ^ 64 := by decide
      omega
    rw [capacityIssues?]
    rw [capacityIssues] at hissues
    cases hfind : s.slots.find? fun slot => s.backing.bits < slot.stop with
    | none =>
      rw [hfind] at hissues
      exact absurd rfl hissues
    | some first =>
      dsimp only
      rw [totalBits?_eq_none h]
      rfl
  rw [generate?, validate?, subFieldIssues?, hnonempty, hcapacity]
  rfl

end PackedFields.Schema
