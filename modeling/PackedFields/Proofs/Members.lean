import PackedFields.Generated.Member
import PackedFields.Machine.Sample
import PackedFields.Proofs.Acceptance

/-!
# The members of an accepted schema

An accepted schema has its members: nothing is left for emission to refuse. Their names are those of
the getters and the mutator, and for a shared field those of the cell and of the member that reads
the whole value. Validation compares the names of sub-fields with one another, with the mutator and
with the shared field, but not with the cell; so the names are pairwise different just in case no
sub-field of a shared field is called like the cell.
-/

namespace PackedFields.Schema

/-! ## Names that are made from the name of the field -/

section Names

variable (s : Schema)

theorem field_ne_mutatorName : s.field.text ≠ s.mutatorName.text := by
  intro h
  have hlen := congrArg String.length h
  rw [mutatorName, String.length_append] at hlen
  have hset : "set_".length = 4 := by decide
  omega

theorem cellName_ne_field : s.cellName.text ≠ s.field.text := by
  intro h
  have hlen := congrArg String.length h
  rw [cellName, String.length_append, String.length_append] at hlen
  have hmark : "__".length = 2 := by decide
  omega

theorem cellName_ne_mutatorName : s.cellName.text ≠ s.mutatorName.text := by
  intro h
  have hchars := congrArg String.toList h
  rw [cellName, mutatorName, String.toList_append, String.toList_append,
    String.toList_append] at hchars
  exact absurd (List.cons.inj hchars).1 (by decide)

/-- The texts of the names of the members for a schema, in order. -/
def memberNames : List String :=
  (if s.shared then [s.cellName.text, s.field.text] else []) ++
    (s.subFields.map (·.name.text) ++ [s.mutatorName.text])

end Names

variable {s : Schema}

/-! ## Emission -/

theorem Accepted.sharedMembers_eq (h : s.Accepted) :
    ∃ members, s.sharedMembers = .ok members ∧
      members.map (·.name.text) = if s.shared then [s.cellName.text, s.field.text] else [] := by
  rw [sharedMembers]
  cases hshared : s.shared with
  | false => exact ⟨[], by simp⟩
  | true =>
    obtain ⟨atomic, hatomic⟩ := Option.isSome_iff_exists.mp (h.atomic hshared)
    refine ⟨[s.cellMember atomic, s.wholeMember], by simp [hatomic], rfl⟩

theorem map_name_getterMember :
    (s.accessors.getters.map s.getterMember).map (·.name.text) =
      s.subFields.map (·.name.text) := by
  conv_rhs => rw [← s.map_subField_slots]
  simp only [accessors, getters, slots, allocate, List.map_map]
  rfl

/-- An accepted schema has a block of members, in which every getter is one. -/
theorem Accepted.memberBlock_eq (h : s.Accepted) :
    ∃ block, s.memberBlock = .ok block ∧ block.members.map (·.name.text) = s.memberNames ∧
      ∀ g ∈ s.accessors.getters, s.getterMember g ∈ block.members := by
  obtain ⟨members, hmembers, hnames⟩ := h.sharedMembers_eq
  refine ⟨_, by rw [memberBlock, hmembers]; rfl, ?_, fun g hg => ?_⟩
  · simp only [List.map_append, hnames, map_name_getterMember, List.append_assoc]
    rfl
  · exact List.mem_append_left _ (List.mem_append_right _ (List.mem_map_of_mem hg))

/-! ## Clashes of names -/

/-- The getters and the mutator never clash. -/
theorem Accepted.accessorNames_nodup (h : s.Accepted) :
    (s.subFields.map (·.name.text) ++ [s.mutatorName.text]).Nodup := by
  rw [List.nodup_append]
  refine ⟨h.names, List.nodup_singleton _, ?_⟩
  intro a ha b hb
  obtain ⟨d, hd, rfl⟩ := List.mem_map.mp ha
  rw [List.mem_singleton.mp hb]
  exact h.mutator d hd

theorem Accepted.memberNames_nodup_iff (h : s.Accepted) :
    s.memberNames.Nodup ↔
      ¬ (s.shared ∧ ∃ d ∈ s.subFields, d.name.text = s.cellName.text) := by
  rw [memberNames]
  cases hshared : s.shared with
  | false =>
    have haccessors := h.accessorNames_nodup
    simpa using haccessors
  | true =>
    have hfield : s.field.text ∉ s.subFields.map (·.name.text) ++ [s.mutatorName.text] := by
      intro hmem
      rcases List.mem_append.mp hmem with hmem | hmem
      · obtain ⟨d, hd, hname⟩ := List.mem_map.mp hmem
        exact h.field hshared d hd hname
      · exact s.field_ne_mutatorName (List.mem_singleton.mp hmem)
    have hcell : s.cellName.text ∈ s.field.text ::
          (s.subFields.map (·.name.text) ++ [s.mutatorName.text]) ↔
        ∃ d ∈ s.subFields, d.name.text = s.cellName.text := by
      rw [List.mem_cons, List.mem_append, List.mem_singleton, List.mem_map]
      exact ⟨fun hmem => (hmem.resolve_left s.cellName_ne_field).resolve_right
        s.cellName_ne_mutatorName, fun hmem => Or.inr (Or.inl hmem)⟩
    simp only [if_true, List.cons_append, List.nil_append, List.nodup_cons, hcell, hfield,
      h.accessorNames_nodup, not_false_eq_true, and_true, true_and]

/-- The members that an accepted schema gets have pairwise different names, marks left aside, unless
a sub-field of a shared field is called like the cell that holds the value. -/
theorem members_distinct_iff (s : Schema) (h : s.validate = []) :
    ∃ block, s.memberBlock = .ok block ∧ block.members.map (·.name.text) = s.memberNames ∧
      ((block.members.map (·.name.text)).Nodup ↔
        ¬ (s.shared ∧ ∃ d ∈ s.subFields, d.name.text = s.cellName.text)) := by
  have haccepted := s.validate_eq_nil_iff.mp h
  obtain ⟨block, hblock, hnames, -⟩ := haccepted.memberBlock_eq
  exact ⟨block, hblock, hnames, by rw [hnames, haccepted.memberNames_nodup_iff]⟩

/-- A shared byte with a sub-field that is called like its cell. -/
def namesake : Schema :=
  Sample.sharedField "Data" ⟨"i", false⟩ (Sample.u .w8) [Sample.part (Sample.u .w8) 4 "__i_cell"]

/-- Nothing is said against a sub-field that is called like the cell, and two members then have the
same name. -/
theorem namesake_of_cell_clashes :
    namesake.validate = [] ∧ ∃ block, namesake.memberBlock = .ok block ∧
      ¬ (block.members.map (·.name.text)).Nodup := by
  refine ⟨by decide, _, rfl, by decide⟩

/-- A shared field with a marked name, and a sub-field that is nearly called like its cell. -/
def nearNamesake : Schema :=
  Sample.sharedField "Data" ⟨"loop", true⟩ (Sample.i .w64)
    [Sample.flag "Type", Sample.part (Sample.i .w32) 30 "_loop_cell"]

theorem members_distinct_nearNamesake :
    nearNamesake.validate = [] ∧ ∃ block, nearNamesake.memberBlock = .ok block ∧
      (block.members.map (·.name.text)).Nodup := by
  have hvalid : nearNamesake.validate = [] := by decide
  obtain ⟨block, hblock, -, hdistinct⟩ := members_distinct_iff nearNamesake hvalid
  exact ⟨hvalid, block, hblock, hdistinct.mpr (by decide)⟩

end PackedFields.Schema
