import PackedFields.Proofs.Allocation
import PackedFields.Schema.Validation

/-!
# Accepted schemas

Validation has nothing to say against a schema just in case the schema meets a list of conditions
(`Schema.Accepted`) that speak of exact sums and of pairs of names, and not of positions that are
cut off or of a scan over the names. Each check is treated on its own; that of the names is a scan
that remembers the names before, and as long as it finds nothing, all of them were new.
-/

namespace PackedFields

theorem Container.issues_eq_nil_iff (c : Container) :
    c.issues = [] ↔ c.visibility.access?.isSome ∧ c.extensible := by
  cases hv : c.visibility <;> cases he : c.extensible <;>
    simp [Container.issues, Visibility.access?, hv, he]

/-- Whether two names cannot both be those of sub-fields: they have the same text, or the parameters
for them have. -/
def Name.Clash (a b : Name) : Prop := a.text = b.text ∨ a.parameter.text = b.parameter.text

namespace Schema

/-- What validation asks of a schema. -/
structure Accepted (s : Schema) : Prop where
  /-- The visibility of the container is supported. -/
  visible : s.container.visibility.access?.isSome
  /-- The container can get members. -/
  extensible : s.container.extensible
  /-- A shared field has a type with an atomic counterpart. -/
  atomic : s.shared → s.backing.atomic?.isSome
  /-- There are sub-fields. -/
  declared : s.subFields ≠ []
  /-- The sub-fields fit the backing integer. -/
  capacity : totalBits s.subFields ≤ s.backing.bits
  /-- An integer has bits, and no more than its type. -/
  widths : ∀ d ∈ s.subFields, ∀ t, d.kind = .int t → 0 < d.width ∧ d.width ≤ t.bits
  /-- No two sub-fields have the same name. -/
  names : (s.subFields.map (·.name.text)).Nodup
  /-- No two sub-fields have the same parameter. -/
  parameters : (s.subFields.map (·.name.parameter.text)).Nodup
  /-- No sub-field is called like the mutator. -/
  mutator : ∀ d ∈ s.subFields, d.name.text ≠ s.mutatorName.text
  /-- No sub-field of a shared field is called like the field. -/
  field : s.shared → ∀ d ∈ s.subFields, d.name.text ≠ s.field.text

/-- The sub-fields fit, packed from bit 0. -/
theorem Accepted.zero_add_totalBits_le {s : Schema} (h : s.Accepted) :
    0 + totalBits s.subFields ≤ s.backing.bits := by
  rw [Nat.zero_add]
  exact h.capacity

variable (s : Schema)

/-! ## Each check on its own -/

theorem sharingIssues_eq_nil_iff :
    s.sharingIssues = [] ↔ (s.shared → s.backing.atomic?.isSome) := by
  simp [sharingIssues, Option.isSome_iff_ne_none]

theorem capacityIssues_eq_nil_iff :
    s.capacityIssues = [] ↔ totalBits s.subFields ≤ s.backing.bits := by
  have hslots := stop_le_iff s.backing.bits_lt_lastPosition (Nat.zero_le _) s.subFields
  rw [Nat.zero_add] at hslots
  rw [← hslots, capacityIssues]
  cases hfirst : s.slots.find? fun slot => s.backing.bits < slot.stop with
  | none => simpa [slots, allocate] using hfirst
  | some first =>
    have hpast := List.find?_some hfirst
    simp only [decide_eq_true_eq] at hpast
    have hmem : first ∈ allocateFrom 0 s.subFields := List.mem_of_find?_eq_some hfirst
    simp only [reduceCtorEq, false_iff, not_forall]
    exact ⟨first, hmem, by omega⟩

theorem widthIssues_eq_nil_iff (d : SubField) :
    widthIssues d = [] ↔ ∀ t, d.kind = .int t → 0 < d.width ∧ d.width ≤ t.bits := by
  rw [widthIssues]
  cases hk : d.kind with
  | bool => simp
  | int t =>
    simp only [Kind.int.injEq, forall_eq']
    split_ifs with hzero hwide
    · simp [hzero]
    · simp; omega
    · simp; omega

theorem freshNameIssues_eq_nil_iff (before : List Name) (d : SubField) :
    s.freshNameIssues before d = [] ↔
      (∀ n ∈ before, n.parameter.text ≠ d.name.parameter.text) ∧
        d.name.text ≠ s.mutatorName.text ∧ (s.shared → d.name.text ≠ s.field.text) := by
  rw [freshNameIssues, List.append_eq_nil_iff, List.append_eq_nil_iff, and_assoc]
  refine and_congr ?_ (and_congr ?_ ?_)
  · cases hfirst : before.find? (·.parameter.text = d.name.parameter.text) with
    | none => simpa using hfirst
    | some first =>
      have hsame := List.find?_some hfirst
      simp only [decide_eq_true_eq] at hsame
      simp only [reduceCtorEq, false_iff, not_forall]
      exact ⟨first, List.mem_of_find?_eq_some hfirst, not_not.mpr hsame⟩
  · simp
  · simp

/-- What can be wrong with a name that is new. -/
theorem mem_freshNameIssues_cases {before : List Name} {d : SubField} {i : Diagnostic}
    (h : i ∈ s.freshNameIssues before d) :
    (∃ first ∈ before, i = ⟨.sameParameter first d.name d.name.parameter.text, d.place⟩) ∨
      i = ⟨.namedAsMutator d.name s.mutatorName, d.place⟩ ∨
      i = ⟨.namedAsField d.name s.field, d.place⟩ := by
  rw [freshNameIssues, List.mem_append, List.mem_append] at h
  rcases h with (h | h) | h
  · split at h
    · next first hfirst =>
      exact .inl ⟨first, List.mem_of_find?_eq_some hfirst, List.mem_singleton.mp h⟩
    · cases h
  · split_ifs at h
    · exact .inr (.inl (List.mem_singleton.mp h))
    · cases h
  · split_ifs at h
    · exact .inr (.inr (List.mem_singleton.mp h))
    · cases h

/-- The scan over the names, after names that were all new. -/
theorem nameIssuesFrom_eq_nil_iff (before : List Name) (ds : List SubField) :
    s.nameIssuesFrom before before ds = [] ↔
      ds.Pairwise (fun a b => ¬ a.name.Clash b.name) ∧
      ∀ d ∈ ds, (∀ n ∈ before, ¬ n.Clash d.name) ∧
        d.name.text ≠ s.mutatorName.text ∧ (s.shared → d.name.text ≠ s.field.text) := by
  induction ds generalizing before with
  | nil => simp [nameIssuesFrom]
  | cons d ds ih =>
    rw [nameIssuesFrom, List.pairwise_cons, List.forall_mem_cons]
    cases hfirst : before.find? (·.text = d.name.text) with
    | some first =>
      have hsame := List.find?_some hfirst
      simp only [decide_eq_true_eq] at hsame
      have hmem := List.mem_of_find?_eq_some hfirst
      simp only [reduceCtorEq, false_iff]
      exact fun h => h.2.1.1 first hmem (Or.inl hsame)
    | none =>
      have hnew : ∀ n ∈ before, n.text ≠ d.name.text := by simpa using hfirst
      simp only [List.append_eq_nil_iff, freshNameIssues_eq_nil_iff, ih, List.forall_mem_cons]
      constructor
      · rintro ⟨⟨hparam, hmutator, hfield⟩, hpairs, hds⟩
        exact ⟨⟨fun e he => (hds e he).1.1, hpairs⟩,
          ⟨fun n hn => not_or.mpr ⟨hnew n hn, hparam n hn⟩, hmutator, hfield⟩,
          fun e he => ⟨(hds e he).1.2, (hds e he).2⟩⟩
      · rintro ⟨⟨hd, hpairs⟩, ⟨hbefore, hmutator, hfield⟩, hds⟩
        exact ⟨⟨fun n hn => (not_or.mp (hbefore n hn)).2, hmutator, hfield⟩, hpairs,
          fun e he => ⟨⟨hd e he, (hds e he).1⟩, (hds e he).2⟩⟩

theorem nameIssues_eq_nil_iff :
    s.nameIssues = [] ↔
      (s.subFields.map (·.name.text)).Nodup ∧ (s.subFields.map (·.name.parameter.text)).Nodup ∧
      (∀ d ∈ s.subFields, d.name.text ≠ s.mutatorName.text) ∧
      (s.shared → ∀ d ∈ s.subFields, d.name.text ≠ s.field.text) := by
  have hpairs : s.subFields.Pairwise (fun a b => ¬ a.name.Clash b.name) ↔
      (s.subFields.map (·.name.text)).Nodup ∧
        (s.subFields.map (·.name.parameter.text)).Nodup := by
    simp only [Name.Clash, not_or, List.pairwise_and_iff, List.Nodup, List.pairwise_map, ne_eq]
  rw [nameIssues, nameIssuesFrom_eq_nil_iff, hpairs, and_assoc]
  simp only [List.not_mem_nil, false_implies, implies_true, true_and, forall_and,
    and_congr_right_iff]
  exact fun _ _ _ => ⟨fun h hs d hd => h d hd hs, fun h d hd hs => h hs d hd⟩

/-! ## All checks together -/

theorem subFieldIssues_eq_nil_iff :
    s.subFieldIssues = [] ↔
      s.subFields ≠ [] ∧ s.capacityIssues = [] ∧ (∀ d ∈ s.subFields, widthIssues d = []) ∧
        s.nameIssues = [] := by
  rw [subFieldIssues]
  split_ifs with hempty
  · simp [List.isEmpty_iff.mp hempty]
  · simp only [List.append_eq_nil_iff, List.flatMap_eq_nil_iff, and_assoc]
    exact ⟨fun h => ⟨fun hnil => hempty (List.isEmpty_iff.mpr hnil), h⟩, fun h => h.2⟩

theorem validate_eq_nil_iff : s.validate = [] ↔ s.Accepted := by
  rw [validate, List.append_eq_nil_iff, List.append_eq_nil_iff, Container.issues_eq_nil_iff,
    sharingIssues_eq_nil_iff, subFieldIssues_eq_nil_iff, capacityIssues_eq_nil_iff,
    nameIssues_eq_nil_iff]
  simp only [widthIssues_eq_nil_iff]
  constructor
  · rintro ⟨⟨⟨hvis, hext⟩, hatomic⟩, hdecl, hcap, hwidths, hnames, hparams, hmutator, hfield⟩
    exact ⟨hvis, hext, hatomic, hdecl, hcap, hwidths, hnames, hparams, hmutator, hfield⟩
  · intro h
    exact ⟨⟨⟨h.visible, h.extensible⟩, h.atomic⟩, h.declared, h.capacity, h.widths, h.names,
      h.parameters, h.mutator, h.field⟩

end Schema

end PackedFields
