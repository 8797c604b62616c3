import PackedFields.Proofs.Reports
import PackedFields.Proofs.Wording

/-!
# What a run loses

A run takes two complaints for one if they have the same code and the same wording. For names that
tokens can hold this means that they are the same issue. What is wrong with a field as a whole names
the field, so that no two fields can have it in common; but what is wrong with the width or the name
of a sub-field need not name the field, and a sub-field of another field, or of the same, may have
the same wrong with it. Just these complaints can get lost (`Container.generate_loses_nothing_iff`).
-/

namespace PackedFields

theorem Diagnostic.nodup_map_key_iff {ds : List Diagnostic} (h : ∀ d ∈ ds, d.issue.Plain) :
    (ds.map key).Nodup ↔ (ds.map (·.issue)).Nodup := by
  have hmap : ds.map key = (ds.map (·.issue)).map fun i => (i.code, i.message) := by
    rw [List.map_map]
    rfl
  rw [hmap]
  refine ⟨List.Nodup.of_map _, List.Nodup.map_on ?_⟩
  intro i hi j hj heq
  obtain ⟨d, hd, rfl⟩ := List.mem_map.mp hi
  obtain ⟨e, he, rfl⟩ := List.mem_map.mp hj
  obtain ⟨hcode, hmessage⟩ := Prod.mk.inj heq
  exact Issue.eq_of_message_eq (h d hd) (h e he) hcode hmessage

/-- The field that an issue is about as a whole, if it is about a field and not about a
sub-field. -/
def Issue.field? : Issue → Option Name
  | noSubFields f => some f
  | noAtomic f _ => some f
  | overflow f .. => some f
  | _ => none

namespace Schema

variable {s : Schema} {d : Diagnostic}

/-! ## The names in the complaints of a schema -/

/-- Whether tokens can hold the names that a schema gives. -/
def Named (s : Schema) : Prop := s.field.isToken ∧ ∀ d ∈ s.subFields, d.name.isToken

instance (s : Schema) : Decidable s.Named := inferInstanceAs (Decidable (_ ∧ _))

theorem Named.plain_field (h : s.Named) : s.field.Plain := Name.plain_of_isToken h.1

theorem Named.plain_name (h : s.Named) {p : SubField} (hp : p ∈ s.subFields) : p.name.Plain :=
  Name.plain_of_isToken (h.2 p hp)

theorem Named.plain_mutatorName (h : s.Named) : s.mutatorName.Plain := by
  have hset : Text.tick ∉ "set_".toList ∧ '#' ∉ "set_".toList := by decide
  rw [Name.Plain, mutatorName, String.toList_append, List.mem_append, List.mem_append]
  exact ⟨not_or.mpr ⟨hset.1, h.plain_field.1⟩, not_or.mpr ⟨hset.2, h.plain_field.2⟩⟩

theorem Named.plain_of_mem_nameIssuesFrom (h : s.Named) {seen fresh : List Name}
    {ds : List SubField} (hseen : ∀ n ∈ seen, n.Plain) (hfresh : ∀ n ∈ fresh, n.Plain)
    (hds : ∀ p ∈ ds, p.name.Plain) (hd : d ∈ s.nameIssuesFrom seen fresh ds) : d.issue.Plain := by
  induction ds generalizing seen fresh with
  | nil => cases hd
  | cons p ds ih =>
    obtain ⟨hp, hds⟩ := List.forall_mem_cons.mp hds
    have hseen' := List.forall_mem_cons.mpr ⟨hp, hseen⟩
    have hfresh' := List.forall_mem_cons.mpr ⟨hp, hfresh⟩
    rw [nameIssuesFrom] at hd
    split at hd
    · next first hfirst =>
      rcases List.mem_cons.mp hd with rfl | hd
      · exact ⟨hp, h.plain_field, hseen first (List.mem_of_find?_eq_some hfirst)⟩
      · exact ih hseen' hfresh hds hd
    · rcases List.mem_append.mp hd with hd | hd
      · rcases s.mem_freshNameIssues_cases hd with ⟨first, hfirst, rfl⟩ | rfl | rfl
        · exact ⟨hfresh first hfirst, hp⟩
        · exact ⟨hp, h.plain_mutatorName⟩
        · exact ⟨hp, h.plain_field⟩
      · exact ih hseen' hfresh' hds hd

/-! ## Complaints about fields and about sub-fields -/

/-- What is wrong with a field as a whole. -/
def fieldIssues (s : Schema) : List Diagnostic :=
  s.sharingIssues ++
    if s.subFields.isEmpty then [⟨.noSubFields s.field, s.place⟩] else s.capacityIssues

/-- What is wrong with the widths and the names of sub-fields. -/
def partIssues (s : Schema) : List Diagnostic := s.subFields.flatMap widthIssues ++ s.nameIssues

theorem ownIssues_eq_append (s : Schema) : s.ownIssues = s.fieldIssues ++ s.partIssues := by
  rw [ownIssues, fieldIssues, partIssues, subFieldIssues, List.append_assoc]
  split_ifs with hempty
  · rw [nameIssues, List.isEmpty_iff.mp hempty, List.flatMap_nil, nameIssuesFrom, List.append_nil,
      List.append_nil]
  · rw [List.append_assoc]

theorem field?_of_mem_fieldIssues (h : d ∈ s.fieldIssues) : d.issue.field? = some s.field := by
  rw [fieldIssues, List.mem_append] at h
  rcases h with h | h
  · rw [sharingIssues] at h
    split_ifs at h
    · rw [List.mem_singleton.mp h]
      rfl
    · cases h
  · split_ifs at h
    · rw [List.mem_singleton.mp h]
      rfl
    · rw [capacityIssues] at h
      split at h
      · rw [List.mem_singleton.mp h]
        rfl
      · cases h

theorem code_of_mem_partIssues (h : d ∈ s.partIssues) :
    d.code = .width ∨ d.code = .duplicateName := by
  rcases List.mem_append.mp h with h | h
  · obtain ⟨p, -, h⟩ := List.mem_flatMap.mp h
    exact Or.inl (code_of_mem_widthIssues h)
  · exact Or.inr (code_of_mem_nameIssuesFrom h)

theorem field?_of_mem_partIssues (h : d ∈ s.partIssues) : d.issue.field? = none := by
  have hcode := code_of_mem_partIssues h
  rw [Diagnostic.code] at hcode
  cases hissue : d.issue <;> simp [hissue, Issue.code, Issue.field?] at hcode ⊢

/-- A field has no two complaints about it as a whole. -/
theorem nodup_map_issue_fieldIssues (s : Schema) : (s.fieldIssues.map (·.issue)).Nodup := by
  rw [fieldIssues, sharingIssues, capacityIssues]
  split_ifs
  · simp
  · split <;> simp
  · simp
  · split <;> simp

theorem Named.plain_of_mem_ownIssues (h : s.Named) (hd : d ∈ s.ownIssues) : d.issue.Plain := by
  rw [ownIssues_eq_append, List.mem_append] at hd
  rcases hd with hd | hd
  · rw [fieldIssues, List.mem_append] at hd
    rcases hd with hd | hd
    · rw [sharingIssues] at hd
      split_ifs at hd
      · rw [List.mem_singleton.mp hd]
        exact h.plain_field
      · cases hd
    · split_ifs at hd
      · rw [List.mem_singleton.mp hd]
        exact h.plain_field
      · rw [capacityIssues] at hd
        split at hd
        · next first hfirst =>
          rw [List.mem_singleton.mp hd]
          have hslot := List.mem_of_find?_eq_some hfirst
          exact ⟨h.plain_field, h.plain_name (subField_mem_of_mem_allocateFrom hslot)⟩
        · cases hd
  · rcases List.mem_append.mp hd with hd | hd
    · obtain ⟨p, hp, hd⟩ := List.mem_flatMap.mp hd
      rw [widthIssues] at hd
      split at hd
      · cases hd
      · split_ifs at hd
        · rw [List.mem_singleton.mp hd]
          exact h.plain_name hp
        · rw [List.mem_singleton.mp hd]
          exact h.plain_name hp
        · cases hd
    · exact h.plain_of_mem_nameIssuesFrom (fun _ hn => absurd hn List.not_mem_nil)
        (fun _ hn => absurd hn List.not_mem_nil) (fun _ hp => h.plain_name hp) hd

/-! ## Complaints of several schemas -/

variable {schemas : List Schema}

theorem plain_of_mem_flatMap {f : Schema → List Diagnostic} (hf : ∀ s, f s ⊆ s.ownIssues)
    (hnamed : ∀ s ∈ schemas, s.Named) : ∀ d ∈ schemas.flatMap f, d.issue.Plain := by
  intro d hd
  obtain ⟨s, hs, hd⟩ := List.mem_flatMap.mp hd
  exact (hnamed s hs).plain_of_mem_ownIssues (hf s hd)

theorem map_issue_ownIssues_perm (schemas : List Schema) :
    ((schemas.flatMap ownIssues).map (·.issue)).Perm
      ((schemas.flatMap fieldIssues).map (·.issue) ++
        (schemas.flatMap partIssues).map (·.issue)) := by
  have hperm := List.flatMap_append_perm schemas fieldIssues partIssues
  have hown : schemas.flatMap ownIssues =
      schemas.flatMap fun s => s.fieldIssues ++ s.partIssues :=
    List.flatMap_congr fun s _ => s.ownIssues_eq_append
  rw [← List.map_append, hown]
  exact hperm.symm.map _

/-- What is wrong with fields as a whole is different for different fields. -/
theorem nodup_map_issue_flatMap_fieldIssues (hfields : (schemas.map (·.field)).Nodup) :
    ((schemas.flatMap fieldIssues).map (·.issue)).Nodup := by
  rw [List.map_flatMap, List.nodup_flatMap]
  refine ⟨fun s _ => s.nodup_map_issue_fieldIssues, ?_⟩
  refine (List.pairwise_map.mp hfields).imp fun hne i hi hj => ?_
  obtain ⟨d, hd, rfl⟩ := List.mem_map.mp hi
  obtain ⟨e, he, hissue⟩ := List.mem_map.mp hj
  have hsame := field?_of_mem_fieldIssues he
  rw [hissue, field?_of_mem_fieldIssues hd] at hsame
  exact hne (Option.some.inj hsame)

/-- No issue comes up twice among the complaints of schemas just in case none does among those
about sub-fields. -/
theorem nodup_map_issue_flatMap_ownIssues_iff (hfields : (schemas.map (·.field)).Nodup) :
    ((schemas.flatMap ownIssues).map (·.issue)).Nodup ↔
      ((schemas.flatMap partIssues).map (·.issue)).Nodup := by
  rw [(map_issue_ownIssues_perm schemas).nodup_iff, List.nodup_append']
  have hdisjoint : List.Disjoint ((schemas.flatMap fieldIssues).map (·.issue))
      ((schemas.flatMap partIssues).map (·.issue)) := by
    intro i hi hj
    obtain ⟨d, hd, rfl⟩ := List.mem_map.mp hi
    obtain ⟨e, he, hissue⟩ := List.mem_map.mp hj
    obtain ⟨s, -, hd⟩ := List.mem_flatMap.mp hd
    obtain ⟨t, -, he⟩ := List.mem_flatMap.mp he
    have hnone := field?_of_mem_partIssues he
    rw [hissue, field?_of_mem_fieldIssues hd] at hnone
    cases hnone
  exact ⟨fun h => h.2.1, fun h => ⟨nodup_map_issue_flatMap_fieldIssues hfields, h, hdisjoint⟩⟩

end Schema

namespace Container

variable {schemas : List Schema} {r : IssueCode × String}

/-- What is wrong with a field as a whole is not found in another one. -/
theorem times_ownIssues_le_one (hfields : (schemas.map (·.field)).Nodup)
    (hnamed : ∀ s ∈ schemas, s.Named) (hwidth : r.1 ≠ .width) (hname : r.1 ≠ .duplicateName) :
    Diagnostic.times r (schemas.flatMap Schema.ownIssues) ≤ 1 := by
  have hown : ∀ s : Schema, Diagnostic.times r s.ownIssues = Diagnostic.times r s.fieldIssues := by
    intro s
    have hparts : Diagnostic.times r s.partIssues = 0 := by
      refine Diagnostic.times_eq_zero fun d hd hcode => ?_
      rcases Schema.code_of_mem_partIssues hd with h | h
      · exact hwidth (hcode ▸ h)
      · exact hname (hcode ▸ h)
    rw [s.ownIssues_eq_append, Diagnostic.times_append, hparts, Nat.add_zero]
  have hsub : ∀ s : Schema, s.fieldIssues ⊆ s.ownIssues := by
    intro s
    rw [s.ownIssues_eq_append]
    exact List.subset_append_left _ _
  have hnodup := (Diagnostic.nodup_map_key_iff (Schema.plain_of_mem_flatMap hsub hnamed)).mpr
    (Schema.nodup_map_issue_flatMap_fieldIssues hfields)
  rw [Diagnostic.times_flatMap]
  simp only [hown]
  rw [← Diagnostic.times_flatMap]
  exact List.nodup_iff_count_le_one.mp hnodup r

/-- A run over the schemas of a container reports what is wrong with the container exactly once, and
what is wrong with fields as a whole as often as it was found. All else it reports as often as it
was found just in case no two sub-fields, of one field or of two, have the same wrong with their
widths or names; then it reports everything, in order and in its place. -/
theorem generate_loses_nothing_iff (c : Container) (crate : Path) (schemas : List Schema)
    (hne : schemas ≠ []) (hover : ∀ s ∈ schemas, s.container = c)
    (hfields : (schemas.map (·.field)).Nodup) (hnamed : ∀ s ∈ schemas, s.Named) :
    let reported := (c.generate crate schemas).diagnostics
    (∀ d ∈ c.issues, d ∈ reported ∧ Diagnostic.times d.key reported = 1) ∧
    (∀ r, r.1.ofContainer = false → r.1 ≠ .width → r.1 ≠ .duplicateName →
      Diagnostic.times r reported = found r schemas) ∧
    ((∀ r, r.1.ofContainer = false → Diagnostic.times r reported = found r schemas) ↔
      ((schemas.flatMap Schema.partIssues).map (·.issue)).Nodup) ∧
    (((schemas.flatMap Schema.partIssues).map (·.issue)).Nodup →
      reported = c.issues ++ schemas.flatMap Schema.ownIssues) := by
  intro reported
  have hplain := Schema.plain_of_mem_flatMap (fun s => List.Subset.refl s.ownIssues) hnamed
  rw [← Schema.nodup_map_issue_flatMap_ownIssues_iff hfields,
    ← Diagnostic.nodup_map_key_iff hplain]
  refine ⟨fun d hd => times_generate_of_mem_issues crate hne hover hd, ?_,
    times_generate_eq_found_iff crate hne hover, ?_⟩
  · intro r hr hwidth hname
    have hle := times_ownIssues_le_one hfields hnamed hwidth hname
    rw [← found_eq schemas hr] at hle
    exact (times_generate crate hne hover hr).trans (Nat.min_eq_right hle)
  · intro hnodup
    exact (diagnostics_generate crate hne hover).trans (by rw [Diagnostic.distinct_eq_self hnodup])

/-- Two bytes, each with a sub-field that has no bits, and both sub-fields of the same name. -/
def twins : List Schema :=
  [Sample.field "Data" ⟨"i", false⟩ (Sample.u .w8) [Sample.part (Sample.u .w8) 0 "A"],
    Sample.field "Data" ⟨"j", false⟩ (Sample.u .w8) [Sample.part (Sample.u .w8) 0 "A"]]

/-- What is wrong with the second byte is lost. -/
theorem twins_lose_one :
    (∀ s ∈ twins, s.container = Sample.container "Data") ∧ (twins.map (·.field)).Nodup ∧
      found (.width, "`A` is 0 bits wide") twins = 2 ∧
      Diagnostic.times (.width, "`A` is 0 bits wide")
        ((Sample.container "Data").generate default twins).diagnostics = 1 := by
  refine ⟨?_, by decide, by decide, by decide⟩
  exact List.forall_mem_cons.mpr ⟨rfl, List.forall_mem_singleton.mpr rfl⟩

/-- A container that cannot get members. -/
def sealedContainer : Container := { Sample.container "Data" with extensible := false }

/-- A byte that overflows, and another with a sub-field that has no bits and one of the same name
that is too wide. -/
def troubled : List Schema :=
  [{ Sample.field "Data" ⟨"i", false⟩ (Sample.u .w8) [Sample.part (Sample.u .w16) 9 "A"] with
      container := sealedContainer },
    { Sample.field "Data" ⟨"j", false⟩ (Sample.u .w8)
        [Sample.part (Sample.u .w8) 0 "A", Sample.part (Sample.i .w16) 17 "A"] with
      container := sealedContainer }]

theorem troubled_loses_nothing :
    (∀ s ∈ troubled, s.container = sealedContainer) ∧ (troubled.map (·.field)).Nodup ∧
      (∀ s ∈ troubled, s.Named) ∧
      (sealedContainer.generate default troubled).diagnostics =
        sealedContainer.issues ++ troubled.flatMap Schema.ownIssues ∧
      (sealedContainer.generate default troubled).diagnostics.map (·.code) =
        [.extensibility, .capacity, .capacity, .width, .width, .duplicateName] := by
  have hover : ∀ s ∈ troubled, s.container = sealedContainer :=
    List.forall_mem_cons.mpr ⟨rfl, List.forall_mem_singleton.mpr rfl⟩
  have hfields : (troubled.map (·.field)).Nodup := by decide
  have hnamed : ∀ s ∈ troubled, s.Named := by decide
  obtain ⟨-, -, -, hall⟩ := generate_loses_nothing_iff sealedContainer default troubled
    (List.cons_ne_nil _ _) hover hfields hnamed
  have hreported := hall (by decide)
  refine ⟨hover, hfields, hnamed, hreported, ?_⟩
  rw [hreported]
  decide

end Container

end PackedFields
