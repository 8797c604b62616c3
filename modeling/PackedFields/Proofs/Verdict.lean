import PackedFields.Proofs.Acceptance
import PackedFields.Proofs.Reports

/-!
# What validation complains about

Each code stands for one condition on a schema (`Schema.Offends`), said of the declarations as they
are: of the sum of all widths, of each width, and of pairs of names. Validation complains under a
code just in case the schema meets the condition of the code, whatever else is wrong with it, and
orders its complaints by their codes. It accepts a schema that meets none of the conditions.
-/

namespace PackedFields

/-- The place of a code among the complaints about one schema. -/
def IssueCode.rank : IssueCode → Nat
  | accessibility => 0
  | extensibility => 1
  | sharedBacking => 2
  | nothingDeclared => 3
  | capacity => 4
  | width => 5
  | duplicateName => 6

/-- Whether a sub-field is an integer that has no bits, or more than its type. -/
def SubField.Misfits (d : SubField) : Prop :=
  match d.kind with
  | .bool => False
  | .int t => d.width = 0 ∨ t.bits < d.width

/-- There is no atomic counterpart of just the widest types. -/
theorem IntType.atomic?_eq_none_iff (t : IntType) : t.atomic? = none ↔ t.bits = 128 := by
  obtain ⟨signed, size⟩ := t
  cases size <;> simp [atomic?, bits, IntSize.bits]

namespace Diagnostic

variable {ds : List Diagnostic} {k : IssueCode}

/-- Complaints that all have one code are complaints under that code, if there are any. -/
theorem mem_map_code_iff (hds : ∀ d ∈ ds, d.code = k) (c : IssueCode) :
    c ∈ ds.map code ↔ c = k ∧ ds ≠ [] := by
  constructor
  · intro hc
    obtain ⟨d, hd, rfl⟩ := List.mem_map.mp hc
    exact ⟨hds d hd, List.ne_nil_of_mem hd⟩
  · rintro ⟨rfl, hne⟩
    obtain ⟨d, hd⟩ := List.exists_mem_of_ne_nil ds hne
    exact List.mem_map.mpr ⟨d, hd, hds d hd⟩

/-- Whether complaints are ordered by their codes. -/
def Ordered (ds : List Diagnostic) : Prop := ds.Pairwise fun a b => a.code.rank ≤ b.code.rank

theorem ordered_of_code (hds : ∀ d ∈ ds, d.code = k) : Ordered ds := by
  refine List.pairwise_of_forall_mem_list fun a ha b hb => ?_
  rw [hds a ha, hds b hb]

/-- Complaints up to some place in the order can stand before those from there on. -/
theorem ordered_append (n : Nat) {es : List Diagnostic} (hds : Ordered ds) (hes : Ordered es)
    (hle : ∀ d ∈ ds, d.code.rank ≤ n) (hge : ∀ e ∈ es, n ≤ e.code.rank) : Ordered (ds ++ es) :=
  List.pairwise_append.mpr ⟨hds, hes, fun d hd e he => (hle d hd).trans (hge e he)⟩

end Diagnostic

/-! ## Containers -/

theorem Container.mem_codes_issues_iff (c : Container) (k : IssueCode) :
    k ∈ c.issues.map Diagnostic.code ↔
      (k = .accessibility ∧ c.visibility.access? = none) ∨
        (k = .extensibility ∧ c.extensible = false) := by
  cases hv : c.visibility <;> cases he : c.extensible <;>
    simp [Container.issues, Visibility.access?, Diagnostic.code, Issue.code, hv, he]

theorem Container.ordered_issues (c : Container) : Diagnostic.Ordered c.issues := by
  rw [Diagnostic.Ordered]
  cases hv : c.visibility <;> cases he : c.extensible <;>
    simp [Container.issues, Diagnostic.code, Issue.code, IssueCode.rank, hv, he]

theorem Container.rank_of_mem_issues {c : Container} {d : Diagnostic} (h : d ∈ c.issues) :
    d.code.rank ≤ 1 := by
  have hof := ofContainer_of_mem_issues h
  cases hcode : d.code <;> simp [hcode, IssueCode.ofContainer, IssueCode.rank] at hof ⊢

namespace Schema

/-! ## Conditions on schemas -/

/-- Whether the name of some sub-field is taken: by another sub-field, be it for itself or for its
parameter, by the mutator, or by a shared field. -/
def NameTaken (s : Schema) : Prop :=
  (∃ i j : Fin s.subFields.length, i < j ∧ s.subFields[i].name.Clash s.subFields[j].name) ∨
    (∃ d ∈ s.subFields, d.name.text = "set_" ++ s.field.text) ∨
    (s.shared ∧ ∃ d ∈ s.subFields, d.name.text = s.field.text)

/-- What is wrong with a schema if there is a complaint about it under a code. -/
def Offends (s : Schema) : IssueCode → Prop
  | .accessibility => s.container.visibility.access? = none
  | .extensibility => s.container.extensible = false
  | .sharedBacking => s.shared ∧ s.backing.bits = 128
  | .nothingDeclared => s.subFields = []
  | .capacity => s.subFields ≠ [] ∧ s.backing.bits < (s.subFields.map (·.bits)).sum
  | .width => s.subFields ≠ [] ∧ ∃ d ∈ s.subFields, d.Misfits
  | .duplicateName => s.subFields ≠ [] ∧ s.NameTaken

variable (s : Schema)

/-! ## When a check finds something -/

theorem sharingIssues_ne_nil_iff : s.sharingIssues ≠ [] ↔ s.shared ∧ s.backing.bits = 128 := by
  rw [ne_eq, sharingIssues_eq_nil_iff, ← s.backing.atomic?_eq_none_iff]
  cases s.shared <;> simp

theorem capacityIssues_ne_nil_iff :
    s.capacityIssues ≠ [] ↔ s.backing.bits < (s.subFields.map (·.bits)).sum := by
  rw [ne_eq, capacityIssues_eq_nil_iff, not_le, totalBits_eq_sum]

theorem widthIssues_ne_nil_iff (d : SubField) : widthIssues d ≠ [] ↔ d.Misfits := by
  rw [ne_eq, widthIssues_eq_nil_iff, SubField.Misfits]
  cases d.kind with
  | bool => simp
  | int t =>
    simp only [Kind.int.injEq, forall_eq']
    omega

theorem nameIssues_ne_nil_iff : s.nameIssues ≠ [] ↔ s.NameTaken := by
  have hpairs : s.subFields.Pairwise (fun a b => ¬ a.name.Clash b.name) ↔
      ∀ i j : Fin s.subFields.length, i < j →
        ¬ s.subFields[i].name.Clash s.subFields[j].name := by
    rw [List.pairwise_iff_get]
    rfl
  rw [ne_eq, nameIssues, nameIssuesFrom_eq_nil_iff, hpairs, NameTaken]
  simp only [List.not_mem_nil, false_implies, implies_true, true_and, mutatorName, forall_and]
  constructor
  · intro h
    by_contra hnone
    push Not at hnone
    obtain ⟨hpair, hset, hfield⟩ := hnone
    exact h ⟨hpair, hset, fun d hd hs => hfield hs d hd⟩
  · rintro (⟨i, j, hij, hclash⟩ | ⟨d, hd, hname⟩ | ⟨hs, d, hd, hname⟩) ⟨hpair, hset, hfield⟩
    · exact hpair i j hij hclash
    · exact hset d hd hname
    · exact hfield d hd hs hname

/-! ## The codes of all complaints -/

theorem code_of_mem_flatMap_widthIssues {ds : List SubField} {d : Diagnostic}
    (h : d ∈ ds.flatMap widthIssues) : d.code = .width := by
  obtain ⟨p, -, hd⟩ := List.mem_flatMap.mp h
  exact code_of_mem_widthIssues hd

theorem code_of_mem_nameIssues {s : Schema} {d : Diagnostic} (h : d ∈ s.nameIssues) :
    d.code = .duplicateName := code_of_mem_nameIssuesFrom h

theorem mem_codes_subFieldIssues_iff (c : IssueCode) :
    c ∈ s.subFieldIssues.map Diagnostic.code ↔
      if s.subFields = [] then c = .nothingDeclared
      else (c = .capacity ∧ s.Offends .capacity) ∨ (c = .width ∧ s.Offends .width) ∨
        (c = .duplicateName ∧ s.Offends .duplicateName) := by
  have hwidths : s.subFields.flatMap widthIssues ≠ [] ↔ ∃ d ∈ s.subFields, d.Misfits := by
    simp only [ne_eq, List.flatMap_eq_nil_iff, not_forall, exists_prop]
    exact exists_congr fun d => and_congr_right fun _ => widthIssues_ne_nil_iff d
  rw [subFieldIssues]
  by_cases hempty : s.subFields = []
  · rw [if_pos (List.isEmpty_iff.mpr hempty), if_pos hempty]
    exact List.mem_singleton
  · rw [if_neg fun h => hempty (List.isEmpty_iff.mp h), if_neg hempty, List.map_append,
      List.map_append, List.mem_append, List.mem_append, or_assoc,
      Diagnostic.mem_map_code_iff fun _ => code_of_mem_capacityIssues,
      Diagnostic.mem_map_code_iff fun _ => code_of_mem_flatMap_widthIssues,
      Diagnostic.mem_map_code_iff fun _ => code_of_mem_nameIssues,
      capacityIssues_ne_nil_iff, hwidths, nameIssues_ne_nil_iff]
    simp only [Offends, hempty, ne_eq, not_false_eq_true, true_and]

theorem mem_codes_validate_iff_offends (c : IssueCode) :
    c ∈ s.validate.map Diagnostic.code ↔ s.Offends c := by
  rw [validate, List.map_append, List.map_append, List.mem_append, List.mem_append,
    Container.mem_codes_issues_iff, Diagnostic.mem_map_code_iff fun _ => code_of_mem_sharingIssues,
    sharingIssues_ne_nil_iff, mem_codes_subFieldIssues_iff]
  by_cases hempty : s.subFields = []
  · cases c <;> simp [Offends, hempty]
  · cases c <;> simp [Offends, hempty]

theorem rank_of_mem_subFieldIssues {d : Diagnostic} (h : d ∈ s.subFieldIssues) :
    3 ≤ d.code.rank := by
  have hcode := (s.mem_codes_subFieldIssues_iff d.code).mp (List.mem_map_of_mem h)
  split_ifs at hcode
  · rw [hcode]
    decide
  · rcases hcode with ⟨hcode, -⟩ | ⟨hcode, -⟩ | ⟨hcode, -⟩ <;> rw [hcode] <;> decide

theorem ordered_subFieldIssues : Diagnostic.Ordered s.subFieldIssues := by
  have hcapacity : ∀ d ∈ s.capacityIssues, d.code = .capacity := fun _ =>
    code_of_mem_capacityIssues
  have hwidths : ∀ d ∈ s.subFields.flatMap widthIssues, d.code = .width := fun _ =>
    code_of_mem_flatMap_widthIssues
  have hnames : ∀ d ∈ s.nameIssues, d.code = .duplicateName := fun _ => code_of_mem_nameIssues
  rw [subFieldIssues]
  split
  · exact List.pairwise_singleton _ _
  · refine Diagnostic.ordered_append IssueCode.width.rank ?_
      (Diagnostic.ordered_of_code hnames) ?_ ?_
    · refine Diagnostic.ordered_append IssueCode.capacity.rank
        (Diagnostic.ordered_of_code hcapacity) (Diagnostic.ordered_of_code hwidths) ?_ ?_
      · intro d hd
        rw [hcapacity d hd]
      · intro d hd
        rw [hwidths d hd]
        decide
    · intro d hd
      rcases List.mem_append.mp hd with hd | hd
      · rw [hcapacity d hd]
        decide
      · rw [hwidths d hd]
    · intro d hd
      rw [hnames d hd]
      decide

theorem ordered_validate : Diagnostic.Ordered s.validate := by
  have hsharing : ∀ d ∈ s.sharingIssues, d.code = .sharedBacking := fun _ =>
    code_of_mem_sharingIssues
  rw [validate]
  refine Diagnostic.ordered_append IssueCode.sharedBacking.rank ?_ s.ordered_subFieldIssues ?_ ?_
  · refine Diagnostic.ordered_append IssueCode.sharedBacking.rank s.container.ordered_issues
      (Diagnostic.ordered_of_code hsharing) ?_ ?_
    · intro d hd
      exact (Container.rank_of_mem_issues hd).trans (by decide)
    · intro d hd
      rw [hsharing d hd]
  · intro d hd
    rcases List.mem_append.mp hd with hd | hd
    · exact (Container.rank_of_mem_issues hd).trans (by decide)
    · rw [hsharing d hd]
  · intro d hd
    exact le_trans (by decide) (s.rank_of_mem_subFieldIssues hd)

/-- Validation complains under a code just in case the schema meets the condition of the code. Its
complaints come in the order of their codes, and it has none just in case the schema meets none of
the conditions. -/
theorem validate_decides_conditions (s : Schema) :
    (∀ c, c ∈ s.validate.map Diagnostic.code ↔ s.Offends c) ∧
      s.validate.Pairwise (fun a b => a.code.rank ≤ b.code.rank) ∧
      (s.validate = [] ↔ ∀ c, ¬ s.Offends c) := by
  refine ⟨s.mem_codes_validate_iff_offends, s.ordered_validate, ?_⟩
  rw [← List.map_eq_nil_iff (f := Diagnostic.code), List.eq_nil_iff_forall_not_mem]
  exact forall_congr' fun c => not_congr (s.mem_codes_validate_iff_offends c)

/-- A shared field with everything wrong that can be wrong at once. -/
def hopeless : Schema :=
  { Sample.sharedField "Data" ⟨"i", false⟩ (Sample.i .w128)
      [Sample.part (Sample.u .w8) 0 "A", Sample.part (Sample.u .w8) 200 "A"] with
    container := { Sample.container "Data" with
      visibility := .unrecognized "pub (in a)", extensible := false } }

example : hopeless.validate.map (·.code) =
    [.accessibility, .extensibility, .sharedBacking, .capacity, .width, .width,
      .duplicateName] := by
  decide

end Schema

end PackedFields
