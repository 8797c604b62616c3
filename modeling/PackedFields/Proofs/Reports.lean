import PackedFields.Proofs.Members
import PackedFields.Session

/-!
# What a run over a container reports

A schema complains about its container and, on its own account, about its sharing and its
sub-fields. A run over the schemas of one container reports the complaints about the container once
and after them those of the schemas in order, less all that read like an earlier one
(`Container.diagnostics_generate`). The complaints about the container are told apart from all
others by their codes. The others are not told apart by what they say: two of them that have the
same code and the same wording are taken for one, also if they are about different sub-fields.
-/

namespace PackedFields

namespace Diagnostic

/-- What a diagnostic tells its reader, apart from the place. -/
def key (d : Diagnostic) : IssueCode × String := (d.code, d.message)

/-- How many of the diagnostics have the key `r`. -/
def times (r : IssueCode × String) (ds : List Diagnostic) : Nat := (ds.map key).count r

/-! ## Diagnostics without repetitions -/

theorem distinct_cons_of_mem {seen : List (IssueCode × String)} {d : Diagnostic}
    (h : d.key ∈ seen) (ds : List Diagnostic) : distinct seen (d :: ds) = distinct seen ds := by
  rw [distinct]
  exact if_pos (List.contains_iff_mem.mpr h)

theorem distinct_cons_of_not_mem {seen : List (IssueCode × String)} {d : Diagnostic}
    (h : d.key ∉ seen) (ds : List Diagnostic) :
    distinct seen (d :: ds) = d :: distinct (d.key :: seen) ds := by
  rw [distinct]
  exact if_neg fun hmem => h (List.contains_iff_mem.mp hmem)

/-- What has been seen may as well be taken out beforehand. -/
theorem distinct_append_seen (seen known : List (IssueCode × String)) (ds : List Diagnostic) :
    distinct (seen ++ known) ds = distinct seen (ds.filter fun d => d.key ∉ known) := by
  induction ds generalizing seen with
  | nil => rfl
  | cons d ds ih =>
    by_cases hknown : d.key ∈ known
    · rw [distinct_cons_of_mem (List.mem_append_right _ hknown), ih,
        List.filter_cons_of_neg (by simpa using hknown)]
    · rw [List.filter_cons_of_pos (by simpa using hknown)]
      by_cases hseen : d.key ∈ seen
      · rw [distinct_cons_of_mem (List.mem_append_left _ hseen), distinct_cons_of_mem hseen, ih]
      · have hnew : d.key ∉ seen ++ known := fun hmem =>
          (List.mem_append.mp hmem).elim hseen hknown
        rw [distinct_cons_of_not_mem hnew, distinct_cons_of_not_mem hseen, ← List.cons_append, ih]

/-- Diagnostics that are all new stay as they are. -/
theorem distinct_append_of_nodup {seen : List (IssueCode × String)} {ds : List Diagnostic}
    (hnodup : (ds.map key).Nodup) (hnew : ∀ d ∈ ds, d.key ∉ seen) (es : List Diagnostic) :
    distinct seen (ds ++ es) = ds ++ distinct ((ds.map key).reverse ++ seen) es := by
  induction ds generalizing seen with
  | nil => rfl
  | cons d ds ih =>
    obtain ⟨hd, hds⟩ := List.nodup_cons.mp hnodup
    obtain ⟨hdnew, hdsnew⟩ := List.forall_mem_cons.mp hnew
    have hrest : ∀ e ∈ ds, e.key ∉ d.key :: seen := by
      intro e he hmem
      rcases List.mem_cons.mp hmem with heq | hmem
      · exact hd (heq ▸ List.mem_map_of_mem he)
      · exact hdsnew e he hmem
    rw [List.cons_append, distinct_cons_of_not_mem hdnew, ih hds hrest, List.map_cons,
      List.reverse_cons, List.append_assoc, List.cons_append, List.singleton_append]

theorem distinct_eq_self {ds : List Diagnostic} (h : (ds.map key).Nodup) :
    distinct [] ds = ds := by
  have hself := distinct_append_of_nodup h (fun d _ => List.not_mem_nil) []
  rwa [List.append_nil, distinct, List.append_nil] at hself

theorem times_cons_self (d : Diagnostic) (ds : List Diagnostic) :
    times d.key (d :: ds) = times d.key ds + 1 := by
  rw [times, List.map_cons, List.count_cons_self, times]

theorem times_cons_of_ne {r : IssueCode × String} {d : Diagnostic} (h : d.key ≠ r)
    (ds : List Diagnostic) : times r (d :: ds) = times r ds := by
  rw [times, List.map_cons, List.count_cons_of_ne h, times]

theorem times_append (r : IssueCode × String) (ds es : List Diagnostic) :
    times r (ds ++ es) = times r ds + times r es := by
  rw [times, List.map_append, List.count_append, times, times]

theorem times_flatMap {α : Type} (r : IssueCode × String) (as : List α) (f : α → List Diagnostic) :
    times r (as.flatMap f) = (as.map fun a => times r (f a)).sum := by
  rw [times, List.map_flatMap, List.count_flatMap]
  rfl

theorem times_eq_zero {r : IssueCode × String} {ds : List Diagnostic}
    (h : ∀ d ∈ ds, d.code ≠ r.1) : times r ds = 0 := by
  rw [times, List.count_eq_zero]
  intro hmem
  obtain ⟨d, hd, heq⟩ := List.mem_map.mp hmem
  exact h d hd (congrArg Prod.fst heq)

/-- Of all diagnostics that read the same, one is kept. -/
theorem times_distinct (r : IssueCode × String) (seen : List (IssueCode × String))
    (ds : List Diagnostic) :
    times r (distinct seen ds) = if r ∈ seen then 0 else min 1 (times r ds) := by
  induction ds generalizing seen with
  | nil => simp [distinct, times]
  | cons d ds ih =>
    by_cases hseen : d.key ∈ seen
    · rw [distinct_cons_of_mem hseen, ih]
      split_ifs with hr
      · rfl
      · have hne : d.key ≠ r := fun heq => hr (heq ▸ hseen)
        rw [times_cons_of_ne hne]
    · rw [distinct_cons_of_not_mem hseen]
      by_cases heq : d.key = r
      · subst heq
        rw [times_cons_self, times_cons_self, ih, if_pos List.mem_cons_self, if_neg hseen]
        omega
      · have hmem : r ∈ d.key :: seen ↔ r ∈ seen := by
          rw [List.mem_cons]
          exact or_iff_right fun h => heq h.symm
        rw [times_cons_of_ne heq, times_cons_of_ne heq, ih]
        simp only [hmem]

end Diagnostic

/-! ## What a schema complains about on its own account -/

/-- Whether issues under a code are found in a container, whatever its fields are. -/
def IssueCode.ofContainer : IssueCode → Bool
  | accessibility => true
  | extensibility => true
  | _ => false

theorem Container.ofContainer_of_mem_issues {c : Container} {d : Diagnostic} (h : d ∈ c.issues) :
    d.code.ofContainer = true := by
  rcases List.mem_append.mp h with h | h
  · cases hvis : c.visibility with
    | known a => simp [hvis] at h
    | unrecognized text =>
      rw [hvis] at h
      rw [List.mem_singleton.mp h]
      rfl
  · split at h
    · cases h
    · rw [List.mem_singleton.mp h]
      rfl

/-- The complaints about a container read differently. -/
theorem Container.nodup_map_key_issues (c : Container) :
    (c.issues.map Diagnostic.key).Nodup := by
  rw [issues]
  cases c.visibility <;> cases c.extensible <;>
    simp [Diagnostic.key, Diagnostic.code, Issue.code]

namespace Schema

variable {s : Schema} {d : Diagnostic}

/-- What is wrong with a schema apart from its container. -/
def ownIssues (s : Schema) : List Diagnostic := s.sharingIssues ++ s.subFieldIssues

theorem validate_eq_append (s : Schema) : s.validate = s.container.issues ++ s.ownIssues :=
  List.append_assoc _ _ _

theorem code_of_mem_sharingIssues (h : d ∈ s.sharingIssues) : d.code = .sharedBacking := by
  rw [sharingIssues] at h
  split at h
  · rw [List.mem_singleton.mp h]
    rfl
  · cases h

theorem code_of_mem_capacityIssues (h : d ∈ s.capacityIssues) : d.code = .capacity := by
  rw [capacityIssues] at h
  split at h
  · rw [List.mem_singleton.mp h]
    rfl
  · cases h

theorem code_of_mem_widthIssues {p : SubField} (h : d ∈ widthIssues p) : d.code = .width := by
  rw [widthIssues] at h
  split at h
  · cases h
  · split_ifs at h
    · rw [List.mem_singleton.mp h]
      rfl
    · rw [List.mem_singleton.mp h]
      rfl
    · cases h

theorem code_of_mem_freshNameIssues {before : List Name} {p : SubField}
    (h : d ∈ s.freshNameIssues before p) : d.code = .duplicateName := by
  rcases s.mem_freshNameIssues_cases h with ⟨first, -, rfl⟩ | rfl | rfl <;> rfl

theorem code_of_mem_nameIssuesFrom {seen fresh : List Name} {ds : List SubField}
    (h : d ∈ s.nameIssuesFrom seen fresh ds) : d.code = .duplicateName := by
  induction ds generalizing seen fresh with
  | nil => cases h
  | cons p ds ih =>
    rw [nameIssuesFrom] at h
    split at h
    · rcases List.mem_cons.mp h with rfl | h
      · rfl
      · exact ih h
    · rcases List.mem_append.mp h with h | h
      · exact code_of_mem_freshNameIssues h
      · exact ih h

/-- On its own account a schema complains that it has no sub-fields, or under one of four codes. -/
theorem mem_ownIssues_cases (h : d ∈ s.ownIssues) :
    d.issue = .noSubFields s.field ∨
      d.code ∈ [IssueCode.sharedBacking, .capacity, .width, .duplicateName] := by
  rw [ownIssues, List.mem_append, subFieldIssues] at h
  rcases h with h | h
  · simp [code_of_mem_sharingIssues h]
  · split_ifs at h
    · rw [List.mem_singleton.mp h]
      exact .inl rfl
    · rw [List.mem_append, List.mem_append] at h
      rcases h with (h | h) | h
      · simp [code_of_mem_capacityIssues h]
      · obtain ⟨p, -, h⟩ := List.mem_flatMap.mp h
        simp [code_of_mem_widthIssues h]
      · simp [code_of_mem_nameIssuesFrom h]

theorem ofContainer_of_mem_ownIssues (h : d ∈ s.ownIssues) : d.code.ofContainer = false := by
  rcases mem_ownIssues_cases h with hissue | hcode
  · rw [Diagnostic.code, hissue]
    rfl
  · have hall : ∀ code ∈ [IssueCode.sharedBacking, .capacity, .width, .duplicateName],
        code.ofContainer = false := by decide
    exact hall _ hcode

/-! ## Generation and validation -/

/-- An accepted schema has its members. -/
theorem generate_of_validate_eq_nil (h : s.validate = []) :
    ∃ output, s.generate = .ok output := by
  obtain ⟨block, hblock, -⟩ := (s.validate_eq_nil_iff.mp h).memberBlock_eq
  refine ⟨⟨s.field, block, s.layout, Diagram.docs s.backing s.slots⟩, ?_⟩
  rw [generate, h, hblock]
  rfl

/-- What validation has to say against a schema is what generation answers. -/
theorem generate_of_validate_ne_nil (h : s.validate ≠ []) : s.generate = .error s.validate := by
  rw [generate]
  exact if_neg fun hempty => h (List.isEmpty_iff.mp hempty)

theorem generate_eq_ok_iff {output : FieldOutput} :
    s.generate = .ok output ↔
      s.validate = [] ∧ ∃ block, s.memberBlock = .ok block ∧
        output = ⟨s.field, block, s.layout, Diagram.docs s.backing s.slots⟩ := by
  unfold generate
  by_cases h : s.validate = []
  · rw [h, if_pos (List.isEmpty_nil), eq_self_iff_true, true_and]
    cases s.memberBlock with
    | ok block => simp [eq_comm]
    | error d => simp
  · rw [if_neg (mt List.isEmpty_iff.mp h)]
    simp [h]

end Schema

namespace Container

theorem complaints_eq (schemas : List Schema) :
    complaints schemas = schemas.flatMap Schema.validate := by
  rw [complaints]
  refine List.flatMap_congr fun s _ => ?_
  by_cases h : s.validate = []
  · obtain ⟨output, houtput⟩ := Schema.generate_of_validate_eq_nil h
    rw [houtput, h]
  · rw [Schema.generate_of_validate_ne_nil h]

/-! ## Runs -/

variable {c : Container} {schemas : List Schema}

/-- Whether a diagnostic does not read like a complaint about the container. -/
def isNews (c : Container) (d : Diagnostic) : Bool :=
  d.key ∉ (c.issues.map Diagnostic.key).reverse

theorem filter_issues (c : Container) : c.issues.filter c.isNews = [] := by
  rw [List.filter_eq_nil_iff]
  intro d hd
  simpa [isNews] using ⟨d, hd, rfl⟩

/-- No schema reads like a complaint about the container on its own account. -/
theorem filter_ownIssues (c : Container) (s : Schema) :
    s.ownIssues.filter c.isNews = s.ownIssues := by
  rw [List.filter_eq_self]
  intro d hd
  have hown := Schema.ofContainer_of_mem_ownIssues hd
  simp only [isNews, List.mem_reverse, List.mem_map, decide_eq_true_eq]
  rintro ⟨e, he, heq⟩
  have hcode : e.code = d.code := congrArg Prod.fst heq
  rw [← hcode, ofContainer_of_mem_issues he] at hown
  cases hown

theorem filter_complaints (hover : ∀ s ∈ schemas, s.container = c) :
    (schemas.flatMap Schema.validate).filter c.isNews = schemas.flatMap Schema.ownIssues := by
  rw [List.filter_flatMap]
  refine List.flatMap_congr fun s hs => ?_
  rw [s.validate_eq_append, hover s hs, List.filter_append, filter_issues, filter_ownIssues,
    List.nil_append]

theorem diagnostics_generate_of_ne_nil (crate : Path) (hne : schemas ≠ []) :
    (c.generate crate schemas).diagnostics =
      Diagnostic.distinct [] (schemas.flatMap Schema.validate) := by
  rw [generate, if_neg (by simpa using hne), complaints_eq]

/-- A run reports what is wrong with the container once, and then what the schemas complain about on
their own account, without repetitions. -/
theorem diagnostics_generate (crate : Path) (hne : schemas ≠ [])
    (hover : ∀ s ∈ schemas, s.container = c) :
    (c.generate crate schemas).diagnostics =
      c.issues ++ Diagnostic.distinct [] (schemas.flatMap Schema.ownIssues) := by
  rw [diagnostics_generate_of_ne_nil crate hne]
  obtain ⟨s, rest, rfl⟩ := List.exists_cons_of_ne_nil hne
  obtain ⟨hs, hrest⟩ := List.forall_mem_cons.mp hover
  -- the first schema has all the complaints about the container, before its own
  rw [List.flatMap_cons, s.validate_eq_append, hs, List.append_assoc,
    Diagnostic.distinct_append_of_nodup c.nodup_map_key_issues fun d _ => List.not_mem_nil,
    List.append_nil]
  congr 1
  -- those of the schemas after it are known by then
  have hknown := Diagnostic.distinct_append_seen [] (c.issues.map Diagnostic.key).reverse
    (s.ownIssues ++ rest.flatMap Schema.validate)
  rw [List.nil_append] at hknown
  rw [hknown]
  change Diagnostic.distinct [] (List.filter c.isNews _) = _
  rw [List.filter_append, filter_ownIssues, filter_complaints hrest, List.flatMap_cons]

section Counts

variable {r : IssueCode × String}

/-- No complaint about the container reads like one about anything else. -/
theorem times_issues (hr : r.1.ofContainer = false) : Diagnostic.times r c.issues = 0 := by
  refine Diagnostic.times_eq_zero fun d hd hcode => ?_
  rw [← hcode, ofContainer_of_mem_issues hd] at hr
  cases hr

/-- On its own account no schema reads like a complaint about a container. -/
theorem times_ownIssues (schemas : List Schema) (hr : r.1.ofContainer = true) :
    Diagnostic.times r (schemas.flatMap Schema.ownIssues) = 0 := by
  refine Diagnostic.times_eq_zero fun d hd hcode => ?_
  obtain ⟨s, -, hd⟩ := List.mem_flatMap.mp hd
  rw [← hcode, Schema.ofContainer_of_mem_ownIssues hd] at hr
  cases hr

/-- How often `r` is found when each schema is validated on its own. -/
def found (r : IssueCode × String) (schemas : List Schema) : Nat :=
  (schemas.map fun s => Diagnostic.times r s.validate).sum

theorem found_eq (schemas : List Schema) (hr : r.1.ofContainer = false) :
    found r schemas = Diagnostic.times r (schemas.flatMap Schema.ownIssues) := by
  rw [found, Diagnostic.times_flatMap]
  congr 1
  refine List.map_congr_left fun s _ => ?_
  rw [s.validate_eq_append, Diagnostic.times_append, times_issues hr, Nat.zero_add]

/-- Whatever is found is reported once. -/
theorem times_generate (crate : Path) (hne : schemas ≠ []) (hover : ∀ s ∈ schemas, s.container = c)
    (hr : r.1.ofContainer = false) :
    Diagnostic.times r (c.generate crate schemas).diagnostics = min 1 (found r schemas) := by
  rw [diagnostics_generate crate hne hover, Diagnostic.times_append, times_issues hr,
    Diagnostic.times_distinct, if_neg List.not_mem_nil, Nat.zero_add, found_eq schemas hr]

/-- What is wrong with the container is reported exactly once. -/
theorem times_generate_of_mem_issues (crate : Path) (hne : schemas ≠ [])
    (hover : ∀ s ∈ schemas, s.container = c) {d : Diagnostic} (hd : d ∈ c.issues) :
    d ∈ (c.generate crate schemas).diagnostics ∧
      Diagnostic.times d.key (c.generate crate schemas).diagnostics = 1 := by
  rw [diagnostics_generate crate hne hover, Diagnostic.times_append, Diagnostic.times_distinct,
    if_neg List.not_mem_nil, times_ownIssues schemas (ofContainer_of_mem_issues hd)]
  refine ⟨List.mem_append_left _ hd, ?_⟩
  exact List.count_eq_one_of_mem c.nodup_map_key_issues (List.mem_map_of_mem hd)

/-- Nothing else gets lost just in case no two complaints of the schemas on their own account have
the same code and the same wording. -/
theorem times_generate_eq_found_iff (crate : Path) (hne : schemas ≠ [])
    (hover : ∀ s ∈ schemas, s.container = c) :
    (∀ r, r.1.ofContainer = false →
        Diagnostic.times r (c.generate crate schemas).diagnostics = found r schemas) ↔
      ((schemas.flatMap Schema.ownIssues).map Diagnostic.key).Nodup := by
  rw [List.nodup_iff_count_le_one]
  constructor
  · intro hall r
    change Diagnostic.times r (schemas.flatMap Schema.ownIssues) ≤ 1
    cases hr : r.1.ofContainer with
    | true =>
      rw [times_ownIssues schemas hr]
      exact Nat.zero_le 1
    | false =>
      have hboth := times_generate crate hne hover hr
      rw [hall r hr, found_eq schemas hr] at hboth
      omega
  · intro hle r hr
    have hfound : found r schemas ≤ 1 := by
      rw [found_eq schemas hr]
      exact hle r
    rw [times_generate crate hne hover hr, Nat.min_eq_right hfound]

end Counts

end Container

end PackedFields
