import PackedFields.Machine.Sample
import PackedFields.Proofs.Acceptance

/-!
# Sub-fields of the same name

The check of the names is a scan. What it says of a list it also says of every longer one, so that
what is added on account of one sub-field can be told apart (`Schema.nameIssuesAt`), and what it says
of all of them is what they add, in order.

For a sub-field whose name has occurred before, one diagnostic is added. The scan remembers, for each
text, the name that had it last, and each sub-field overwrites it. The wording promises the first
declaration of the name, which is another one if there are three: the two are spelled differently
just in case one of them carries a mark and the other does not.
-/

namespace PackedFields.Schema

/-- What the check of the names says of the sub-fields before the one at `k`. -/
def nameIssuesBefore (s : Schema) (k : Nat) : List Diagnostic :=
  s.nameIssuesFrom [] [] (s.subFields.take k)

/-- What the check of the names adds on account of the sub-field at `k`. -/
def nameIssuesAt (s : Schema) (k : Nat) : List Diagnostic :=
  (s.nameIssuesBefore (k + 1)).drop (s.nameIssuesBefore k).length

/-- The names of sub-fields, the latest first. -/
def namesBack (ds : List SubField) : List Name := (ds.map (·.name)).reverse

variable {s : Schema} {k : Nat} {d : SubField}

/-! ## The scan, taken apart -/

/-- A scan goes on after some sub-fields with the names of all of them, and with those that were new. -/
theorem exists_nameIssuesFrom_append (s : Schema) (seen fresh : List Name) (ds : List SubField) :
    ∃ fresh', ∀ es, s.nameIssuesFrom seen fresh (ds ++ es) =
      s.nameIssuesFrom seen fresh ds ++ s.nameIssuesFrom (namesBack ds ++ seen) fresh' es := by
  induction ds generalizing seen fresh with
  | nil => exact ⟨fresh, fun es => rfl⟩
  | cons d ds ih =>
    have hnames : namesBack (d :: ds) ++ seen = namesBack ds ++ (d.name :: seen) := by
      rw [namesBack, namesBack, List.map_cons, List.reverse_cons, List.append_assoc]
      rfl
    rw [hnames]
    cases hfirst : seen.find? (·.text = d.name.text) with
    | some first =>
      obtain ⟨fresh', hrest⟩ := ih (d.name :: seen) fresh
      refine ⟨fresh', fun es => ?_⟩
      simp only [List.cons_append, nameIssuesFrom, hfirst, hrest]
    | none =>
      obtain ⟨fresh', hrest⟩ := ih (d.name :: seen) (d.name :: fresh)
      refine ⟨fresh', fun es => ?_⟩
      simp only [List.cons_append, nameIssuesFrom, hfirst, hrest, List.append_assoc]

/-- What is added for a sub-field is what the scan says of it after the names before it. -/
theorem exists_nameIssuesAt_eq (hd : s.subFields[k]? = some d) :
    s.nameIssuesBefore (k + 1) = s.nameIssuesBefore k ++ s.nameIssuesAt k ∧
      ∃ fresh, s.nameIssuesAt k = s.nameIssuesFrom (namesBack (s.subFields.take k)) fresh [d] := by
  obtain ⟨fresh, hrest⟩ := s.exists_nameIssuesFrom_append [] [] (s.subFields.take k)
  have hnext : s.nameIssuesBefore (k + 1) = s.nameIssuesBefore k ++
      s.nameIssuesFrom (namesBack (s.subFields.take k)) fresh [d] := by
    have htake : s.subFields.take (k + 1) = s.subFields.take k ++ [d] := by
      rw [List.take_add_one, hd]
      rfl
    rw [nameIssuesBefore, htake, hrest, List.append_nil, nameIssuesBefore]
  have hat : s.nameIssuesAt k = s.nameIssuesFrom (namesBack (s.subFields.take k)) fresh [d] := by
    rw [nameIssuesAt, hnext, List.drop_left]
  exact ⟨by rw [hnext, hat], fresh, hat⟩

/-- The check says of all sub-fields what each of them adds, in order. -/
theorem nameIssues_eq_flatMap (s : Schema) :
    s.nameIssues = (List.range s.subFields.length).flatMap s.nameIssuesAt := by
  have hbefore : ∀ n ≤ s.subFields.length,
      s.nameIssuesBefore n = (List.range n).flatMap s.nameIssuesAt := by
    intro n hn
    induction n with
    | zero => rfl
    | succ n ih =>
      have hget : s.subFields[n]? = some s.subFields[n] := List.getElem?_eq_getElem hn
      rw [(exists_nameIssuesAt_eq hget).1, ih (by omega), List.range_succ, List.flatMap_append,
        List.flatMap_singleton]
  rw [← hbefore _ (le_refl _), nameIssuesBefore, List.take_length]
  rfl

/-! ## One sub-field -/

/-- A name that has occurred is reported once, with the name that had the text last. -/
theorem nameIssuesAt_of_find? (hd : s.subFields[k]? = some d) {latest : SubField}
    (hlatest : (s.subFields.take k).reverse.find? (·.name.text = d.name.text) = some latest) :
    s.nameIssuesAt k = [⟨.declaredTwice d.name s.field latest.name, d.place⟩] := by
  obtain ⟨-, fresh, hat⟩ := exists_nameIssuesAt_eq hd
  have hseen : (namesBack (s.subFields.take k)).find? (·.text = d.name.text) = some latest.name := by
    rw [namesBack, ← List.map_reverse, List.find?_map]
    exact congrArg (Option.map (·.name)) hlatest
  rw [hat, nameIssuesFrom, hseen]
  rfl

/-- Whatever is wrong with a name that is new, it is not that it has been declared before. -/
theorem nameIssuesAt_of_new (hd : s.subFields[k]? = some d)
    (hnew : ∀ e ∈ s.subFields.take k, e.name.text ≠ d.name.text) :
    ∀ i ∈ s.nameIssuesAt k, ∀ a b c, i.issue ≠ .declaredTwice a b c := by
  obtain ⟨-, fresh, hat⟩ := exists_nameIssuesAt_eq hd
  have hseen : (namesBack (s.subFields.take k)).find? (·.text = d.name.text) = none := by
    rw [List.find?_eq_none]
    intro n hn
    obtain ⟨e, he, rfl⟩ := List.mem_map.mp (List.mem_reverse.mp hn)
    simpa using hnew e he
  rw [hat, nameIssuesFrom, hseen]
  intro i hi a b c
  rcases List.mem_append.mp hi with hi | hi
  · rcases s.mem_freshNameIssues_cases hi with ⟨first, -, rfl⟩ | rfl | rfl <;> simp
  · cases hi

/-- The check says of each sub-field, in order, what it adds. A sub-field whose name is new is not
said to be declared twice. For one whose name has occurred, whatever else may be wrong with it, a
single diagnostic is added, in its place, which cites the latest declaration of the name; that is the
same as citing the first one just in case both carry a mark or neither does. -/
theorem duplicate_cites_first_iff (s : Schema) :
    s.nameIssues = (List.range s.subFields.length).flatMap s.nameIssuesAt ∧
    ∀ k d, s.subFields[k]? = some d →
      ((∀ e ∈ s.subFields.take k, e.name.text ≠ d.name.text) →
        ∀ i ∈ s.nameIssuesAt k, ∀ a b c, i.issue ≠ .declaredTwice a b c) ∧
      ∀ first, (s.subFields.take k).find? (·.name.text = d.name.text) = some first →
        ∃ latest, (s.subFields.take k).reverse.find? (·.name.text = d.name.text) = some latest ∧
          s.nameIssuesAt k = [⟨.declaredTwice d.name s.field latest.name, d.place⟩] ∧
          (s.nameIssuesAt k = [⟨.declaredTwice d.name s.field first.name, d.place⟩] ↔
            latest.name.raw = first.name.raw) := by
  refine ⟨s.nameIssues_eq_flatMap, fun k d hd => ⟨nameIssuesAt_of_new hd, ?_⟩⟩
  intro first hfirst
  have hsome : ((s.subFields.take k).reverse.find? (·.name.text = d.name.text)).isSome := by
    rw [List.find?_isSome]
    refine ⟨first, List.mem_reverse.mpr (List.mem_of_find?_eq_some hfirst), ?_⟩
    simpa using List.find?_some hfirst
  obtain ⟨latest, hlatest⟩ := Option.isSome_iff_exists.mp hsome
  have hcited := nameIssuesAt_of_find? hd hlatest
  refine ⟨latest, hlatest, hcited, ?_⟩
  -- both have the text of `d`, so all that can tell their names apart is the mark
  have htext : latest.name.text = first.name.text := by
    have hl := List.find?_some hlatest
    have hf := List.find?_some hfirst
    simp only [decide_eq_true_eq] at hl hf
    rw [hl, hf]
  rw [hcited]
  constructor
  · intro heq
    simp only [List.cons.injEq, Diagnostic.mk.injEq, Issue.declaredTwice.injEq] at heq
    rw [heq.1.1.2.2]
  · intro hraw
    have hname : latest.name = first.name := by
      cases hl : latest.name
      cases hf : first.name
      rw [hl, hf] at htext hraw
      rw [Name.mk.injEq]
      exact ⟨htext, hraw⟩
    rw [hname]

/-- A byte of three flags of the same name, with a mark where `marks` says so. -/
def threefold (marks : List Bool) : Schema :=
  Sample.field "Data" ⟨"i", false⟩ (Sample.u .w8)
    (marks.map fun marked => { Sample.flag "a" with name := ⟨"a", marked⟩ })

theorem duplicate_cites_first_threefold :
    (threefold [true, true, false]).nameIssuesAt 2 =
      [⟨.declaredTwice ⟨"a", false⟩ ⟨"i", false⟩ ⟨"a", true⟩, .nowhere⟩] := by
  obtain ⟨-, hall⟩ := duplicate_cites_first_iff (threefold [true, true, false])
  obtain ⟨-, hduplicate⟩ := hall 2 ⟨.bool, 1, ⟨"a", false⟩, .nowhere⟩ rfl
  obtain ⟨latest, hlatest, -, hfirst⟩ := hduplicate ⟨.bool, 1, ⟨"a", true⟩, .nowhere⟩ (by decide)
  obtain rfl : ⟨.bool, 1, ⟨"a", true⟩, .nowhere⟩ = latest := Option.some.inj (by rw [← hlatest]; decide)
  exact hfirst.mpr rfl

/-- Of three flags the last is said to have been declared first as the second. -/
theorem third_cites_second :
    ∃ d first, (threefold [false, true, false]).subFields[2]? = some d ∧
      ((threefold [false, true, false]).subFields.take 2).find? (·.name.text = d.name.text) =
        some first ∧
      (threefold [false, true, false]).nameIssuesAt 2 ≠
        [⟨.declaredTwice d.name (threefold [false, true, false]).field first.name, d.place⟩] ∧
      ((threefold [false, true, false]).nameIssuesAt 2).map Diagnostic.message =
        ["sub-field `a` is declared twice on `i` (first as `r#a`)"] :=
  ⟨⟨.bool, 1, ⟨"a", false⟩, .nowhere⟩, ⟨.bool, 1, ⟨"a", false⟩, .nowhere⟩, by decide⟩

end PackedFields.Schema
