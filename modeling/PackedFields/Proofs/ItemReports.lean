import PackedFields.Proofs.Independence

/-!
# What is reported about an item

The visibility and the kind of an item are checked on three routes: without any schema, with fields
of which none has a schema, and along with every schema. Whichever is taken, an expansion complains
about the item itself first, and once (`Expansion.diagnostics_ofDiscovery`). It calls the item empty
just in case no field of it is divided: a field whose helper attributes are malformed is divided as
well, and what is wrong with it is said elsewhere.
-/

namespace PackedFields

/-! ## Items -/

/-- Whether members can be accessible to whom the visibility names. -/
def SourceVisibility.isSupported : SourceVisibility → Bool
  | inherited => true
  | everyone => true
  | within w => w ∈ ["self", "super", "crate"]
  | withinPath _ => false

namespace Visibility

variable {v : SourceVisibility}

theorem ofSource_of_isSupported (h : v.isSupported) : ∃ a, ofSource v = known a := by
  match v with
  | .inherited | .everyone => exact ⟨_, rfl⟩
  | .within w =>
    have hw : w = "self" ∨ w = "super" ∨ w = "crate" := by
      simpa [SourceVisibility.isSupported] using h
    rcases hw with rfl | rfl | rfl <;> exact ⟨_, rfl⟩

theorem ofSource_of_not_isSupported (h : v.isSupported = false) :
    ofSource v = unrecognized (Token.print v.tokens) := by
  match v with
  | .withinPath p => rfl
  | .within w =>
    rw [SourceVisibility.isSupported, decide_eq_false_iff_not] at h
    rw [ofSource]
    all_goals
      intro heq
      cases heq <;> simp at h

end Visibility

namespace Item

/-- What an item has in common with others, unless it is of a kind that has no fields. -/
def head? : Item → Option ItemHead
  | .struct h _ => some h
  | .enum h _ _ => some h
  | .union h _ => some h
  | .other .. => none

/-- The fields of a struct with named fields. -/
def namedFields? : Item → Option (List SourceField)
  | .struct _ (.named fs _) => some fs
  | _ => none

/-- Whether the item is a struct with named fields, of which one is divided. -/
def isDivided (item : Item) : Bool := item.namedFields?.any fun fs => fs.any SourceField.isDivided

end Item

/-! ## Reports on an item -/

namespace ItemHead

variable (h : ItemHead)

/-- The error that the visibility of the item is not supported. -/
def visibilityReport : List Token :=
  Code.rootPath ["core", "compile_error"] ++ [Code.sign '!', Code.braces [Code.string
    ("E0001: " ++ (Issue.ticked h.name.spelling ++ " is declared " ++
      Issue.ticked (Token.print h.visibility.tokens) ++
      "; only private, `pub(super)`, `pub(crate)` or `pub` containers are supported"))]]

/-- The error that the item cannot get members. -/
def extensionReport : List Token :=
  Code.rootPath ["core", "compile_error"] ++ [Code.sign '!', Code.braces [Code.string
    ("E0002: " ++ (Issue.ticked h.name.spelling ++
      " cannot receive generated members; #[bit_divisible] requires a struct with " ++
      "named fields"))]]

/-- The warning that no field of the item is divided: a constant whose value uses a deprecated
type. -/
def emptyReport : List Token :=
  let marker := Code.word "BitDivisibleW0001"
  let note := Code.string ("W0001: " ++ ("#[bit_divisible] is not needed on " ++
    Issue.ticked h.name.spelling ++ ": no field declares #[bit_field] sub-fields"))
  Code.words ["const", "_"] ++ [Code.sign ':', Code.parens [], Code.sign '=', Code.braces (
    Code.attr [Code.word "deprecated", Code.parens [Code.word "note", Code.sign '=', note]] ++
      [Code.word "struct", marker, Code.sign ';', Code.word "let", Code.word "_", Code.sign '=',
        marker, Code.sign ';']), Code.sign ';']

theorem tokens_visibility :
    (⟨.visibility h.name (Token.print h.visibility.tokens), h.place⟩ : Diagnostic).tokens =
      h.visibilityReport := by
  have hid : "E0001" ++ ": " = "E0001: " := by decide
  rw [visibilityReport, ← hid]
  rfl

theorem tokens_notExtensible :
    (⟨.notExtensible h.name, h.place⟩ : Diagnostic).tokens = h.extensionReport := by
  have hid : "E0002" ++ ": " = "E0002: " := by decide
  rw [extensionReport, ← hid]
  rfl

theorem tokens_noFields :
    (⟨.noFields h.name, h.place⟩ : Diagnostic).tokens = h.emptyReport := by
  have hid : "W0001" ++ ": " = "W0001: " := by decide
  have hmarker : "BitDivisible" ++ "W0001" = "BitDivisibleW0001" := by decide
  rw [emptyReport, ← hid, ← hmarker]
  rfl

end ItemHead

/-! ## Diagnostics about a container -/

/-- Whether the issue is that a container is empty. -/
def Issue.isNoFields : Issue → Bool
  | noFields _ => true
  | _ => false

namespace Diagnostic

theorem mem_of_mem_distinct {seen : List (IssueCode × String)} {d : Diagnostic}
    {ds : List Diagnostic} (h : d ∈ distinct seen ds) : d ∈ ds := by
  induction ds generalizing seen with
  | nil => cases h
  | cons e ds ih =>
    rw [distinct] at h
    split at h
    · exact List.mem_cons_of_mem e (ih h)
    · rcases List.mem_cons.mp h with rfl | h
      · exact List.mem_cons_self
      · exact List.mem_cons_of_mem e (ih h)

theorem code_of_isNoFields {d : Diagnostic} (h : d.issue.isNoFields = true) :
    d.code = .nothingDeclared := by
  rw [code]
  cases hissue : d.issue <;> simp [hissue, Issue.isNoFields] at h
  rfl

end Diagnostic

namespace Schema

variable {s : Schema} {d : Diagnostic}

/-- On its own account a schema never calls a container empty. -/
theorem isNoFields_of_mem_ownIssues (h : d ∈ s.ownIssues) : d.issue.isNoFields = false := by
  rcases mem_ownIssues_cases h with hissue | hcode
  · rw [hissue]
    rfl
  · by_contra hnone
    rw [Diagnostic.code_of_isNoFields (Bool.not_eq_false _ ▸ hnone)] at hcode
    exact absurd hcode (by decide)

end Schema

namespace Container

variable {c : Container}

/-- Nothing is generated over a container that something is wrong with. -/
theorem outputs_eq_nil {schemas : List Schema} (hover : ∀ s ∈ schemas, s.container = c)
    (hc : c.issues ≠ []) : outputs schemas = [] := by
  rw [outputs, List.filterMap_eq_nil_iff]
  intro s hs
  have hinvalid : s.validate ≠ [] := by
    rw [s.validate_eq_append, hover s hs]
    exact List.append_ne_nil_of_left_ne_nil hc _
  rw [s.generate_of_validate_ne_nil hinvalid]
  rfl

theorem filter_accessibility_issues (c : Container) :
    c.issues.filter (·.code = .accessibility) =
      match c.visibility with
      | .unrecognized text => [⟨.visibility c.name text, c.place⟩]
      | .known _ => [] := by
  rw [issues]
  cases c.visibility <;> cases c.extensible <;> rfl

theorem filter_extensibility_issues (c : Container) :
    c.issues.filter (·.code = .extensibility) =
      if c.extensible then [] else [⟨.notExtensible c.name, c.place⟩] := by
  rw [issues]
  cases c.visibility <;> cases c.extensible <;> rfl

theorem isNoFields_of_mem_issues {d : Diagnostic} (h : d ∈ c.issues) :
    d.issue.isNoFields = false := by
  by_contra hnone
  have hcode := Diagnostic.code_of_isNoFields (Bool.not_eq_false _ ▸ hnone)
  have hof := ofContainer_of_mem_issues h
  rw [hcode] at hof
  cases hof

end Container

/-! ## Discoveries -/

namespace Discovery

/-- What is reported about a discovery after what is wrong with the container. -/
def furtherIssues (d : Discovery) : List Diagnostic :=
  if d.schemas.isEmpty then if d.rejected then [] else [d.container.emptyWarning]
  else Diagnostic.distinct [] (d.schemas.flatMap Schema.ownIssues)

/-- Whether nothing in what has been found is divided. -/
def isEmpty (d : Discovery) : Bool := d.schemas.isEmpty && !d.rejected

variable {d : Discovery}

theorem mem_furtherIssues {e : Diagnostic} (h : e ∈ d.furtherIssues) :
    d.isEmpty ∧ e = d.container.emptyWarning ∨ ∃ s ∈ d.schemas, e ∈ s.ownIssues := by
  rw [furtherIssues] at h
  split_ifs at h with hnone hrejected
  · cases h
  · exact .inl ⟨by simp [isEmpty, hnone, hrejected], List.mem_singleton.mp h⟩
  · exact .inr (List.mem_flatMap.mp (Diagnostic.mem_of_mem_distinct h))

/-- Nothing that is reported later reads like something wrong with the container. -/
theorem filter_code_furtherIssues (d : Discovery) {code : IssueCode} (hcode : code.ofContainer) :
    d.furtherIssues.filter (·.code = code) = [] := by
  rw [List.filter_eq_nil_iff]
  intro e he heq
  rw [decide_eq_true_eq] at heq
  rw [← heq] at hcode
  rcases mem_furtherIssues he with ⟨-, rfl⟩ | ⟨s, -, hs⟩
  · cases hcode
  · rw [Schema.ofContainer_of_mem_ownIssues hs] at hcode
    cases hcode

/-- The container is called empty if nothing is divided, and only then. -/
theorem filter_isNoFields_furtherIssues (d : Discovery) :
    d.furtherIssues.filter (·.issue.isNoFields) =
      if d.isEmpty then [d.container.emptyWarning] else [] := by
  by_cases hempty : d.isEmpty
  · have hboth := Bool.and_eq_true_iff.mp hempty
    rw [if_pos hempty, furtherIssues, if_pos hboth.1, if_neg (by simpa using hboth.2)]
    rfl
  · rw [if_neg hempty, List.filter_eq_nil_iff]
    intro e he hnone
    rcases mem_furtherIssues he with ⟨h, -⟩ | ⟨s, -, hs⟩
    · exact hempty h
    · rw [Schema.isNoFields_of_mem_ownIssues hs] at hnone
      cases hnone

/-- What is reported after what is wrong with the container is first that it is empty, and then
nothing about the container as a whole. -/
theorem exists_furtherIssues_eq (d : Discovery) :
    ∃ later, d.furtherIssues = (if d.isEmpty then [d.container.emptyWarning] else []) ++ later ∧
      ∀ e ∈ later, e.code.ofContainer = false ∧ e.issue.isNoFields = false := by
  by_cases hempty : d.isEmpty
  · obtain ⟨hnone, hrejected⟩ := Bool.and_eq_true_iff.mp hempty
    refine ⟨[], ?_, List.forall_mem_nil _⟩
    rw [if_pos hempty, furtherIssues, if_pos hnone, if_neg (by simpa using hrejected)]
    rfl
  · refine ⟨d.furtherIssues, by rw [if_neg hempty, List.nil_append], fun e he => ?_⟩
    rcases mem_furtherIssues he with ⟨h, -⟩ | ⟨s, -, hs⟩
    · exact absurd h hempty
    · exact ⟨Schema.ofContainer_of_mem_ownIssues hs, Schema.isNoFields_of_mem_ownIssues hs⟩

/-- Whether what has been found is what can be found in an item with the head `h`. -/
structure IsIn (d : Discovery) (item : Item) (h : ItemHead) : Prop where
  /-- The container has the name of the item. -/
  name : d.container.name = h.name
  /-- The container has the place of the item. -/
  place : d.container.place = h.place
  /-- The container has the visibility of the item. -/
  visibility : d.container.visibility = .ofSource h.visibility
  /-- The container can get members if the item is a struct with named fields. -/
  extensible : d.container.extensible = item.namedFields?.isSome
  /-- All schemas are schemas of the container. -/
  schemas : ∀ s ∈ d.schemas, s.container = d.container
  /-- Nothing is divided if no field of the item is. -/
  empty : d.isEmpty = !item.isDivided

theorem isEmpty_ofReadable (h : ItemHead) (fs : List SourceField) (earlier : List SyntaxError) :
    (ofReadable h fs earlier).isEmpty = !fs.any SourceField.isDivided := by
  show ((fs.filterMap _).isEmpty && !fs.any fun f => _ && _) = _
  induction fs with
  | nil => rfl
  | cons f fs ih =>
    rw [List.any_cons, List.any_cons, List.filterMap_cons]
    -- a field that is divided has a schema or is rejected, and any other does neither
    cases hd : f.isDivided with
    | false => simpa [SourceField.schema?, hd] using ih
    | true => cases f.schema? (structContainer h) <;> simp

theorem isIn_ofReadable (h : ItemHead) (fs : List SourceField) (trailing : Bool)
    (earlier : List SyntaxError) :
    (ofReadable h fs earlier).IsIn (.struct h (.named fs trailing)) h where
  name := rfl
  place := rfl
  visibility := rfl
  extensible := rfl
  schemas := by
    intro s hs
    obtain ⟨f, -, hf⟩ := List.mem_filterMap.mp hs
    exact (SourceField.schema?_eq_some_iff.mp hf).container
  empty := isEmpty_ofReadable h fs earlier

end Discovery

namespace Expansion

/-- An expansion reports what is wrong with the container once, and before anything else. -/
theorem diagnostics_ofDiscovery (crate : Path) {d : Discovery}
    (hover : ∀ s ∈ d.schemas, s.container = d.container) :
    (ofDiscovery crate d).diagnostics = d.container.issues ++ d.furtherIssues := by
  rw [ofDiscovery, Discovery.furtherIssues]
  cases hschemas : d.schemas with
  | nil => cases d.rejected <;> simp [Container.generate]
  | cons s rest =>
    rw [hschemas] at hover
    exact d.container.diagnostics_generate crate (List.cons_ne_nil s rest) hover

variable (arguments : List Token) {item : Item} {h : ItemHead}

theorem exists_isIn (hhead : item.head? = some h) (hitem : item.Readable) :
    ∃ crate d, ofItem arguments item = .ok (ofDiscovery crate d) ∧ d.IsIn item h := by
  match item with
  | .struct _ (.named fs trailing) =>
    cases hhead
    exact ⟨_, _, ofItem_struct_eq arguments hitem trailing,
      Discovery.isIn_ofReadable h fs trailing _⟩
  | .struct _ (.tuple ..) | .struct _ .unit | .enum .. | .union .. =>
    cases hhead
    exact ⟨_, _, rfl, rfl, rfl, rfl, rfl, List.forall_mem_nil _, rfl⟩

section

variable {d : Discovery} (hd : d.IsIn item h)
include hd

theorem filter_accessibility (crate : Path) :
    (ofDiscovery crate d).diagnostics.filter (·.code = .accessibility) =
      if h.visibility.isSupported then []
      else [⟨.visibility h.name (Token.print h.visibility.tokens), h.place⟩] := by
  rw [diagnostics_ofDiscovery crate hd.schemas, List.filter_append,
    Container.filter_accessibility_issues, d.filter_code_furtherIssues rfl, List.append_nil,
    hd.visibility, hd.name, hd.place]
  cases hv : h.visibility.isSupported with
  | true =>
    obtain ⟨a, ha⟩ := Visibility.ofSource_of_isSupported hv
    rw [ha]
    rfl
  | false =>
    rw [Visibility.ofSource_of_not_isSupported hv]
    rfl

theorem filter_extensibility (crate : Path) :
    (ofDiscovery crate d).diagnostics.filter (·.code = .extensibility) =
      if item.namedFields?.isSome then [] else [⟨.notExtensible h.name, h.place⟩] := by
  rw [diagnostics_ofDiscovery crate hd.schemas, List.filter_append,
    Container.filter_extensibility_issues, d.filter_code_furtherIssues rfl, List.append_nil,
    hd.extensible, hd.name, hd.place]

theorem filter_isNoFields (crate : Path) :
    (ofDiscovery crate d).diagnostics.filter (·.issue.isNoFields) =
      if item.isDivided then [] else [⟨.noFields h.name, h.place⟩] := by
  have hissues : d.container.issues.filter (·.issue.isNoFields) = [] := by
    rw [List.filter_eq_nil_iff]
    intro e he
    rw [Container.isNoFields_of_mem_issues he]
    exact Bool.false_ne_true
  rw [diagnostics_ofDiscovery crate hd.schemas, List.filter_append, hissues,
    d.filter_isNoFields_furtherIssues, hd.empty, List.nil_append, Container.emptyWarning, hd.name,
    hd.place]
  cases item.isDivided <;> rfl

/-- The tokens that say what is wrong with the item stand right after the item. -/
theorem exists_tokens_eq (crate : Path) :
    ∃ later : List Diagnostic, (ofDiscovery crate d).tokens =
      (ofDiscovery crate d).item.tokens ++
        (if h.visibility.isSupported then [] else h.visibilityReport) ++
        (if item.namedFields?.isSome then [] else h.extensionReport) ++
        (if item.isDivided then [] else h.emptyReport) ++ later.flatMap Diagnostic.tokens ++
        (ofDiscovery crate d).output.tokens ++
        (ofDiscovery crate d).errors.flatMap SyntaxError.tokens ∧
      ∀ e ∈ later, e.code.ofContainer = false ∧ e.issue.isNoFields = false := by
  obtain ⟨later, hlater, hnone⟩ := d.exists_furtherIssues_eq
  have hissues : d.container.issues.flatMap Diagnostic.tokens =
      (if h.visibility.isSupported then [] else h.visibilityReport) ++
        (if item.namedFields?.isSome then [] else h.extensionReport) := by
    rw [Container.issues, hd.visibility, hd.extensible, hd.name, hd.place, List.flatMap_append]
    congr 1
    · cases hv : h.visibility.isSupported with
      | true =>
        obtain ⟨a, ha⟩ := Visibility.ofSource_of_isSupported hv
        rw [ha]
        rfl
      | false =>
        rw [Visibility.ofSource_of_not_isSupported hv]
        exact (List.flatMap_singleton _ _).trans h.tokens_visibility
    · cases item.namedFields?.isSome with
      | true => rfl
      | false => exact (List.flatMap_singleton _ _).trans h.tokens_notExtensible
  have hempty : (if d.isEmpty then [d.container.emptyWarning] else []).flatMap Diagnostic.tokens =
      if item.isDivided then [] else h.emptyReport := by
    rw [hd.empty, Container.emptyWarning, hd.name, hd.place]
    cases item.isDivided with
    | true => rfl
    | false => exact (List.flatMap_singleton _ _).trans h.tokens_noFields
  refine ⟨later, ?_, hnone⟩
  rw [tokens, diagnostics_ofDiscovery crate hd.schemas, hlater, List.flatMap_append,
    List.flatMap_append, hissues, hempty]
  simp only [List.append_assoc]

/-- Over an item that something is wrong with there is no output. -/
theorem output_eq_nil (crate : Path) {e : Diagnostic} (he : e ∈ (ofDiscovery crate d).diagnostics)
    (hcode : e.code.ofContainer) :
    (ofDiscovery crate d).output.fields = [] ∧ (ofDiscovery crate d).output.metadata = none ∧
      (ofDiscovery crate d).output.tokens = [] := by
  -- what comes after the complaints about the container is under other codes
  have hissues : d.container.issues ≠ [] := by
    rw [diagnostics_ofDiscovery crate hd.schemas, List.mem_append] at he
    rcases he with he | he
    · exact List.ne_nil_of_mem he
    · have hnone := List.filter_eq_nil_iff.mp (d.filter_code_furtherIssues hcode) e he
      simp at hnone
  have hnone := Container.outputs_eq_nil hd.schemas hissues
  obtain ⟨hfields, hmetadata⟩ := output_ofDiscovery crate d
  rw [hnone] at hfields hmetadata
  exact ⟨hfields, hmetadata, by rw [ContainerOutput.tokens, hfields, hmetadata]; rfl⟩

end

/-- What is wrong with an item itself is reported exactly once if it is wrong, and never otherwise,
whatever its fields are: that its visibility is not supported, that it is not a struct with named
fields, and that no field of such a struct carries helper attributes. The tokens of these reports
stand after those of the item, and no other report is one of them. If one of the first two is
reported, nothing is generated. There is an expansion just in case no field has a marked name in a
string literal. -/
theorem item_reported_once (hhead : item.head? = some h) :
    (∃ e, ofItem arguments item = .ok e ∧
      e.diagnostics.filter (·.code = .accessibility) =
        (if h.visibility.isSupported then []
        else [⟨.visibility h.name (Token.print h.visibility.tokens), h.place⟩]) ∧
      e.diagnostics.filter (·.code = .extensibility) =
        (if item.namedFields?.isSome then [] else [⟨.notExtensible h.name, h.place⟩]) ∧
      e.diagnostics.filter (·.issue.isNoFields) =
        (if item.isDivided then [] else [⟨.noFields h.name, h.place⟩]) ∧
      (∃ later : List Diagnostic, e.tokens = e.item.tokens ++
          (if h.visibility.isSupported then [] else h.visibilityReport) ++
          (if item.namedFields?.isSome then [] else h.extensionReport) ++
          (if item.isDivided then [] else h.emptyReport) ++ later.flatMap Diagnostic.tokens ++
          e.output.tokens ++ e.errors.flatMap SyntaxError.tokens ∧
        ∀ d ∈ later, d.code.ofContainer = false ∧ d.issue.isNoFields = false) ∧
      ∀ d ∈ e.diagnostics, d.code = .accessibility ∨ d.code = .extensibility →
        e.output.fields = [] ∧ e.output.metadata = none ∧ e.output.tokens = []) ↔
      item.Readable := by
  constructor
  · rintro ⟨e, he, -⟩
    exact readable_of_ofItem_eq_ok arguments he
  · intro hitem
    obtain ⟨crate, d, he, hd⟩ := exists_isIn arguments hhead hitem
    refine ⟨_, he, filter_accessibility hd crate, filter_extensibility hd crate,
      filter_isNoFields hd crate, exists_tokens_eq hd crate, ?_⟩
    rintro e hmem (hcode | hcode)
    · exact output_eq_nil hd crate hmem (by rw [hcode]; rfl)
    · exact output_eq_nil hd crate hmem (by rw [hcode]; rfl)

end Expansion

/-- A struct for a module elsewhere, with a byte whose sub-field is declared by the given token. -/
def Sample.confined (name : Token) : Item :=
  .struct (head "D" (.withinPath ⟨false, [⟨"crate", false⟩, ⟨"a", false⟩]⟩))
    (.named [halfByte "x" name] false)

open Sample in
theorem Expansion.item_reported_once_confined :
    ∃ e, ofItem [] (confined (Code.word "low")) = .ok e ∧
      e.diagnostics.filter (·.code = .accessibility) =
        [⟨.visibility ⟨"D", false⟩ "pub (in crate :: a)", .nowhere⟩] ∧
      e.diagnostics.filter (·.code = .extensibility) = [] ∧
      e.diagnostics.filter (·.issue.isNoFields) = [] ∧
      e.item.tokens ++ Code.compileError ("E0001: `D` is declared `pub (in crate :: a)`; only " ++
        "private, `pub(super)`, `pub(crate)` or `pub` containers are supported") <+: e.tokens ∧
      e.output.tokens = [] := by
  have hitem : (confined (Code.word "low")).Readable :=
    List.forall_mem_singleton.mpr (readable_halfByte "x")
  obtain ⟨e, he, haccess, hextend, hempty, ⟨later, htokens, -⟩, houtput⟩ :=
    (item_reported_once [] rfl).mpr hitem
  have honce : e.diagnostics.filter (·.code = .accessibility) =
      [⟨.visibility ⟨"D", false⟩ "pub (in crate :: a)", .nowhere⟩] := haccess.trans (by decide)
  have hmem := List.mem_filter.mp (honce ▸ List.mem_singleton_self _)
  obtain ⟨-, -, hnone⟩ := houtput _ hmem.1 (.inl rfl)
  refine ⟨e, he, honce, hextend, hempty, ?_, hnone⟩
  have hreport : ItemHead.visibilityReport
      (head "D" (.withinPath ⟨false, [⟨"crate", false⟩, ⟨"a", false⟩]⟩)) =
      Code.compileError ("E0001: `D` is declared `pub (in crate :: a)`; only " ++
        "private, `pub(super)`, `pub(crate)` or `pub` containers are supported") := by
    rw [ItemHead.visibilityReport, Code.compileError]
    congr 4
  rw [htokens, hnone, ← hreport]
  simp only [List.append_assoc]
  exact (List.prefix_append_right_inj _).mpr (List.prefix_append _ _)

open Sample in
/-- Of an item with a marked name nothing is reported, not even what is wrong with its
visibility. -/
theorem Expansion.confined_unreported :
    (∃ h, (confined (Code.string "r#type")).head? = some h ∧ h.visibility.isSupported = false) ∧
      ∀ e, ofItem [] (confined (Code.string "r#type")) ≠ .ok e := by
  refine ⟨⟨_, rfl, rfl⟩, fun e he => ?_⟩
  have hreadable := readable_of_ofItem_eq_ok [] he
  exact not_readable_halfByte "x" (hreadable _ (List.mem_singleton.mpr rfl))

end PackedFields
