import Mathlib
import PackedFields.Front.Discovery

/-!
# What the fields of a struct say

Discovery looks at the fields of a struct one after another, and one list takes in all that is wrong
with them. A field says the same whatever has been found before it: its helper attributes say which
sub-fields it has, whether it is shared and what is wrong with them, and the list grows on account
of a field just in case its attributes are not well-formed or its type is no integer type. So a run
over fields adds up what each of them says on its own (`Findings.foldlM_add`).

There is one exception. A name that is given in a string literal and carries a mark stops the run
(`Attribute.stops`), and nothing that the other fields say is left.
-/

namespace PackedFields

/-- If a step goes wrong for some elements, whatever came before them, then a run goes wrong over
all lists with such an element. -/
theorem exists_foldlM_eq_error {α β ε : Type} (step : β → α → Except ε β) (Good : α → Prop)
    (hgood : ∀ b a, Good a → ∃ b', step b a = .ok b')
    (hbad : ∀ b a, ¬ Good a → ∃ e, step b a = .error e) (b : β) {as : List α}
    (has : ∃ a ∈ as, ¬ Good a) : ∃ e, as.foldlM step b = .error e := by
  induction as generalizing b with
  | nil => simp at has
  | cons a as ih =>
    rw [List.foldlM_cons]
    by_cases ha : Good a
    · obtain ⟨b', hb'⟩ := hgood b a ha
      have hrest : ∃ a ∈ as, ¬ Good a := by simpa [ha] using has
      rw [hb']
      exact ih b' hrest
    · obtain ⟨e, he⟩ := hbad b a ha
      exact ⟨e, by rw [he]; rfl⟩

/-! ## One attribute -/

namespace Attribute

/-- Whether the attribute gives a marked name in a string literal. -/
def stops (a : Attribute) : Bool :=
  a.isBitField &&
    match a.subField with
    | .error ⟨.markedNameText _, _⟩ => true
    | _ => false

/-- The sub-field that the attribute declares, if it does so as it should. -/
def declared? (a : Attribute) : Option SubField :=
  if a.isBitField then a.subField.toOption else none

/-- Whether the attribute is the marker of a shared field, with nothing after it. -/
def isBareMarker (a : Attribute) : Bool :=
  a.isShared &&
    match a.input with
    | .bare => true
    | _ => false

/-- What is wrong with the attribute, after a marker if `marked`. -/
def errors (a : Attribute) (marked : Bool) : List SyntaxError :=
  if a.isBitField then
    match a.subField with
    | .ok _ => []
    | .error e => [e]
  else if a.isShared then (a.markerError? marked).toList
  else []

variable {a : Attribute}

theorem isShared_of_isBitField (h : a.isBitField) : a.isShared = false := by
  have hpath : a.path = ⟨false, [⟨"bit_field", false⟩]⟩ := beq_iff_eq.mp h
  rw [isShared, isCalled, hpath]
  decide

theorem isBareMarker_of_isBitField (h : a.isBitField) : a.isBareMarker = false := by
  rw [isBareMarker, isShared_of_isBitField h, Bool.false_and]

theorem errors_eq_nil_iff (marked : Bool) :
    a.errors marked = [] ↔
      (a.isBitField → ∃ d, a.subField = .ok d) ∧
      (a.isShared → a.isBareMarker ∧ marked = false) := by
  rw [errors]
  cases hbit : a.isBitField with
  | true =>
    rw [isShared_of_isBitField hbit]
    cases a.subField <;> simp
  | false =>
    cases hshared : a.isShared with
    | false => simp
    | true =>
      rw [isBareMarker, markerError?, hshared]
      cases a.input <;> cases marked <;> simp

end Attribute

/-! ## The attributes of a field -/

namespace HelperAttributes

/-- What one more attribute adds. -/
theorem add_eq (h : HelperAttributes) {a : Attribute} (ha : a.stops = false) :
    h.add a = .ok {
      subFields := h.subFields ++ a.declared?.toList
      shared := h.shared || a.isBareMarker
      errors := h.errors ++ a.errors h.shared } := by
  rw [add, Attribute.declared?, Attribute.errors]
  cases hbit : a.isBitField with
  | true =>
    rw [a.isBareMarker_of_isBitField hbit]
    simp only [if_true, Bool.or_false]
    split
    · next d hsub => simp [hsub, Except.toOption]
    · next n s hsub => simp [Attribute.stops, hbit, hsub] at ha
    · next e _ hsub => simp [hsub, Except.toOption]
  | false =>
    rw [Attribute.isBareMarker, Attribute.markerError?]
    cases hshared : a.isShared with
    | false => simp
    | true => cases a.input <;> cases h.shared <;> simp

theorem add_of_stops (h : HelperAttributes) {a : Attribute} (ha : ¬ a.stops = false) :
    ∃ e, h.add a = .error e := by
  rw [Bool.not_eq_false, Attribute.stops, Bool.and_eq_true] at ha
  obtain ⟨hbit, hmarked⟩ := ha
  rw [add, if_pos hbit]
  split at hmarked
  · next n s hsub => exact ⟨⟨.markedNameText n, s⟩, by rw [hsub]⟩
  · cases hmarked

/-- What is wrong with attributes, after a marker if `marked`. -/
def errorsFrom (marked : Bool) : List Attribute → List SyntaxError
  | [] => []
  | a :: as => a.errors marked ++ errorsFrom (marked || a.isBareMarker) as

theorem foldlM_add (h : HelperAttributes) {as : List Attribute}
    (has : ∀ a ∈ as, a.stops = false) :
    as.foldlM add h = .ok {
      subFields := h.subFields ++ as.filterMap Attribute.declared?
      shared := h.shared || as.any Attribute.isBareMarker
      errors := h.errors ++ errorsFrom h.shared as } := by
  induction as generalizing h with
  | nil => simp [errorsFrom, pure, Except.pure]
  | cons a as ih =>
    obtain ⟨ha, has⟩ := List.forall_mem_cons.mp has
    rw [List.foldlM_cons, add_eq h ha]
    refine (ih _ has).trans ?_
    cases hd : a.declared? <;> simp [hd, errorsFrom, Bool.or_assoc]

end HelperAttributes

/-! ## One field -/

namespace SourceField

/-- Whether no attribute of the field stops the run. -/
def Readable (f : SourceField) : Prop := ∀ a ∈ f.attributes, a.stops = false

/-- The sub-fields that the attributes of the field declare, in order. -/
def subFields (f : SourceField) : List SubField := f.attributes.filterMap Attribute.declared?

/-- Whether the field carries the bare marker of a shared field. -/
def isShared (f : SourceField) : Bool := f.attributes.any Attribute.isBareMarker

/-- Whether all helper attributes of the field are well-formed. -/
structure WellFormed (f : SourceField) : Prop where
  /-- Every declaration declares a sub-field. -/
  declared : ∀ a ∈ f.attributes, a.isBitField → ∃ d, a.subField = .ok d
  /-- Every marker is bare. -/
  bare : ∀ a ∈ f.attributes, a.isShared → a.isBareMarker
  /-- There is at most one marker. -/
  once : f.attributes.countP Attribute.isShared ≤ 1

/-- What is wrong with the field. A field without helper attributes may have any type. -/
def errors (f : SourceField) : List SyntaxError :=
  if f.isDivided then HelperAttributes.errorsFrom false f.attributes ++ Findings.typeErrors f.type
  else []

/-- The schema of the field, a field of the container `c`, if it carries helper attributes and
nothing is wrong with it. -/
def schema? (c : Container) (f : SourceField) : Option Schema :=
  if f.isDivided && f.errors.isEmpty then do
    let backing ← IntType.ofSource? f.type
    let (field, place) ← f.name
    some { field, place, backing, shared := f.isShared, subFields := f.subFields, container := c }
  else none

/-- Whether the field, a field of the container `c`, is as it should be, and has the schema `s`. -/
structure HasSchema (c : Container) (f : SourceField) (s : Schema) : Prop where
  /-- The field carries helper attributes. -/
  divided : f.isDivided
  /-- All of them are well-formed. -/
  wellFormed : f.WellFormed
  /-- The field is an integer. -/
  backing : IntType.ofSource? f.type = some s.backing
  /-- The field has a name. -/
  name : f.name = some (s.field, s.place)
  /-- The field is shared if it carries the marker. -/
  shared : s.shared = f.isShared
  /-- The sub-fields are those that are declared. -/
  subFields : s.subFields = f.subFields
  /-- The schema is one of the container. -/
  container : s.container = c

end SourceField

/-- Attributes are well-formed, after a marker if `marked`, if nothing is wrong with them. -/
theorem HelperAttributes.errorsFrom_eq_nil_iff (marked : Bool) (as : List Attribute) :
    errorsFrom marked as = [] ↔
      (∀ a ∈ as, a.isBitField → ∃ d, a.subField = .ok d) ∧
      (∀ a ∈ as, a.isShared → a.isBareMarker) ∧
      as.countP Attribute.isShared + marked.toNat ≤ 1 := by
  induction as generalizing marked with
  | nil => cases marked <;> simp [errorsFrom]
  | cons a as ih =>
    rw [errorsFrom, List.append_eq_nil_iff, ih, List.forall_mem_cons, List.forall_mem_cons,
      Attribute.errors_eq_nil_iff]
    cases hbit : a.isBitField with
    | true =>
      have hshared := a.isShared_of_isBitField hbit
      have hbare := a.isBareMarker_of_isBitField hbit
      simp [hshared, hbare, and_assoc]
    | false =>
      cases hshared : a.isShared with
      | false => simp [Attribute.isBareMarker, hshared]
      | true =>
        cases hbare : a.isBareMarker with
        | false => simp
        | true => cases marked <;> simp [hshared]

namespace SourceField

theorem errors_eq_nil_iff {f : SourceField} (hf : f.isDivided) :
    f.errors = [] ↔ f.WellFormed ∧ (IntType.ofSource? f.type).isSome := by
  rw [errors, if_pos hf, List.append_eq_nil_iff, HelperAttributes.errorsFrom_eq_nil_iff]
  refine and_congr ⟨fun h => ⟨h.1, h.2.1, h.2.2⟩, fun h => ⟨h.declared, h.bare, h.once⟩⟩ ?_
  simp [Findings.typeErrors, Option.isSome_iff_ne_none]

/-- What the attributes of the field say, after what was wrong `earlier`. -/
theorem ofAttributes_eq {f : SourceField} (hf : f.Readable) (earlier : List SyntaxError) :
    HelperAttributes.ofAttributes f.attributes earlier = .ok {
      subFields := f.subFields
      shared := f.isShared
      errors := earlier ++ HelperAttributes.errorsFrom false f.attributes } := by
  rw [HelperAttributes.ofAttributes, HelperAttributes.foldlM_add _ hf]
  rfl

theorem schema?_eq_some_iff {c : Container} {f : SourceField} {s : Schema} :
    f.schema? c = some s ↔ f.HasSchema c s := by
  constructor
  · intro h
    rw [schema?] at h
    split_ifs at h with hok
    obtain ⟨hd, herrors⟩ := Bool.and_eq_true_iff.mp hok
    obtain ⟨hwell, -⟩ := (errors_eq_nil_iff hd).mp (List.isEmpty_iff.mp herrors)
    obtain ⟨backing, hbacking, h⟩ := Option.bind_eq_some_iff.mp h
    obtain ⟨⟨field, place⟩, hname, h⟩ := Option.bind_eq_some_iff.mp h
    cases h
    exact ⟨hd, hwell, hbacking, hname, rfl, rfl, rfl⟩
  · intro h
    have herrors : f.errors = [] :=
      (errors_eq_nil_iff h.divided).mpr ⟨h.wellFormed, by rw [h.backing]; rfl⟩
    rw [schema?, h.divided, herrors, h.backing, h.name, ← h.shared, ← h.subFields, ← h.container]
    rfl

theorem strip_of_not_isDivided {f : SourceField} (h : f.isDivided = false) : f.strip = f := by
  have hattributes : HelperAttributes.strip f.attributes = f.attributes := by
    rw [HelperAttributes.strip, List.filter_eq_self]
    simpa [isDivided] using h
  rw [strip, hattributes]

theorem isShared_of_not_isDivided {f : SourceField} (h : f.isDivided = false) :
    f.isShared = false := by
  simp only [isDivided, List.any_eq_false, Attribute.isHelper, Bool.or_eq_true, not_or] at h
  simp only [isShared, List.any_eq_false, Attribute.isBareMarker, Bool.and_eq_true, not_and]
  exact fun a ha hshared => absurd hshared (h a ha).2

theorem readable_of_not_isDivided {f : SourceField} (h : f.isDivided = false) : f.Readable := by
  simp only [isDivided, List.any_eq_false, Attribute.isHelper, Bool.or_eq_true, not_or] at h
  intro a ha
  rw [Attribute.stops, Bool.eq_false_iff.mpr (h a ha).1, Bool.false_and]

end SourceField

/-! ## Fields one after another -/

namespace Findings

variable {c : Container}

/-- What one more field adds: its schema, the field without helper attributes unless it is shared,
and what is wrong with it. None of this depends on what was found before. -/
theorem add_eq (found : Findings) {f : SourceField} (hf : f.Readable) :
    found.add c f = .ok {
      schemas := found.schemas ++ (f.schema? c).toList
      kept := found.kept ++ if f.isShared then [] else [f.strip]
      rejected := found.rejected || f.isDivided && (f.schema? c).isNone
      errors := found.errors ++ f.errors } := by
  rw [add]
  cases hd : f.isDivided with
  | false =>
    rw [SourceField.schema?, SourceField.errors, hd, f.isShared_of_not_isDivided hd,
      f.strip_of_not_isDivided hd]
    simp
  | true =>
    have herrors : found.errors ++ HelperAttributes.errorsFrom false f.attributes ++
        typeErrors f.type = found.errors ++ f.errors := by
      rw [SourceField.errors, if_pos hd, List.append_assoc]
    -- the list of errors is as long as before if nothing is wrong with the field
    have hlength : (found.errors ++ f.errors).length = found.errors.length ↔ f.errors.isEmpty := by
      rw [List.length_append, List.isEmpty_iff, ← List.length_eq_zero_iff]
      omega
    have hschema : ∀ es, (if f.errors.isEmpty then
        schema? c f ⟨f.subFields, f.isShared, es⟩ else none) = f.schema? c := by
      intro es
      rw [SourceField.schema?, hd, Bool.true_and]
      rfl
    have hkept : (if f.isShared then found.kept else found.kept ++ [f.strip]) =
        found.kept ++ if f.isShared then [] else [f.strip] := by
      cases f.isShared <;> simp
    rw [if_pos rfl, f.ofAttributes_eq hf]
    simp only [bind, Except.bind, herrors, hlength, hschema, hkept, Bool.true_and]
    rfl

theorem add_of_not_readable (found : Findings) {f : SourceField} (hf : ¬ f.Readable) :
    ∃ e, found.add c f = .error e := by
  have hd : f.isDivided := by
    by_contra hd
    exact hf (f.readable_of_not_isDivided (Bool.eq_false_iff.mpr hd))
  have hstops : ∃ a ∈ f.attributes, ¬ a.stops = false := by
    simpa [SourceField.Readable] using hf
  obtain ⟨e, he⟩ := exists_foldlM_eq_error HelperAttributes.add (·.stops = false)
    (fun h _ ha => ⟨_, h.add_eq ha⟩) (fun h _ ha => h.add_of_stops ha)
    { errors := found.errors } hstops
  exact ⟨e, by rw [add, if_pos hd, HelperAttributes.ofAttributes, he]; rfl⟩

/-- A run adds up what the fields say, each on its own. -/
theorem foldlM_add (found : Findings) {fs : List SourceField} (hfs : ∀ f ∈ fs, f.Readable) :
    fs.foldlM (add c) found = .ok {
      schemas := found.schemas ++ fs.filterMap (SourceField.schema? c)
      kept := found.kept ++ (fs.filter (!·.isShared)).map SourceField.strip
      rejected := found.rejected || fs.any fun f => f.isDivided && (f.schema? c).isNone
      errors := found.errors ++ fs.flatMap SourceField.errors } := by
  induction fs generalizing found with
  | nil => simp [pure, Except.pure]
  | cons f fs ih =>
    obtain ⟨hf, hfs⟩ := List.forall_mem_cons.mp hfs
    rw [List.foldlM_cons, add_eq found hf]
    refine (ih _ hfs).trans ?_
    cases hs : f.schema? c <;> cases hshared : f.isShared <;>
      simp [hs, hshared, Bool.or_assoc]

theorem foldlM_add_of_not_readable (found : Findings) {fs : List SourceField}
    (hfs : ∃ f ∈ fs, ¬ f.Readable) : ∃ e, fs.foldlM (add c) found = .error e :=
  exists_foldlM_eq_error (add c) SourceField.Readable
    (fun found _ hf => ⟨_, found.add_eq hf⟩) (fun found _ hf => found.add_of_not_readable hf)
    found hfs

end Findings

end PackedFields
