import PackedFields.Proofs.ItemReports

/-!
# What becomes of an item

An expansion writes the item back. Of a struct with named fields it leaves out the fields that are
shared; all others keep their order and all they have but the helper attributes, and those that
members are generated for have the documentation of their bits at the end. Members and fields are
brought together by name, so this takes fields of different names (`SourceField.find?_outputs`). Of
any other item nothing is taken but the helper attributes of its fields. What is wrong with the
arguments or with some field makes no difference.
-/

namespace PackedFields

/-! ## Attributes -/

namespace Attribute

theorem isHelper_doc (line : String) : (doc line).isHelper = false := rfl

theorem isHelper_of_isDoc {a : Attribute} (h : a.isCalled "doc") : a.isHelper = false := by
  have hpath : a.path = ⟨false, [⟨"doc", false⟩]⟩ := beq_iff_eq.mp h
  rw [isHelper, isBitField, isShared, isCalled, isCalled, hpath]
  decide

end Attribute

namespace HelperAttributes

theorem isHelper_of_mem_strip {as : List Attribute} {a : Attribute} (h : a ∈ strip as) :
    a.isHelper = false := by
  simpa using (List.mem_filter.mp h).2

/-- Whether there is documentation does not depend on helper attributes. -/
theorem any_isDoc_strip (as : List Attribute) :
    (strip as).any (·.isCalled "doc") = as.any (·.isCalled "doc") := by
  rw [strip, List.any_filter]
  congr 1
  funext a
  cases hdoc : a.isCalled "doc" with
  | false => rw [Bool.and_false]
  | true => rw [Attribute.isHelper_of_isDoc hdoc]; rfl

end HelperAttributes

/-! ## Fields -/

namespace FieldOutput

/-- The attributes that show the bits of a field, after others that document it if `documented`. -/
def documentation (o : FieldOutput) (documented : Bool) : List Attribute :=
  (if documented then [Attribute.doc ""] else []) ++ o.docs.map Attribute.doc

theorem isHelper_of_mem_documentation {o : FieldOutput} {documented : Bool} {a : Attribute}
    (h : a ∈ o.documentation documented) : a.isHelper = false := by
  rw [documentation, List.mem_append] at h
  rcases h with h | h
  · split_ifs at h
    · rw [List.mem_singleton.mp h]
      exact Attribute.isHelper_doc ""
    · cases h
  · obtain ⟨line, -, rfl⟩ := List.mem_map.mp h
    exact Attribute.isHelper_doc line

end FieldOutput

namespace Schema

variable {s : Schema} {o : FieldOutput}

theorem generate_eq_ok (h : s.generate = .ok o) :
    o.field = s.field ∧ o.docs = Diagram.docs s.backing s.slots := by
  obtain ⟨-, block, -, rfl⟩ := generate_eq_ok_iff.mp h
  exact ⟨rfl, rfl⟩

end Schema

namespace SourceField

/-- The name of the field, without its place. -/
def key (f : SourceField) : Option Name := f.name.map Prod.fst

variable {c : Container} {f : SourceField} {o : FieldOutput}

theorem key_of_output? (h : f.output? c = some o) : f.key = some o.field := by
  obtain ⟨s, hs, hgenerate⟩ := exists_hasSchema_of_output? h
  rw [key, hs.name, (Schema.generate_eq_ok hgenerate).1]
  rfl

theorem docs_ne_nil_of_output? (h : f.output? c = some o) : o.docs ≠ [] := by
  obtain ⟨s, -, hgenerate⟩ := exists_hasSchema_of_output? h
  rw [(Schema.generate_eq_ok hgenerate).2]
  exact List.cons_ne_nil _ _

/-- What fields of different names compile to is found by their names. -/
theorem find?_outputs {fs : List SourceField} (hnames : (fs.map key).Nodup) (hf : f ∈ fs) :
    (outputs c fs).find? (fun o => f.key == some o.field) = f.output? c := by
  induction fs with
  | nil => cases hf
  | cons g fs ih =>
    obtain ⟨hg, hnames⟩ := List.nodup_cons.mp hnames
    -- the field is the one in front, or the one in front has another name and is passed over
    rcases List.mem_cons.mp hf with rfl | hf
    · cases hout : f.output? c with
      | some o =>
        rw [outputs, List.filterMap_cons_some hout, List.find?_cons_of_pos]
        simpa using key_of_output? hout
      | none =>
        rw [outputs, List.filterMap_cons_none hout, List.find?_eq_none]
        intro o ho hname
        obtain ⟨g, hmem, hgo⟩ := List.mem_filterMap.mp ho
        exact hg (List.mem_map.mpr ⟨g, hmem, (key_of_output? hgo).trans (beq_iff_eq.mp hname).symm⟩)
    · have hne : f.key ≠ g.key := fun heq => hg (heq ▸ List.mem_map_of_mem hf)
      cases hout : g.output? c with
      | some o =>
        rw [outputs, List.filterMap_cons_some hout, List.find?_cons_of_neg]
        · exact ih hnames hf
        · simpa [← key_of_output? hout] using hne
      | none =>
        rw [outputs, List.filterMap_cons_none hout]
        exact ih hnames hf

/-- Whether `w` is what becomes of the field, a field of the container `c`. -/
structure BecomesIn (c : Container) (f w : SourceField) : Prop where
  /-- The visibility stays. -/
  visibility : w.visibility = f.visibility
  /-- The name stays. -/
  name : w.name = f.name
  /-- The type stays. -/
  type : w.type = f.type
  /-- If nothing is generated for the field, the other attributes stay, and no more than these. -/
  undocumented : f.output? c = none → w.attributes = HelperAttributes.strip f.attributes
  /-- If members are generated for the field, their documentation comes after the other
  attributes. -/
  documented : ∀ o, f.output? c = some o → o.docs ≠ [] ∧
    w.attributes = HelperAttributes.strip f.attributes ++
      o.documentation (f.attributes.any (·.isCalled "doc"))
  /-- No helper attribute is left. -/
  clean : ∀ a ∈ w.attributes, a.isHelper = false

theorem documentField_strip (outs : List FieldOutput) (f : SourceField) :
    Discovery.documentField outs f.strip =
      match outs.find? fun o => f.key == some o.field with
      | some o => { f with attributes := HelperAttributes.strip f.attributes ++
                    o.documentation (f.attributes.any (·.isCalled "doc")) }
      | none => f.strip := by
  rw [Discovery.documentField]
  change (match outs.find? fun o => f.key == some o.field with
    | some o => _
    | none => _) = _
  cases outs.find? fun o => f.key == some o.field with
  | none => rfl
  | some o =>
    show ({ f with attributes := HelperAttributes.strip f.attributes ++ ite _ _ _ ++ _ } :
      SourceField) = _
    have hdoc : f.strip.attributes.any (·.isCalled "doc") = f.attributes.any (·.isCalled "doc") :=
      HelperAttributes.any_isDoc_strip f.attributes
    rw [hdoc, List.append_assoc]
    rfl

theorem becomesIn_documentField {fs : List SourceField} (hnames : (fs.map key).Nodup)
    (hf : f ∈ fs) : f.BecomesIn c (Discovery.documentField (outputs c fs) f.strip) := by
  rw [documentField_strip, find?_outputs hnames hf]
  cases hout : f.output? c with
  | none =>
    refine ⟨rfl, rfl, rfl, fun _ => rfl, fun o ho => ?_, fun a ha => ?_⟩
    · rw [hout] at ho
      cases ho
    · exact HelperAttributes.isHelper_of_mem_strip ha
  | some o =>
    refine ⟨rfl, rfl, rfl, fun hnone => ?_, fun o' ho => ?_, fun a ha => ?_⟩
    · rw [hout] at hnone
      cases hnone
    · rw [hout] at ho
      cases ho
      exact ⟨docs_ne_nil_of_output? hout, rfl⟩
    · rcases List.mem_append.mp ha with ha | ha
      · exact HelperAttributes.isHelper_of_mem_strip ha
      · exact FieldOutput.isHelper_of_mem_documentation ha

end SourceField

/-! ## Items -/

/-- Without members nothing is documented. -/
theorem Discovery.finish_nil (d : Discovery) : d.finish [] = d.item := by
  have hdocument : documentField [] = id := rfl
  rw [finish]
  split
  · next fs hitem => cases fs <;> simp [hitem, hdocument, SourceFields.map]
  · rfl

open Discovery (structContainer)

/-- Whether `i` is what becomes of the item. -/
def Item.Becomes (item i : Item) : Prop :=
  match item with
  | .struct h (.named fs _) => ∃ ws, i = .struct h (.named ws false) ∧
      List.Forall₂ (SourceField.BecomesIn (structContainer h)) (fs.filter (!·.isShared)) ws
  | .struct h fs => i = .struct h (fs.map SourceField.strip)
  | .enum h vs trailing => i = .enum h (vs.map Discovery.stripVariant) trailing
  | .union h fs => i = .union h (fs.map SourceField.strip)
  | .other .. => i = item

namespace Expansion

theorem item_tokens_isPrefix (e : Expansion) : e.item.tokens <+: e.tokens :=
  ⟨e.diagnostics.flatMap Diagnostic.tokens ++ e.output.tokens ++
    e.errors.flatMap SyntaxError.tokens, by simp only [tokens, List.append_assoc]⟩

variable (arguments : List Token)

/-- What becomes of a struct whose fields can be read. -/
theorem struct_becomes {h : ItemHead} {fs : List SourceField}
    (hnames : (fs.map SourceField.key).Nodup) (hfs : ∀ f ∈ fs, f.Readable) (trailing : Bool) :
    ∃ e, ofItem arguments (.struct h (.named fs trailing)) = .ok e ∧
      (Item.struct h (.named fs trailing)).Becomes e.item ∧
      e.output.fields = SourceField.outputs (structContainer h) fs := by
  refine ⟨_, ofItem_struct_eq arguments hfs trailing, ?_, fields_ofReadable _ h fs _⟩
  rw [item_ofDiscovery]
  refine ⟨_, rfl, ?_⟩
  rw [List.forall₂_map_right_iff, List.forall₂_map_right_iff, List.forall₂_same]
  intro f hf
  show f.BecomesIn _ (Discovery.documentField (Container.outputs (fs.filterMap _)) f.strip)
  rw [SourceField.outputs_filterMap_schema?]
  exact SourceField.becomesIn_documentField hnames (List.mem_filter.mp hf).1

/-- An expansion starts with the item, and whatever is wrong with the arguments or with fields, no
more is changed in it than is to be. Of a struct whose fields have different names the fields that
carry a bare marker are left out, and the others keep all but their helper attributes; the bits of
those that members are generated for are documented. Of other items just the helper attributes of
fields are taken. There is an expansion just in case no field has a marked name in a string
literal. -/
theorem item_becomes {item : Item}
    (hnames : ∀ fs, item.namedFields? = some fs → (fs.map SourceField.key).Nodup) :
    (∃ e, ofItem arguments item = .ok e ∧ item.Becomes e.item ∧ e.item.tokens <+: e.tokens ∧
      ∀ h fs trailing, item = .struct h (.named fs trailing) →
        e.output.fields = SourceField.outputs (structContainer h) fs) ↔
      item.Readable := by
  constructor
  · rintro ⟨e, he, -⟩
    exact readable_of_ofItem_eq_ok arguments he
  · intro hitem
    match item with
    | .struct h (.named fs trailing) =>
      obtain ⟨e, he, hbecomes, hfields⟩ :=
        struct_becomes arguments (h := h) (hnames fs rfl) hitem trailing
      refine ⟨e, he, hbecomes, item_tokens_isPrefix e, ?_⟩
      rintro _ _ _ ⟨⟩
      exact hfields
    | .struct _ (.tuple ..) | .struct _ .unit | .enum .. | .union .. =>
      refine ⟨_, rfl, ?_, item_tokens_isPrefix _, ?_⟩
      · rw [item_ofDiscovery]
        exact Discovery.finish_nil _
      · rintro _ _ _ ⟨⟩
    | .other .. =>
      refine ⟨_, rfl, rfl, item_tokens_isPrefix _, ?_⟩
      rintro _ _ _ ⟨⟩

end Expansion

namespace Sample

/-- A shared byte. -/
def sharedByte : SourceField :=
  byte "x" [declaration (Code.word "low"), ⟨.ofName ⟨"shared", false⟩, .nowhere, .bare, .nowhere⟩]

/-- A byte with documentation of its own. -/
def documentedByte : SourceField :=
  byte "y" [Attribute.doc "half", declaration (Code.word "low")]

/-- A struct of which one field is shared, one is divided and one is not. -/
def keeper : Item := structOf [sharedByte, documentedByte, byte "z" []]

theorem readable_keeper : keeper.Readable := by
  have hall : ∀ f ∈ [sharedByte, documentedByte, byte "z" []],
      ∀ a ∈ SourceField.attributes f, a.stops = false := by decide
  exact hall

theorem nodup_key_keeper :
    ∀ fs, keeper.namedFields? = some fs → (fs.map SourceField.key).Nodup := by
  rintro _ ⟨⟩
  decide

end Sample

open Sample

theorem Expansion.item_becomes_keeper :
    ∃ e y z lines, ofItem [] keeper = .ok e ∧
      e.item = .struct (head "D" .inherited) (.named [y, z] false) ∧ lines ≠ [] ∧
      y.attributes = Attribute.doc "half" :: Attribute.doc "" :: lines.map Attribute.doc ∧
      z.attributes = [] := by
  obtain ⟨e, he, hbecomes, -⟩ := (item_becomes [] nodup_key_keeper).mpr readable_keeper
  obtain ⟨ws, hitem, hws⟩ := hbecomes
  change List.Forall₂ _ [documentedByte, byte "z" []] ws at hws
  obtain _ | ⟨hy, _ | ⟨hz, ⟨⟩⟩⟩ := hws
  have hout : (documentedByte.output? (structContainer (head "D" .inherited))).isSome := by decide
  obtain ⟨o, ho⟩ := Option.isSome_iff_exists.mp hout
  obtain ⟨hlines, hattributes⟩ := hy.documented o ho
  exact ⟨e, _, _, o.docs, he, hitem, hlines, hattributes, hz.undocumented rfl⟩

/-- Of an item with a marked name nothing is written back. -/
theorem Expansion.marked_text_drops_item :
    (∃ fs, (structOf [halfByte "x" (Code.string "r#type")]).namedFields? = some fs ∧
        (fs.map SourceField.key).Nodup) ∧
      ∀ e, ofItem [] (structOf [halfByte "x" (Code.string "r#type")]) ≠ .ok e := by
  refine ⟨⟨_, rfl, by decide⟩, fun e he => ?_⟩
  have hreadable := readable_of_ofItem_eq_ok [] he
  exact not_readable_halfByte "x" (hreadable _ (List.mem_singleton.mpr rfl))

end PackedFields
