import PackedFields.Front.Expansion
import PackedFields.Proofs.Fields
import PackedFields.Proofs.Reports

/-!
# Fields are compiled on their own

What is generated for a field depends on the field and on the head of the struct, and on nothing
else: not on the other fields, on what is wrong with them, or on what is wrong with the arguments
(`SourceField.output?`). An expansion has the members of all fields in order, publishes their
layouts if there are any, and reports what is wrong with each of them after what is wrong with the
arguments, whichever way it comes about.

All this holds of structs whose fields can be read. A field with a marked name in a string literal
leaves nothing of the expansion, not even what belongs to other fields.
-/

namespace PackedFields

/-! ## Containers -/

namespace Container

/-- What is published for a container with the given fields. -/
def published? (c : Container) (crate : Path) (outputs : List FieldOutput) : Option Metadata :=
  if outputs.isEmpty then none else some ⟨c, crate, outputs.map FieldOutput.layout⟩

/-- The tokens that publish the layouts of the given fields, if there are any: the trait is
implemented for the container, by a constant that lists the layouts in order. -/
def publication (c : Container) (crate : Path) (outputs : List FieldOutput) : List Token :=
  if outputs.isEmpty then []
  else
    MemberBlock.head c (Metadata.provided crate "BitDivisible" ++ [Code.word "for"]) ++
      [Code.braces ([Code.word "const", Code.word "LAYOUT", Code.sign ':', Code.sign '&'] ++
        Code.lifetime "static" ++
        [Code.brackets (Metadata.provided crate "BackingFieldLayout"), Code.sign '=',
          Code.sign '&',
          Code.brackets (Code.commas (outputs.map fun o => Metadata.ofField crate o.layout)),
          Code.sign ';'])]

theorem tokens_published? (c : Container) (crate : Path) (outputs : List FieldOutput) :
    (c.published? crate outputs).toList.flatMap Metadata.tokens = c.publication crate outputs := by
  rw [published?, publication]
  split_ifs
  · rfl
  · rw [Option.toList_some, List.flatMap_singleton, Metadata.tokens, Metadata.slice, List.map_map]
    rfl

/-- A container without fields has the output of a run over no schemas. -/
theorem output_generate (c : Container) (crate : Path) (schemas : List Schema) :
    (c.generate crate schemas).fields = outputs schemas ∧
      (c.generate crate schemas).metadata = c.published? crate (outputs schemas) := by
  rw [generate]
  split
  · next hempty =>
    rw [List.isEmpty_iff.mp hempty]
    exact ⟨rfl, rfl⟩
  · exact ⟨rfl, rfl⟩

end Container

/-! ## Fields -/

namespace SourceField

/-- What is generated for the field, a field of the container `c`. -/
def output? (c : Container) (f : SourceField) : Option FieldOutput :=
  (f.schema? c).bind fun s => s.generate.toOption

variable {c : Container} {f : SourceField}

theorem output?_of_hasSchema {s : Schema} (h : f.HasSchema c s) :
    f.output? c = s.generate.toOption := by
  rw [output?, schema?_eq_some_iff.mpr h]
  rfl

theorem exists_hasSchema_of_output? {o : FieldOutput} (h : f.output? c = some o) :
    ∃ s, f.HasSchema c s ∧ s.generate = .ok o := by
  obtain ⟨s, hs, ho⟩ := Option.bind_eq_some_iff.mp h
  refine ⟨s, schema?_eq_some_iff.mp hs, ?_⟩
  cases hgenerate : s.generate with
  | ok o' =>
    rw [hgenerate] at ho
    cases ho
    rfl
  | error ds =>
    rw [hgenerate] at ho
    cases ho

/-- A field that is as it should be compiles to something just in case its schema is accepted. -/
theorem isSome_output?_iff :
    (f.output? c).isSome ↔ ∃ s, f.HasSchema c s ∧ s.validate = [] := by
  constructor
  · intro h
    obtain ⟨o, ho⟩ := Option.isSome_iff_exists.mp h
    obtain ⟨s, hs, hgenerate⟩ := exists_hasSchema_of_output? ho
    refine ⟨s, hs, ?_⟩
    by_contra hinvalid
    rw [s.generate_of_validate_ne_nil hinvalid] at hgenerate
    cases hgenerate
  · rintro ⟨s, hs, hvalid⟩
    obtain ⟨o, ho⟩ := s.generate_of_validate_eq_nil hvalid
    rw [output?_of_hasSchema hs, ho]
    rfl

/-- What the fields of a container compile to, each on its own. -/
def outputs (c : Container) (fs : List SourceField) : List FieldOutput := fs.filterMap (output? c)

theorem outputs_append (c : Container) (fs gs : List SourceField) :
    outputs c (fs ++ gs) = outputs c fs ++ outputs c gs :=
  List.filterMap_append

theorem outputs_filterMap_schema? (c : Container) (fs : List SourceField) :
    Container.outputs (fs.filterMap (schema? c)) = outputs c fs := by
  rw [Container.outputs, List.filterMap_filterMap]
  rfl

end SourceField

/-! ## Discoveries -/

namespace Discovery

/-- What is found in a struct whose fields can be read. -/
def ofReadable (h : ItemHead) (fs : List SourceField) (earlier : List SyntaxError) :
    Discovery where
  container := structContainer h
  schemas := fs.filterMap (SourceField.schema? (structContainer h))
  rejected := fs.any fun f => f.isDivided && (f.schema? (structContainer h)).isNone
  errors := earlier ++ fs.flatMap SourceField.errors
  item := .struct h (.named ((fs.filter (!·.isShared)).map SourceField.strip) false)

variable {h : ItemHead} {fs : List SourceField}

theorem ofFields_eq (hfs : ∀ f ∈ fs, f.Readable) (earlier : List SyntaxError) :
    ofFields h fs earlier = .ok (ofReadable h fs earlier) := by
  rw [ofFields, Findings.foldlM_add _ hfs]
  rfl

theorem ofFields_of_not_readable (hfs : ¬ ∀ f ∈ fs, f.Readable) (earlier : List SyntaxError) :
    ∃ e, ofFields h fs earlier = .error e := by
  have hstops : ∃ f ∈ fs, ¬ f.Readable := by simpa using hfs
  have hrun : ∃ e, fs.foldlM (Findings.add (structContainer h)) { errors := earlier } = .error e :=
    Findings.foldlM_add_of_not_readable _ hstops
  obtain ⟨e, he⟩ := hrun
  exact ⟨e, by rw [ofFields, he]; rfl⟩

end Discovery

/-! ## Expansions -/

/-- What stands in an expansion for an error: its message in an invocation of `compile_error!`. -/
def SyntaxError.reported (e : SyntaxError) : List Token :=
  Code.rootPath ["core", "compile_error"] ++ [Code.sign '!', Code.braces [Code.string e.message]]

/-- Whether no field of the item stops the run, which only those of a struct with named fields
could. -/
def Item.Readable : Item → Prop
  | .struct _ (.named fs _) => ∀ f ∈ fs, f.Readable
  | _ => True

namespace Expansion

/-- The tokens of an expansion, with those for each field, for what is published, and for what is
wrong. -/
theorem tokens_eq (e : Expansion) :
    e.tokens = e.item.tokens ++ e.diagnostics.flatMap Diagnostic.tokens ++
      e.output.fields.flatMap FieldOutput.tokens ++
      e.output.metadata.toList.flatMap Metadata.tokens ++
      e.errors.flatMap SyntaxError.reported := by
  have herrors : e.errors.flatMap SyntaxError.tokens = e.errors.flatMap SyntaxError.reported := rfl
  rw [tokens, ContainerOutput.tokens, herrors]
  cases e.output.metadata <;> simp

section

variable (crate : Path) (d : Discovery)

/-- What is generated depends on the schemas only, not on whether some fields have none. -/
theorem output_ofDiscovery :
    (ofDiscovery crate d).output.fields = Container.outputs d.schemas ∧
      (ofDiscovery crate d).output.metadata =
        d.container.published? crate (Container.outputs d.schemas) := by
  rw [ofDiscovery]
  split
  · next hnone =>
    rw [List.isEmpty_iff.mp (Bool.and_eq_true_iff.mp hnone).1]
    exact ⟨rfl, rfl⟩
  · exact d.container.output_generate crate d.schemas

theorem errors_ofDiscovery : (ofDiscovery crate d).errors = d.errors := by
  rw [ofDiscovery]
  split <;> rfl

theorem item_ofDiscovery :
    (ofDiscovery crate d).item = d.finish (Container.outputs d.schemas) := by
  rw [← (output_ofDiscovery crate d).1, ofDiscovery]
  split <;> rfl

end

variable (arguments : List Token) {h : ItemHead} {fs : List SourceField}

theorem ofItem_struct (trailing : Bool) :
    ofItem arguments (.struct h (.named fs trailing)) =
      ofDiscovery (ContainerArguments.ofTokens arguments).1.crate <$>
        Discovery.ofFields h fs (ContainerArguments.ofTokens arguments).2 := by
  rw [ofItem]
  obtain ⟨args, wrong⟩ := ContainerArguments.ofTokens arguments
  have hfound : Discovery.ofItem? (.struct h (.named fs trailing)) wrong =
      some <$> Discovery.ofFields h fs wrong := rfl
  simp only [hfound]
  cases Discovery.ofFields h fs wrong <;> rfl

theorem ofItem_struct_eq (hfs : ∀ f ∈ fs, f.Readable) (trailing : Bool) :
    ofItem arguments (.struct h (.named fs trailing)) =
      .ok (ofDiscovery (ContainerArguments.ofTokens arguments).1.crate
        (.ofReadable h fs (ContainerArguments.ofTokens arguments).2)) := by
  rw [ofItem_struct, Discovery.ofFields_eq hfs]
  rfl

theorem ofItem_struct_of_not_readable (hfs : ¬ ∀ f ∈ fs, f.Readable) (trailing : Bool) :
    ∃ e, ofItem arguments (.struct h (.named fs trailing)) = .error e := by
  obtain ⟨e, he⟩ := Discovery.ofFields_of_not_readable (h := h) hfs
    (ContainerArguments.ofTokens arguments).2
  exact ⟨e, by rw [ofItem_struct, he]; rfl⟩

/-- Only of an item that can be read is there an expansion. -/
theorem readable_of_ofItem_eq_ok {item : Item} {e : Expansion}
    (he : ofItem arguments item = .ok e) : item.Readable := by
  match item with
  | .struct h (.named fs trailing) =>
    show ∀ f ∈ fs, f.Readable
    by_contra hfs
    obtain ⟨err, herr⟩ := ofItem_struct_of_not_readable arguments (h := h) hfs trailing
    rw [herr] at he
    cases he
  | .struct _ (.tuple ..) | .struct _ .unit | .enum .. | .union .. | .other .. => trivial

open Discovery (structContainer)
open SourceField (outputs)

theorem fields_ofReadable (crate : Path) (h : ItemHead) (fs : List SourceField)
    (earlier : List SyntaxError) :
    (ofDiscovery crate (.ofReadable h fs earlier)).output.fields =
      outputs (structContainer h) fs :=
  (output_ofDiscovery _ _).1.trans (SourceField.outputs_filterMap_schema? _ fs)

/-- What comes of a struct whose fields can be read. -/
theorem output_of_struct (hfs : ∀ f ∈ fs, f.Readable) (trailing : Bool) :
    ∃ e, ofItem arguments (.struct h (.named fs trailing)) = .ok e ∧
      e.output.fields = outputs (structContainer h) fs ∧
      e.output.metadata = (structContainer h).published?
        (ContainerArguments.ofTokens arguments).1.crate e.output.fields ∧
      e.errors = (ContainerArguments.ofTokens arguments).2 ++ fs.flatMap SourceField.errors ∧
      e.tokens = e.item.tokens ++ e.diagnostics.flatMap Diagnostic.tokens ++
        (outputs (structContainer h) fs).flatMap FieldOutput.tokens ++
        (structContainer h).publication (ContainerArguments.ofTokens arguments).1.crate
          (outputs (structContainer h) fs) ++ e.errors.flatMap SyntaxError.reported := by
  have hfields := fields_ofReadable (ContainerArguments.ofTokens arguments).1.crate h fs
    (ContainerArguments.ofTokens arguments).2
  obtain ⟨hall, hmetadata⟩ := output_ofDiscovery (ContainerArguments.ofTokens arguments).1.crate
    (.ofReadable h fs (ContainerArguments.ofTokens arguments).2)
  rw [← hall] at hmetadata
  refine ⟨_, ofItem_struct_eq arguments hfs trailing, hfields, hmetadata,
    errors_ofDiscovery _ _, ?_⟩
  rw [tokens_eq, hmetadata, Container.tokens_published?, hfields]
  rfl

/-- The fields of a struct are compiled each on its own. A field compiles to something just in case
it is as it should be and its schema is accepted, and then to what is generated for that schema. An
expansion has what each field compiles to, in order, publishes the layouts of just these fields, and
reports what is wrong with the arguments and then with each field. Its tokens are those of the item
and of the reports on schemas, followed by all that, and the published constant lists the layouts
one by one. Whatever a part of the fields is replaced by, the tokens for the fields before and after
it stay the same. There is an expansion just in case no field has a marked name in a string
literal. -/
theorem fields_compile_alone (h : ItemHead) (fs : List SourceField) (trailing : Bool) :
    (∀ f ∈ fs,
      ((f.output? (structContainer h)).isSome ↔
        ∃ s, f.HasSchema (structContainer h) s ∧ s.validate = []) ∧
      ∀ s, f.HasSchema (structContainer h) s →
        f.output? (structContainer h) = s.generate.toOption) ∧
    ((∃ e, ofItem arguments (.struct h (.named fs trailing)) = .ok e ∧
      e.output.fields = outputs (structContainer h) fs ∧
      e.output.metadata = (structContainer h).published?
        (ContainerArguments.ofTokens arguments).1.crate e.output.fields ∧
      e.errors = (ContainerArguments.ofTokens arguments).2 ++ fs.flatMap SourceField.errors ∧
      e.tokens = e.item.tokens ++ e.diagnostics.flatMap Diagnostic.tokens ++
        (outputs (structContainer h) fs).flatMap FieldOutput.tokens ++
        (structContainer h).publication (ContainerArguments.ofTokens arguments).1.crate
          (outputs (structContainer h) fs) ++ e.errors.flatMap SyntaxError.reported ∧
      ∀ before old new after, fs = before ++ old ++ after → (∀ f ∈ new, f.Readable) →
        ∃ e', ofItem arguments (.struct h (.named (before ++ new ++ after) trailing)) = .ok e' ∧
          e.output.fields = outputs (structContainer h) before ++
            outputs (structContainer h) old ++ outputs (structContainer h) after ∧
          e'.output.fields = outputs (structContainer h) before ++
            outputs (structContainer h) new ++ outputs (structContainer h) after ∧
          e'.tokens = e'.item.tokens ++ e'.diagnostics.flatMap Diagnostic.tokens ++
            ((outputs (structContainer h) before).flatMap FieldOutput.tokens ++
              (outputs (structContainer h) new).flatMap FieldOutput.tokens ++
              (outputs (structContainer h) after).flatMap FieldOutput.tokens) ++
            (structContainer h).publication (ContainerArguments.ofTokens arguments).1.crate
              (outputs (structContainer h) before ++ outputs (structContainer h) new ++
                outputs (structContainer h) after) ++ e'.errors.flatMap SyntaxError.reported) ↔
      ∀ f ∈ fs, f.Readable) := by
  refine ⟨fun f _ => ⟨SourceField.isSome_output?_iff, fun s => SourceField.output?_of_hasSchema⟩,
    ?_, fun hfs => ?_⟩
  · rintro ⟨e, he, -⟩
    exact readable_of_ofItem_eq_ok arguments he
  · obtain ⟨e, he, hfields, hmetadata, herrors, htokens⟩ :=
      output_of_struct arguments (h := h) hfs trailing
    refine ⟨e, he, hfields, hmetadata, herrors, htokens, fun before old new after hsplit hnew => ?_⟩
    -- the fields around the replaced ones can be read as before
    have hchanged : ∀ f ∈ before ++ new ++ after, f.Readable := by
      rw [hsplit] at hfs
      simp only [List.mem_append] at hfs ⊢
      rintro f ((hf | hf) | hf)
      · exact hfs f (.inl (.inl hf))
      · exact hnew f hf
      · exact hfs f (.inr hf)
    obtain ⟨e', he', hfields', -, -, htokens'⟩ :=
      output_of_struct arguments (h := h) hchanged trailing
    rw [SourceField.outputs_append, SourceField.outputs_append] at hfields' htokens'
    rw [List.flatMap_append, List.flatMap_append] at htokens'
    refine ⟨e', he', ?_, hfields', htokens'⟩
    rw [hfields, hsplit, SourceField.outputs_append, SourceField.outputs_append]

end Expansion

/-! ## A field that stops a run -/

namespace Sample

/-- An attribute that declares a sub-field of four bits by the given token. -/
def declaration (name : Token) : Attribute where
  path := .ofName ⟨"bit_field", false⟩
  pathPlace := .nowhere
  input := .list .paren
    [Code.word "u8", Code.sign ',', Code.number 4, Code.sign ',', name] .nowhere .nowhere
  place := .nowhere

/-- A byte with the given attributes. -/
def byte (field : String) (attributes : List Attribute) : SourceField where
  attributes := attributes
  visibility := .inherited
  name := some (⟨field, false⟩, .nowhere)
  type := .name ⟨"u8", false⟩ .nowhere

/-- A byte with a sub-field of four bits, which is declared by the given token. -/
def halfByte (field : String) (name : Token) : SourceField := byte field [declaration name]

/-- The head of an item of the given name. -/
def head (name : String) (visibility : SourceVisibility) : ItemHead :=
  ⟨[], visibility, ⟨name, false⟩, .nowhere, {}⟩

/-- A struct with the given fields. -/
def structOf (fields : List SourceField) : Item :=
  .struct (head "D" .inherited) (.named fields false)

theorem readable_halfByte (field : String) :
    (halfByte field (Code.word "low")).Readable := by
  intro a ha
  rw [List.mem_singleton.mp ha]
  rfl

theorem not_readable_halfByte (field : String) :
    ¬ (halfByte field (Code.string "r#type")).Readable := by
  have hstops : (declaration (Code.string "r#type")).stops = true := by decide +kernel
  intro h
  have hnot := h (declaration (Code.string "r#type")) (List.mem_singleton.mpr rfl)
  rw [hstops] at hnot
  cases hnot

end Sample

open Sample in
/-- A marked name in one field takes away what another field compiles to. -/
theorem Expansion.marked_text_stops_others :
    (∃ e, ofItem [] (structOf [halfByte "x" (Code.word "low")]) = .ok e ∧ e.output.fields ≠ []) ∧
      ∀ e, ofItem [] (structOf [halfByte "x" (Code.word "low"),
        halfByte "y" (Code.string "r#type")]) ≠ .ok e := by
  constructor
  · obtain ⟨e, he, hfields, -⟩ := output_of_struct [] (h := head "D" .inherited)
      (List.forall_mem_singleton.mpr (readable_halfByte "x")) false
    refine ⟨e, he, ?_⟩
    rw [hfields]
    decide
  · intro e he
    have hreadable := readable_of_ofItem_eq_ok [] he
    exact not_readable_halfByte "y" (hreadable _ (by simp))

end PackedFields
