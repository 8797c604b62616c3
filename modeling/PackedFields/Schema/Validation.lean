import PackedFields.Diagnostic
import PackedFields.Schema.Allocation

/-!
# Validation

Members are generated only for a schema that `validate` has nothing to say against, not even a
warning. Each check stands on its own: none hides what another one finds.
-/

namespace PackedFields

/-- What is wrong with a container, whatever its fields are. -/
def Container.issues (c : Container) : List Diagnostic :=
  (match c.visibility with
    | .unrecognized text => [⟨.visibility c.name text, c.place⟩]
    | .known _ => []) ++
  if c.extensible then [] else [⟨.notExtensible c.name, c.place⟩]

/-- The warning for a container without a field that has sub-fields. -/
def Container.emptyWarning (c : Container) : Diagnostic := ⟨.noFields c.name, c.place⟩

namespace Schema

/-- What is wrong with a field that is shared: there must be an atomic type for it. -/
def sharingIssues (s : Schema) : List Diagnostic :=
  if s.shared && s.backing.atomic?.isNone then [⟨.noAtomic s.field s.backing, s.place⟩] else []

/-- What is wrong if the sub-fields do not fit the backing integer. The first sub-field that
reaches past the end gets the blame. -/
def capacityIssues (s : Schema) : List Diagnostic :=
  match s.slots.find? fun slot => s.backing.bits < slot.stop with
  | some first =>
    [⟨.overflow s.field s.backing (totalBits s.subFields) first.subField.name first.offset,
      first.subField.place⟩]
  | none => []

/-- What is wrong with the width of a sub-field. -/
def widthIssues (d : SubField) : List Diagnostic :=
  match d.kind with
  | .bool => []
  | .int t =>
    if d.width = 0 then [⟨.zeroWidth d.name, d.place⟩]
    else if t.bits < d.width then [⟨.wide d.name d.width t, d.place⟩]
    else []

/-- What is wrong with the name of a sub-field whose name is new. `before` are the earlier names
that were new themselves, the latest first. -/
def freshNameIssues (s : Schema) (before : List Name) (d : SubField) : List Diagnostic :=
  (match before.find? (·.parameter.text = d.name.parameter.text) with
    | some first => [⟨.sameParameter first d.name d.name.parameter.text, d.place⟩]
    | none => []) ++
  (if d.name.text = s.mutatorName.text then [⟨.namedAsMutator d.name s.mutatorName, d.place⟩]
    else []) ++
  (if s.shared ∧ d.name.text = s.field.text then [⟨.namedAsField d.name s.field, d.place⟩]
    else [])

/-- What is wrong with the names of sub-fields, after sub-fields of the names `seen`, of which the
names `fresh` were new when they came; both lists have the latest first. -/
def nameIssuesFrom (s : Schema) (seen fresh : List Name) : List SubField → List Diagnostic
  | [] => []
  | d :: ds =>
    match seen.find? (·.text = d.name.text) with
    | some first =>
      ⟨.declaredTwice d.name s.field first, d.place⟩ ::
        s.nameIssuesFrom (d.name :: seen) fresh ds
    | none =>
      s.freshNameIssues fresh d ++ s.nameIssuesFrom (d.name :: seen) (d.name :: fresh) ds

/-- What is wrong with the names of the sub-fields: two of them, or the parameters for them, have
the same text, or one of them is called like another member. -/
def nameIssues (s : Schema) : List Diagnostic := s.nameIssuesFrom [] [] s.subFields

/-- What is wrong with the sub-fields. Without any there is nothing to check. -/
def subFieldIssues (s : Schema) : List Diagnostic :=
  if s.subFields.isEmpty then [⟨.noSubFields s.field, s.place⟩]
  else s.capacityIssues ++ s.subFields.flatMap widthIssues ++ s.nameIssues

/-- All that is wrong with a schema. -/
def validate (s : Schema) : List Diagnostic :=
  s.container.issues ++ s.sharingIssues ++ s.subFieldIssues

end Schema

end PackedFields
