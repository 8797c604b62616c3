import PackedFields.Front.HelperAttribute
import PackedFields.Session

/-!
# Discovery

An annotated item is taken apart into a container, the schemas of its backing fields, and the item
as it is to be written back: without the helper attributes, and without the fields that are shared,
which have no place in an instance.

The fields of a struct are looked at one after another (`Findings.add`). What is wrong with any of
them goes to one list, which starts with what is wrong with the arguments; a field is as it should
be if the list does not grow on its account.
-/

namespace PackedFields

/-- The field without helper attributes. -/
def SourceField.strip (f : SourceField) : SourceField :=
  { f with attributes := HelperAttributes.strip f.attributes }

/-- Whether a field carries helper attributes. -/
def SourceField.isDivided (f : SourceField) : Bool := f.attributes.any Attribute.isHelper

/-- What has been found in the fields of a struct so far. -/
structure Findings where
  /-- The schemas of the backing fields, in order. -/
  schemas : List Schema := []
  /-- The fields as they are written back, less those that are left out. -/
  kept : List SourceField := []
  /-- Whether some field carries helper attributes and has no schema. -/
  rejected : Bool := false
  /-- What is wrong, in order. -/
  errors : List SyntaxError := []
  deriving Repr, Inhabited

namespace Findings

/-- What is wrong with the type of a backing field. -/
def typeErrors (t : SourceType) : List SyntaxError :=
  if (IntType.ofSource? t).isSome then [] else [⟨.backingType, t.place⟩]

/-- The schema of a field, given what its helper attributes say. -/
def schema? (c : Container) (f : SourceField) (h : HelperAttributes) : Option Schema := do
  let backing ← IntType.ofSource? f.type
  let (field, place) ← f.name
  some { field, place, backing, shared := h.shared, subFields := h.subFields, container := c }

/-- Looks at one more field of the container `c`. -/
def add (c : Container) (found : Findings) (f : SourceField) : Except SyntaxError Findings :=
  if f.isDivided then do
    let h ← HelperAttributes.ofAttributes f.attributes found.errors
    let errors := h.errors ++ typeErrors f.type
    let schema := if errors.length = found.errors.length then schema? c f h else none
    return {
      schemas := found.schemas ++ schema.toList
      kept := if h.shared then found.kept else found.kept ++ [f.strip]
      rejected := found.rejected || schema.isNone
      errors }
  else .ok { found with kept := found.kept ++ [f] }

end Findings

/-- What is found in an annotated item. -/
structure Discovery where
  /-- The container. -/
  container : Container
  /-- The schemas of the backing fields, in order. -/
  schemas : List Schema
  /-- Whether some field carries helper attributes and has no schema. -/
  rejected : Bool
  /-- What is wrong with the arguments and the fields, in order. -/
  errors : List SyntaxError
  /-- The item as it is written back. -/
  item : Item
  deriving Repr, Inhabited

namespace Discovery

/-- The container that an item with the given head is. -/
def containerOf (h : ItemHead) : Container where
  name := h.name
  place := h.place
  visibility := .ofSource h.visibility

/-- What is found in an item that cannot get members. -/
def notExtensible (h : ItemHead) (item : Item) (earlier : List SyntaxError) : Discovery where
  container := { containerOf h with extensible := false }
  schemas := []
  rejected := false
  errors := earlier
  item := item

/-- The container that a struct with named fields is. -/
def structContainer (h : ItemHead) : Container := { containerOf h with generics := h.generics }

/-- What is found in a struct with the given fields. -/
def ofFields (h : ItemHead) (fs : List SourceField) (earlier : List SyntaxError) :
    Except SyntaxError Discovery := do
  let c := structContainer h
  let found ← fs.foldlM (Findings.add c) { errors := earlier }
  return {
    container := c
    schemas := found.schemas
    rejected := found.rejected
    errors := found.errors
    item := .struct h (.named found.kept false) }

/-- The variant without helper attributes on its fields. -/
def stripVariant (v : SourceVariant) : SourceVariant :=
  { v with fields := v.fields.map SourceField.strip }

/-- What is found in an item, after what was wrong `earlier`, or nothing for an item of a kind that
has no fields. A marked name in a string literal makes an error of the whole. -/
def ofItem? (item : Item) (earlier : List SyntaxError := []) :
    Except SyntaxError (Option Discovery) :=
  match item with
  | .struct h (.named fs _) => some <$> ofFields h fs earlier
  | .struct h fs =>
    let d := notExtensible h (.struct h (fs.map SourceField.strip)) earlier
    .ok (some { d with container := { d.container with generics := h.generics } })
  | .enum h vs t => .ok (some (notExtensible h (.enum h (vs.map stripVariant) t) earlier))
  | .union h fs => .ok (some (notExtensible h (.union h (fs.map SourceField.strip)) earlier))
  | .other .. => .ok none

/-- The field with documentation of its bits, if members have been generated for it. An empty line
sets it off from other documentation. -/
def documentField (outputs : List FieldOutput) (f : SourceField) : SourceField :=
  match outputs.find? fun o => f.name.map Prod.fst == some o.field with
  | some o =>
    let gap := if f.attributes.any (·.isCalled "doc") then [Attribute.doc ""] else []
    { f with attributes := f.attributes ++ gap ++ o.docs.map Attribute.doc }
  | none => f

/-- The item as it is written back, given what has been generated. -/
def finish (d : Discovery) (outputs : List FieldOutput) : Item :=
  match d.item with
  | .struct h fs => .struct h (fs.map (documentField outputs))
  | i => i

end Discovery

end PackedFields
