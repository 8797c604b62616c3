import PackedFields.IntType
import PackedFields.Syntax.Item
import PackedFields.Token.Printer

/-!
# Schemas

A schema is all that is known about one integer field that is divided into sub-fields: the
declarations of the sub-fields, in order, the field itself, and the container whose members give
access to it.
-/

namespace PackedFields

/-- Who may use the members of a container. -/
inductive Access where
  /-- The module of the container. -/
  | restricted
  /-- The module around it, too. -/
  | enclosing
  /-- The whole crate. -/
  | crate
  /-- Everyone. -/
  | everyone
  deriving DecidableEq, Repr, Inhabited

/-- The tokens that grant an access. -/
def Access.tokens : Access → List Token
  | restricted => []
  | enclosing => SourceVisibility.tokens (.within "super")
  | crate => SourceVisibility.tokens (.within "crate")
  | everyone => SourceVisibility.tokens .everyone

/-- The visibility that a container is declared with, which may be none of the supported ones. -/
inductive Visibility where
  /-- A supported visibility. -/
  | known (access : Access)
  /-- Another visibility, by its text. -/
  | unrecognized (text : String)
  deriving DecidableEq, Repr

instance : Inhabited Visibility := ⟨.known .everyone⟩

namespace Visibility

/-- The visibility that is written in source. To share with oneself is to share with no one. -/
def ofSource : SourceVisibility → Visibility
  | .inherited => known .restricted
  | .everyone => known .everyone
  | .within "crate" => known .crate
  | .within "super" => known .enclosing
  | .within "self" => known .restricted
  | v => unrecognized (Token.print v.tokens)

/-- The access that members get, if the visibility is a supported one. -/
def access? : Visibility → Option Access
  | known a => some a
  | unrecognized _ => none

end Visibility

/-- The type that gets the generated members. -/
structure Container where
  /-- The name of the type. -/
  name : Name
  /-- The place of the name. -/
  place : Span
  /-- The visibility that the type is declared with. -/
  visibility : Visibility
  /-- Whether members may be attached to the type at all. -/
  extensible : Bool := true
  /-- The module that the type lives in, if the members are written elsewhere. -/
  module : Option Path := none
  /-- The generic parameters of the type. -/
  generics : Generics := {}
  deriving Repr, Inhabited

/-- The tokens that name the type of a container. -/
def Container.typePath (c : Container) : List Token :=
  (match c.module with
    | some m => m.tokens ++ Code.pathSep
    | none => []) ++ [Code.name c.name]

/-- The declaration of a sub-field. -/
structure SubField where
  /-- What the sub-field reads back as. -/
  kind : Kind
  /-- The declared width in bits. A truth value has one bit, whatever is declared. -/
  width : Nat
  /-- The name of the sub-field. -/
  name : Name
  /-- The place to which complaints about the sub-field point. -/
  place : Span := .nowhere
  deriving DecidableEq, Repr, Inhabited

/-- The number of bits that a sub-field takes. -/
def SubField.bits (d : SubField) : Nat :=
  match d.kind with
  | .bool => 1
  | .int _ => d.width

/-- An integer field that is divided into sub-fields. -/
structure Schema where
  /-- The name of the field. -/
  field : Name
  /-- The place of the name. -/
  place : Span := .nowhere
  /-- The type of the field. -/
  backing : IntType
  /-- Whether all instances of the container share one value. -/
  shared : Bool := false
  /-- The sub-fields, from the lowest bit up. -/
  subFields : List SubField := []
  /-- The container whose members give access to the sub-fields. -/
  container : Container
  deriving Repr, Inhabited

namespace Schema

/-- The name of the member that replaces the whole value. -/
def mutatorName (s : Schema) : Name := ⟨"set_" ++ s.field.text, false⟩

/-- The name of the member that holds a shared value. -/
def cellName (s : Schema) : Name := ⟨"__" ++ s.field.text ++ "_cell", false⟩

end Schema

end PackedFields
