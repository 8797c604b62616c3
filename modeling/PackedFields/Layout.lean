import PackedFields.IntType
import PackedFields.Schema.Allocation

/-!
# Published layouts

A container publishes the layout of its backing integers as data: for each of them the positions
of the sub-fields, by name. The functions here are those that come with the published data.
-/

namespace PackedFields

/-- The position of a sub-field inside its backing integer. -/
structure SubFieldLayout where
  /-- The name of the sub-field, without a mark. -/
  name : String
  /-- The lowest bit. -/
  offset : Nat
  /-- The number of bits. -/
  width : Nat
  deriving DecidableEq, Repr, Inhabited

namespace SubFieldLayout

/-- One past the highest bit. -/
def stop (s : SubFieldLayout) : Nat := s.offset + s.width

/-- The bits of a sub-field, in place. A sub-field as wide as a word has all bits. -/
def mask (s : SubFieldLayout) : Word :=
  if wordBits ≤ s.width then BitVec.allOnes wordBits
  else if s.offset < wordBits then ones s.width <<< s.offset
  else 0

end SubFieldLayout

/-- The positions of the sub-fields of one backing integer. -/
structure FieldLayout where
  /-- The name of the field, without a mark. -/
  name : String
  /-- Whether all instances share one value. -/
  shared : Bool
  /-- The sub-fields, in order. -/
  subFields : List SubFieldLayout
  deriving DecidableEq, Repr, Inhabited

namespace FieldLayout

/-- The number of bits that the sub-fields take. -/
def usedBits (f : FieldLayout) : Nat := f.subFields.foldl (fun total s => total + s.width) 0

/-- The sub-field of the given name. -/
def subField? (f : FieldLayout) (name : String) : Option SubFieldLayout :=
  f.subFields.find? (·.name == name)

/-- The layout of the field of the given name, in the layouts of a container. -/
def find? (layouts : List FieldLayout) (name : String) : Option FieldLayout :=
  layouts.find? (·.name == name)

end FieldLayout

/-- The layout of a schema. -/
def Schema.layout (s : Schema) : FieldLayout where
  name := s.field.text
  shared := s.shared
  subFields := s.slots.map fun slot => ⟨slot.subField.name.text, slot.offset, slot.width⟩

end PackedFields
