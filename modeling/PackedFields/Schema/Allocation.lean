import PackedFields.Schema.Basic

/-!
# Allocation

Sub-fields are packed from bit 0 upwards, in the order of their declarations, with no gap. Bit
positions are 32-bit numbers; one past the range is taken for the largest (`addUpTo`), so that
allocation always has a result. Whether that fits the backing integer is a question for
validation.
-/

namespace PackedFields

/-- The largest bit position. -/
def lastPosition : Nat := 0xFFFFFFFF

/-- The sum of two positions, or the largest position if the sum is past it. -/
def addUpTo (a b : Nat) : Nat := min (a + b) lastPosition

/-- A sub-field with its position. -/
structure Slot where
  /-- The declaration. -/
  subField : SubField
  /-- The lowest bit. -/
  offset : Nat
  /-- The number of bits. -/
  width : Nat
  deriving DecidableEq, Repr, Inhabited

namespace Slot

/-- One past the highest bit. -/
def stop (s : Slot) : Nat := addUpTo s.offset s.width

/-- Whether the slot takes the bit `bit`. -/
def has (s : Slot) (bit : Nat) : Bool := s.offset ≤ bit && bit < s.stop

end Slot

/-- The slots of sub-fields that are packed from the bit `cursor` upwards. -/
def allocateFrom (cursor : Nat) : List SubField → List Slot
  | [] => []
  | d :: ds => ⟨d, cursor, d.bits⟩ :: allocateFrom (addUpTo cursor d.bits) ds

/-- The slots of sub-fields. -/
def allocate (ds : List SubField) : List Slot := allocateFrom 0 ds

/-- The number of bits that sub-fields take together. -/
def totalBits : List SubField → Nat
  | [] => 0
  | d :: ds => d.bits + totalBits ds

/-- The slots of the sub-fields of a schema. -/
def Schema.slots (s : Schema) : List Slot := allocate s.subFields

end PackedFields
