import PackedFields.Expr.Basic
import PackedFields.Schema.Allocation

/-!
# Accessors

Each sub-field has a getter, and all sub-fields of a field have one mutator, which takes the value
of every sub-field and replaces the whole backing integer: bits that no sub-field has become 0.
-/

namespace PackedFields

/-- The member that reads a sub-field. -/
structure Getter where
  /-- The sub-field in its position. -/
  slot : Slot
  /-- How the value is computed. -/
  value : Expr
  deriving Repr, Inhabited

/-- The member that replaces a backing integer. -/
structure Mutator where
  /-- The name of the member. -/
  name : Name
  /-- The names and the kinds of the parameters. -/
  params : List (Name × Kind)
  /-- How the new value is computed. -/
  value : Expr
  deriving Repr, Inhabited

/-- The members for one backing integer. -/
structure Accessors where
  /-- The getters, in the order of the sub-fields. -/
  getters : List Getter
  /-- The mutator. -/
  mutator : Mutator
  deriving Repr, Inhabited

namespace Slot

/-- How a sub-field is read out of a backing integer: its bits are shifted down and masked, which
is left out if they are as many as the integer has; a truth value is tested and any other cast to
its type. -/
def extraction (s : Slot) (backing : IntType) : Expr :=
  let shifted := Expr.backing.shiftRight s.offset
  let masked := if s.width < backing.bits then .mask shifted s.width else shifted
  match s.subField.kind with
  | .bool => .test masked
  | .int t => .cast masked t

/-- What the parameter for a sub-field contributes to a new backing integer. It is not masked. -/
def contribution (s : Slot) (backing : IntType) : Expr :=
  let value := Expr.param s.subField.name.parameter
  let widened := match s.subField.kind with
    | .bool => Expr.ofBool value backing
    | .int _ => Expr.cast value backing
  widened.shiftLeft s.offset

end Slot

namespace Schema

/-- The getters for the given slots. -/
def getters (s : Schema) (slots : List Slot) : List Getter :=
  slots.map fun slot => ⟨slot, slot.extraction s.backing⟩

/-- The mutator for the given slots. -/
def mutator (s : Schema) (slots : List Slot) : Mutator where
  name := s.mutatorName
  params := slots.map fun slot => (slot.subField.name.parameter, slot.subField.kind)
  value := .or (slots.map (·.contribution s.backing))

/-- The members for the sub-fields of a schema. -/
def accessors (s : Schema) : Accessors := ⟨s.getters s.slots, s.mutator s.slots⟩

end Schema

end PackedFields
