import PackedFields.Accessors
import PackedFields.Machine.Value

/-!
# Records at work

A record is a container with values in its backing integers. Its fields can be assigned, and
replaced through their mutators; whatever is done to it, all getters can be read afterwards.
-/

namespace PackedFields

/-- A field of a record. -/
structure LiveField where
  /-- What is declared of the field. -/
  schema : Schema
  /-- The value of the field. -/
  value : BitVec schema.backing.bits

/-- A container with values in its backing integers. -/
abbrev LiveRecord := List LiveField

/-- A value that is handed to a record from outside. -/
inductive Datum where
  /-- A truth value. -/
  | bool (b : Bool)
  /-- A number as it is written: whether after a minus sign, and its size. -/
  | number (minus : Bool) (size : Nat)
  deriving DecidableEq, Repr

/-- What can be done to a record. -/
inductive Action where
  /-- Assign the field of this name. -/
  | assign (field : String) (value : Option Datum)
  /-- Call the mutator of the field of this name with these values, which may be too many. -/
  | mutate (field : String) (values : List (Option Datum))

/-- Why an action has no effect. -/
inductive Refusal where
  /-- There is no such field, or it cannot be assigned. -/
  | unknown
  /-- A value is missing, or is none of the type that is asked for. -/
  | range
  deriving DecidableEq, Repr

namespace Datum

/-- The number that is written so. -/
def toInt (minus : Bool) (size : Nat) : Int := if minus then -size else size

/-- The datum as a value of the given kind. Unsigned types take no minus sign, not even before a
zero. -/
def toValue? : Kind → Datum → Option Value
  | .bool, bool b => some (.bool b)
  | .int t, number minus size =>
    if (t.signed || !minus) && t.holds (toInt minus size) then some (.ofInt t (toInt minus size))
    else none
  | _, _ => none

end Datum

namespace LiveField

/-- The field with all bits zero. -/
def zero (s : Schema) : LiveField := ⟨s, 0⟩

/-- The field with the given value, if it is of the type of the field. -/
def withValue? (f : LiveField) (v : Value) : Option LiveField :=
  match v with
  | .int t b => if h : t = f.schema.backing then some ⟨f.schema, h ▸ b⟩ else none
  | .bool _ => none

/-- The value of the field. -/
def raw (f : LiveField) : Value := .int f.schema.backing f.value

/-- The values that the getters of the field return. -/
def read (f : LiveField) : List (Option Value) :=
  f.schema.accessors.getters.map fun g => g.value.run { backing := f.raw }

/-- The field after an assignment. -/
def assign (f : LiveField) (value : Option Datum) : Except Refusal LiveField :=
  match value.bind (Datum.toValue? (.int f.schema.backing)) with
  | none => .error .range
  | some v => match f.withValue? v with
    | some f => .ok f
    | none => .error .range

/-- The values for parameters, by name, if there are enough and all are of the right types. -/
def bindings? : List (Name × Kind) → List (Option Datum) → Option (List (Name × Value))
  | [], _ => some []
  | _ :: _, [] => none
  | (n, k) :: ps, d :: ds => do
    let v ← (← d).toValue? k
    return (n, v) :: (← bindings? ps ds)

/-- The field after a call of its mutator. -/
def mutate (f : LiveField) (values : List (Option Datum)) : Except Refusal LiveField :=
  let m := f.schema.accessors.mutator
  let result := do
    let params ← bindings? m.params values
    f.withValue? (← m.value.run { backing := f.raw, params })
  match result with
  | some f => .ok f
  | none => .error .range

end LiveField

namespace LiveRecord

/-- The record with the given fields and all bits zero. -/
def zero (schemas : List Schema) : LiveRecord := schemas.map LiveField.zero

/-- The record after a change to the field of the given name. -/
def onField (name : String) (change : LiveField → Except Refusal LiveField) :
    LiveRecord → Except Refusal LiveRecord
  | [] => .error .unknown
  | f :: fs =>
    if f.schema.field.text = name then do return (← change f) :: fs
    else do return f :: (← onField name change fs)

/-- The record after an action. The value of a shared field is out of reach of assignments. -/
def act (r : LiveRecord) : Action → Except Refusal LiveRecord
  | .assign field value => onField field (fun f =>
      if f.schema.shared then .error .unknown else f.assign value) r
  | .mutate field values => onField field (·.mutate values) r

end LiveRecord

end PackedFields
