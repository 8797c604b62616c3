import PackedFields.Expr.Basic

/-!
# Typed values

The machine that runs generated members has truth values and integers of fixed width, and its
operations depend on the type: a shift to the right copies the sign of a signed integer, and so
does a cast to a wider type. `Expr.run` is the value of an expression on that machine; it has none
where the types do not fit or where a shift is as wide as the integer.
-/

namespace PackedFields

/-- A value of the machine. -/
inductive Value where
  /-- A truth value. -/
  | bool (b : Bool)
  /-- An integer, by its type and its bits. -/
  | int (type : IntType) (bits : BitVec type.bits)
  deriving DecidableEq

namespace IntType

/-- The number that bits stand for. -/
def toInt (t : IntType) (b : BitVec t.bits) : Int := if t.signed then b.toInt else b.toNat

/-- The bits of a number, of which only the lowest count. -/
def ofInt (t : IntType) (n : Int) : BitVec t.bits := BitVec.ofInt t.bits n

/-- Whether the type has the number `n`: its bits stand for no other number. -/
def holds (t : IntType) (n : Int) : Bool := t.toInt (t.ofInt n) == n

/-- The bits shifted to the right: the sign of a signed integer is copied. -/
def shiftRight (t : IntType) (b : BitVec t.bits) (n : Nat) : BitVec t.bits :=
  if t.signed then b.sshiftRight n else b >>> n

/-- The bits as those of another type: a signed integer keeps its sign when it gets wider. -/
def convert (t u : IntType) (b : BitVec t.bits) : BitVec u.bits :=
  if t.signed then b.signExtend u.bits else b.setWidth u.bits

end IntType

namespace Value

/-- The integer of a type, by a number of which only the lowest bits count. -/
def ofInt (t : IntType) (n : Int) : Value := int t (t.ofInt n)

/-- Applies an operation to an integer. -/
def onInt (f : (t : IntType) → BitVec t.bits → Option Value) : Value → Option Value
  | bool _ => none
  | int t b => f t b

/-- The bits of two integers of the same type. -/
def or? : Value → Value → Option Value
  | int t a, int u b => if h : t = u then some (int t (a ||| h ▸ b)) else none
  | _, _ => none

end Value

namespace Expr

/-- What an expression is run in. -/
structure Frame where
  /-- The backing integer. -/
  backing : Value
  /-- The values of the parameters. -/
  params : List (Name × Value) := []

mutual

/-- The value of an expression on the machine. -/
def run (frame : Frame) : Expr → Option Value
  | backing => some frame.backing
  | param n => frame.params.lookup n
  | shr e n => do
    (← run frame e).onInt fun t b => if n < t.bits then some (.int t (t.shiftRight b n)) else none
  | shl e n => do
    (← run frame e).onInt fun t b => if n < t.bits then some (.int t (b <<< n)) else none
  | mask e width => do
    (← run frame e).onInt fun t b => some (.int t (b &&& (ones width).setWidth t.bits))
  | cast e u => do (← run frame e).onInt fun t b => some (.int u (t.convert u b))
  | ofBool e u => do
    match ← run frame e with
    | .bool b => some (.ofInt u (if b then 1 else 0))
    | .int .. => none
  | test e => do (← run frame e).onInt fun _ b => some (.bool (b == 1))
  | or [] => none
  | or (e :: es) => do runOr frame (← run frame e) es

/-- The bits of a value and of all further terms. -/
def runOr (frame : Frame) (v : Value) : List Expr → Option Value
  | [] => some v
  | e :: es => do runOr frame (← v.or? (← run frame e)) es

end

end Expr

end PackedFields
