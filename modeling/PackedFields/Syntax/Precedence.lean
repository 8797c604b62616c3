import PackedFields.Syntax.Parser

/-!
# Operators and how closely they bind

An operator takes to itself what stands between it and the next operator that binds less closely.
Where two bind equally the first one is applied first, but for assignments, of which the last one
is.
-/

namespace PackedFields

/-- How closely an operator binds. -/
inductive Precedence where
  /-- No operator at all. -/
  | none
  /-- The assignments. -/
  | assign
  /-- The dots of a range. -/
  | range
  /-- `||` -/
  | or
  /-- `&&` -/
  | and
  /-- The comparisons. -/
  | compare
  /-- `|` -/
  | bitOr
  /-- `^` -/
  | bitXor
  /-- `&` -/
  | bitAnd
  /-- The shifts. -/
  | shift
  /-- Sums and differences. -/
  | sum
  /-- Products, quotients and remainders. -/
  | product
  /-- The word `as`, before a type. -/
  | cast
  deriving DecidableEq, Repr, Inhabited

namespace Precedence

/-- The place of a precedence in the order from the loosest to the closest. -/
def rank : Precedence → Nat
  | none => 0
  | assign => 1
  | range => 2
  | or => 3
  | and => 4
  | compare => 5
  | bitOr => 6
  | bitXor => 7
  | bitAnd => 8
  | shift => 9
  | sum => 10
  | product => 11
  | cast => 12

/-- Whether an operator takes what stands after an operand away from the operator before it. -/
def takesFrom (p before : Precedence) : Bool :=
  before.rank < p.rank || (p == assign && before == assign)

end Precedence

namespace Parser

/-- The operators between two operands, none after another that it starts with. -/
def binaryOperators : List (String × Precedence) := [
  ("+=", .assign), ("-=", .assign), ("*=", .assign), ("/=", .assign), ("%=", .assign),
  ("^=", .assign), ("&=", .assign), ("|=", .assign), ("<<=", .assign), (">>=", .assign),
  ("&&", .and), ("||", .or), ("<<", .shift), (">>", .shift), ("==", .compare), ("<=", .compare),
  ("!=", .compare), (">=", .compare), ("+", .sum), ("-", .sum), ("*", .product), ("/", .product),
  ("%", .product), ("^", .bitXor), ("&", .bitAnd), ("|", .bitOr), ("<", .compare),
  (">", .compare)]

/-- The operator between two operands that stands at the start. -/
def binaryOperator? (ts : List Token) : Option (String × Precedence) :=
  binaryOperators.find? fun (m, _) => startsMark m ts

/-- Whether the sign of an assignment stands at the start. -/
def startsAssignment (ts : List Token) : Bool := startsMark "=" ts && !startsMark "=>" ts

/-- How closely the operator at the start binds. -/
def precedenceOf (ts : List Token) : Precedence :=
  match binaryOperator? ts with
  | some (_, p) => p
  | none =>
    if startsAssignment ts then .assign
    else if startsMark ".." ts then .range
    else if startsWord "as" ts then .cast
    else .none

end Parser

end PackedFields
