import PackedFields.IntType

/-!
# Expressions

The arithmetic of members: how a sub-field is read out of the backing integer, and how the values
of all sub-fields make up a new one. `Expr.eval` computes an expression on words; it does so
without regard to signs, which is exact for all values that are not negative.
-/

namespace PackedFields

/-- An expression over the backing integer and the parameters of the mutator. -/
inductive Expr where
  /-- The value of the backing integer. -/
  | backing
  /-- A parameter of the mutator. -/
  | param (name : Name)
  /-- The value shifted to the right. -/
  | shr (e : Expr) (by_ : Nat)
  /-- The value shifted to the left. -/
  | shl (e : Expr) (by_ : Nat)
  /-- The lowest bits of the value. -/
  | mask (e : Expr) (width : Nat)
  /-- The value as one of another type. -/
  | cast (e : Expr) (type : IntType)
  /-- A truth value as an integer. -/
  | ofBool (e : Expr) (type : IntType)
  /-- Whether the value is 1. -/
  | test (e : Expr)
  /-- The bits of all the terms. -/
  | or (terms : List Expr)
  deriving Repr, Inhabited

namespace Expr

/-- The value shifted to the right; a shift by nothing is left out. -/
def shiftRight (e : Expr) (n : Nat) : Expr := if n = 0 then e else shr e n

/-- The value shifted to the left; a shift by nothing is left out. -/
def shiftLeft (e : Expr) (n : Nat) : Expr := if n = 0 then e else shl e n

/-- What an expression is evaluated in. -/
structure Env where
  /-- The type of the backing integer. -/
  type : IntType
  /-- The backing integer, of which only the bits of its type count. -/
  backing : Word
  /-- The values of parameters; of two for the same name the first counts. -/
  params : List (Name × Word) := []

/-- The value of a parameter; one that is not given is 0. -/
def Env.param (env : Env) (n : Name) : Word := (env.params.lookup n).getD 0

/-- The truth value as a word. -/
def truth (b : Bool) : Word := if b then 1 else 0

/-- A word shifted to the right. -/
def wordShr (w : Word) (n : Nat) : Word := if n < wordBits then w >>> n else 0

/-- A word shifted to the left. -/
def wordShl (w : Word) (n : Nat) : Word := if n < wordBits then w <<< n else 0

mutual

/-- The value of an expression. Only a shift to the left, a mask and a cast cut bits off. -/
def eval (env : Env) : Expr → Word
  | backing => env.backing &&& ones env.type.bits
  | param n => env.param n
  | shr e n => wordShr (eval env e) n
  | shl e n => wordShl (eval env e) n &&& ones env.type.bits
  | mask e width => eval env e &&& ones width
  | cast e t => eval env e &&& ones t.bits
  | ofBool e _ => truth (eval env e != 0)
  | test e => truth (eval env e == 1)
  | or terms => evalAll env terms

/-- The bits of the values of all terms. -/
def evalAll (env : Env) : List Expr → Word
  | [] => 0
  | e :: es => eval env e ||| evalAll env es

end

end Expr

end PackedFields
