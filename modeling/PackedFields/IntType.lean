import PackedFields.Token.Code
import PackedFields.Syntax.Type

/-!
# Value types

The integer types that can back sub-fields or be their values, and the kinds of values that a
sub-field can have. Integers are handled by their bits, at most `wordBits` of them.
-/

namespace PackedFields

/-- The bits of the widest integer type. -/
def wordBits : Nat := 128

/-- The bits of an integer, with zeros above its own width. -/
abbrev Word := BitVec wordBits

/-- The word whose lowest `width` bits are set, or all bits if there are no more than that. -/
def ones (width : Nat) : Word := BitVec.allOnes wordBits >>> (wordBits - width)

/-- The size of an integer type. -/
inductive IntSize where
  | w8
  | w16
  | w32
  | w64
  | w128
  deriving DecidableEq, Repr, Inhabited

/-- The number of bits of a size. -/
def IntSize.bits : IntSize → Nat
  | w8 => 8
  | w16 => 16
  | w32 => 32
  | w64 => 64
  | w128 => 128

/-- All sizes, in increasing order. -/
def IntSize.all : List IntSize := [w8, w16, w32, w64, w128]

/-- An integer type of fixed width. -/
structure IntType where
  /-- Whether the type has negative numbers. -/
  signed : Bool
  /-- How wide the type is. -/
  size : IntSize
  deriving DecidableEq, Repr, Inhabited

namespace IntType

/-- The number of bits of a type. -/
def bits (t : IntType) : Nat := t.size.bits

/-- All types, the unsigned ones first. -/
def all : List IntType := [false, true].flatMap fun s => IntSize.all.map (⟨s, ·⟩)

/-- The name of a type. -/
def name (t : IntType) : String := (if t.signed then "i" else "u") ++ toString t.bits

/-- The type of the given name. -/
def ofName? (name : String) : Option IntType := all.find? (·.name == name)

/-- The type that a type in source stands for: one that is named without a mark, alone, and maybe
in parentheses or in a group without visible delimiters. -/
def ofSource? : SourceType → Option IntType
  | .name n _ => ofName? n.spelling
  | .paren inner _ _ => ofSource? inner
  | .unseen inner => ofSource? inner
  | _ => none

/-- The name of the atomic type of the same values. There is none of 128 bits. -/
def atomic? (t : IntType) : Option String :=
  if t.size = .w128 then none
  else some ((if t.signed then "AtomicI" else "AtomicU") ++ toString t.bits)

/-- The token that names a type. -/
def token (t : IntType) : Token := Code.word t.name

end IntType

/-- What a sub-field reads back as. -/
inductive Kind where
  /-- A truth value, of one bit. -/
  | bool
  /-- An integer. -/
  | int (type : IntType)
  deriving DecidableEq, Repr, Inhabited

namespace Kind

/-- The name of a kind. -/
def name : Kind → String
  | bool => "bool"
  | int t => t.name

/-- The kind of the given name. -/
def ofName? (name : String) : Option Kind :=
  if name == "bool" then some bool else (IntType.ofName? name).map int

/-- The kind that a type in source stands for. Truth values must be named outright. -/
def ofSource? (t : SourceType) : Option Kind :=
  match t with
  | .name ⟨"bool", false⟩ _ => some bool
  | t => (IntType.ofSource? t).map int

/-- The token that names a kind. -/
def token (k : Kind) : Token := Code.word k.name

end Kind

end PackedFields
