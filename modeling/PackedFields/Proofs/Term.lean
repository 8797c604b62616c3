import PackedFields.Expr.Code
import PackedFields.Proofs.ReservedWords
import PackedFields.Proofs.Word
import PackedFields.Syntax.Precedence

/-!
# Terms

A reader for expressions of the language that the accessors are written in: operands, casts, and
operators between two operands. It goes by what the grammar says of any text, that is, by the table
of operators and by how closely they bind, and not by how some text came about.

A text is cut at its operators (`splitOperators`). Between two of them stands one operand, and the
casts after it bind more closely than all operators (`piece?`). Then the operators are applied,
level by level (`Term.resolve`): what stands between two operators of one level, with all operators
that bind more closely, is an operand of theirs. What stands in parentheses is read first, and from
there on is a single operand (`Leaf`).
-/

namespace PackedFields

/-- An expression of the language. -/
inductive Term where
  /-- A word on its own. -/
  | name (n : Name)
  /-- A whole number. -/
  | number (n : Nat)
  /-- Another operand, as it is written. -/
  | written (tokens : List Token)
  /-- A call of `from` of an integer type. -/
  | conversion (type : IntType) (argument : Term)
  /-- A cast by the word `as`. -/
  | cast (operand : Term) (type : IntType)
  /-- Two operands with an operator between them. -/
  | binary (operator : String) (left right : Term)
  /-- Operands with `|` between them. -/
  | or (terms : List Term)
  deriving Repr, Inhabited

/-- A token, and if it is a pair of parentheses, what stands in them. -/
structure Leaf where
  /-- The token. -/
  token : Token
  /-- The expression in parentheses, if the token holds one. -/
  inner? : Option Term
  deriving Repr, Inhabited

/-! ## Operands -/

/-- Whether a word can be a field, or what waits for a value. -/
def Name.isSelected (n : Name) : Bool := !n.isReserved || n == ⟨"await", false⟩

/-- Whether the tokens are selections, calls, indices and question marks. -/
def areTrailers : List Token → Bool
  | [] => true
  | .punct '.' _ _ :: .ident n _ :: ts => n.isSelected && areTrailers ts
  | .punct '.' _ _ :: .literal s _ :: ts => Literal.isNumber s && areTrailers ts
  | .punct '?' _ _ :: ts => areTrailers ts
  | .group .paren _ _ _ :: ts => areTrailers ts
  | .group .bracket _ _ _ :: ts => areTrailers ts
  | _ => false

/-- Whether the tokens are what can follow the segment of a path: further segments or the input of a
macro, and what follows an operand. -/
def followSegment : List Token → Bool
  | .punct ':' true _ :: .punct ':' _ _ :: .ident n _ :: ts => n.isOperand && followSegment ts
  | .punct '!' _ _ :: .group _ _ _ _ :: ts => areTrailers ts
  | ts => areTrailers ts

/-- Whether the tokens are one operand: a path, a literal, parentheses or brackets, with what
follows it. -/
def isPrimary : List Token → Bool
  | .ident n _ :: ts => n.isOperand && followSegment ts
  | .punct ':' joint s :: ts => followSegment (.punct ':' joint s :: ts)
  | .literal _ _ :: ts => areTrailers ts
  | .group .paren _ _ _ :: ts => areTrailers ts
  | .group .bracket _ _ _ :: ts => areTrailers ts
  | _ => false

/-- Whether a word is a truth value. -/
def Name.isTruth (n : Name) : Bool := n == ⟨"true", false⟩ || n == ⟨"false", false⟩

/-- Whether a token is the word `as`. -/
def Token.isAs : Token → Bool
  | .ident n _ => n == ⟨"as", false⟩
  | _ => false

namespace Leaf

/-- The operand that a single token is. Of the reserved words, few are operands. -/
def operand? (l : Leaf) : Option Term :=
  match l.token with
  | .ident n _ =>
    if n.isOperand then some (.name n) else if n.isTruth then some (.written [l.token]) else none
  | .literal s _ => some (((Literal.whole? s).map Term.number).getD (.written [l.token]))
  | .group .paren _ _ _ => some (l.inner?.getD (.written [l.token]))
  | .group .bracket _ _ _ => some (.written [l.token])
  | _ => none

end Leaf

/-- The call of `from` of an integer type, if the tokens are one. -/
def conversion? : List Leaf → Option Term
  | [⟨.ident t _, _⟩, ⟨.punct ':' true _, _⟩, ⟨.punct ':' _ _, _⟩, ⟨.ident f _, _⟩,
      ⟨.group .paren _ _ _, some argument⟩] =>
    if f = ⟨"from", false⟩ then (IntType.ofName? t.spelling).map (.conversion · argument) else none
  | _ => none

/-- The operand that the tokens are. -/
def operand? : List Leaf → Option Term
  | [l] => l.operand?
  | ls =>
    let tokens := ls.map (·.token)
    (conversion? ls).or (if isPrimary tokens then some (.written tokens) else none)

/-- An operand with casts after it, each to an integer type. -/
def casts? (operand : Term) : List Leaf → Option Term
  | [] => some operand
  | ⟨.ident as _, _⟩ :: ⟨.ident t _, _⟩ :: ls => do
    if as = ⟨"as", false⟩ then casts? (.cast operand (← IntType.ofName? t.spelling)) ls else none
  | _ => none

/-- Whether an operator would be taken for the start of generic arguments after a type. -/
def opensArguments (operator : String) : Bool := operator == "<" || operator == "<<"

/-- What stands before the operator `next?`, or at the end: an operand with casts after it. -/
def piece? (next? : Option String) : List Leaf → Option Term
  | [] => none
  | l :: ls => do
    let casts := ls.dropWhile (!·.token.isAs)
    let operand ← operand? (l :: ls.takeWhile (!·.token.isAs))
    if !casts.isEmpty && next?.any opensArguments then none else casts? operand casts

/-! ## Operators -/

/-- An operator, and what stands on its right. -/
structure Tail where
  /-- The operator. -/
  operator : String
  /-- How closely it binds. -/
  precedence : Precedence
  /-- What stands on its right, up to the next operator. -/
  operand : Term
  deriving Repr, Inhabited

/-- The levels of operators between operands that make up a value, those that bind least first. -/
def Precedence.levels : List Precedence :=
  [.or, .and, .compare, .bitOr, .bitXor, .bitAnd, .shift, .sum, .product]

example : Precedence.levels.Pairwise (fun p q => p.rank < q.rank) := by decide

namespace Term

/-- The tails before the first operator of the level `p`, and each operator of that level with the
tails up to the next. -/
def cutAt (p : Precedence) : List Tail → List Tail × List (Tail × List Tail)
  | [] => ([], [])
  | t :: ts =>
    let (own, groups) := cutAt p ts
    if t.precedence = p then ([], (t, own) :: groups) else (t :: own, groups)

/-- Applies operators of the level `p`, the first one first. Comparisons do not follow one
another. -/
def applied (p : Precedence) (first : Term) : List (String × Term) → Option Term
  | [] => some first
  | (m, t) :: more =>
    match p with
    | .bitOr => some (.or (first :: t :: more.map Prod.snd))
    | .compare => if more.isEmpty then some (.binary m first t) else none
    | _ => some (more.foldl (fun left right => .binary right.1 left right.2) (.binary m first t))

/-- Applies the operators after a first operand, all of which must be of the given levels. -/
def resolve : List Precedence → Term → List Tail → Option Term
  | [], first, tails => if tails.isEmpty then some first else none
  | p :: ps, first, tails => do
    let (own, groups) := cutAt p tails
    let first ← resolve ps first own
    let rights ← groups.mapM fun (t, more) => do return (t.operator, ← resolve ps t.operand more)
    applied p first rights

end Term

/-- The leaves up to the first operator, and after each operator the leaves up to the next. The
first `skip` leaves belong to the operator before. -/
def splitOperators : (skip : Nat) → List Leaf → List Leaf × List ((String × Precedence) × List Leaf)
  | _, [] => ([], [])
  | skip + 1, _ :: ls => splitOperators skip ls
  | 0, l :: ls =>
    match Parser.binaryOperator? (l.token :: ls.map (·.token)) with
    | some op =>
      let (own, more) := splitOperators (op.1.length - 1) ls
      ([], (op, own) :: more)
    | none =>
      let (own, more) := splitOperators 0 ls
      (l :: own, more)

/-- Reads a first piece, and all pieces after it with the operators before them. -/
def operands? : List Leaf → List ((String × Precedence) × List Leaf) → Option (Term × List Tail)
  | ls, [] => do return (← piece? none ls, [])
  | ls, ((m, p), next) :: more => do
    let first ← piece? (some m) ls
    let (second, tails) ← operands? next more
    return (first, ⟨m, p, second⟩ :: tails)

/-- Reads an expression. -/
def expression? (ls : List Leaf) : Option Term := do
  let (first, more) := splitOperators 0 ls
  let (first, tails) ← operands? first more
  Term.resolve Precedence.levels first tails

mutual

/-- A token, with what stands in it. -/
def Leaf.ofToken : Token → Leaf
  | .ident n s => ⟨.ident n s, none⟩
  | .punct mark joint s => ⟨.punct mark joint s, none⟩
  | .literal spelling s => ⟨.literal spelling s, none⟩
  | .group d inner o c =>
    ⟨.group d inner o c, if d = .paren then expression? (Leaf.ofTokens inner) else none⟩

/-- Tokens, each with what stands in it. -/
def Leaf.ofTokens : List Token → List Leaf
  | [] => []
  | t :: ts => Leaf.ofToken t :: Leaf.ofTokens ts

end

namespace Term

/-- Reads tokens as an expression. -/
def read? (ts : List Token) : Option Term := expression? (Leaf.ofTokens ts)

/-- Reads tokens as a single operand. -/
def readOperand? (ts : List Token) : Option Term := PackedFields.operand? (Leaf.ofTokens ts)

/-! ## Values -/

section Values

variable (env : Expr.Env) (outside : List Token → Option Nat)

/-- The value of an operator, of which only a shift to the left cuts bits off. -/
def operate? (operator : String) (left right : Nat) : Option Nat :=
  if operator = ">>" then some (left / 2 ^ right)
  else if operator = "<<" then some (left * 2 ^ right % 2 ^ env.type.bits)
  else if operator = "&" then some (left &&& right)
  else if operator = "==" then some (left == right).toNat
  else none

mutual

/-- The value of a term, by the rules for expressions. Operands that are kept as they are written
have their value from `outside`. -/
def value? : Term → Option Nat
  | name n => some (env.param n).toNat
  | number n => some n
  | written ts => outside ts
  | conversion _ argument => do return ((← value? argument) != 0).toNat
  | cast operand type => do return (← value? operand) % 2 ^ type.bits
  | binary operator left right => do operate? env operator (← value? left) (← value? right)
  | or terms => valueAll? terms

/-- The bits of the values of all terms. -/
def valueAll? : List Term → Option Nat
  | [] => some 0
  | t :: ts => do return (← value? t) ||| (← valueAll? ts)

end

end Values

end Term

end PackedFields
