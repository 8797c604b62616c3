import PackedFields.Proofs.Printing

/-!
# Functions

A reader for `impl` blocks whose members are functions. Like the reader of terms it goes by what the
grammar says of any text: a function has attributes, a visibility, a name that is not reserved,
inputs, a result and a body, and a body has statements, each before a semicolon, and a result. What
the reader cannot make out it refuses.

The head of a block is read as far as it matters where the name of the type ends: generic parameters
and arguments are what stands in angle brackets, and a clause of conditions is not looked into.
-/

namespace PackedFields

/-- Whether the token is the punctuation character `c`. -/
def Token.isSign (c : Char) : Token → Bool
  | punct mark _ _ => mark == c
  | _ => false

/-- The runs of tokens between the characters `c`. -/
def Token.parts (c : Char) (ts : List Token) : List (List Token) := ts.splitOnP (isSign c)

/-! ## Bodies -/

/-- What an expression does. -/
inductive Effect where
  /-- It has a value. -/
  | value (t : Term)
  /-- It refers to a place. -/
  | reference (place : Term)
  /-- It calls a method. -/
  | call (receiver : Term) (method : Name) (arguments : List Term)
  /-- It gives a value to a place. -/
  | assign (place value : Term)
  deriving Repr, Inhabited

namespace Effect

/-- The arguments of a call. -/
def arguments? (ts : List Token) : Option (List Term) :=
  if ts.isEmpty then some [] else (Token.parts ',' ts).mapM Term.read?

/-- What a single operand does. -/
def ofWritten? (ts : List Token) : Option Effect :=
  match ts.reverse with
  | .group .paren arguments _ _ :: .ident method _ :: .punct '.' _ _ :: receiver => do
    return .call (← Term.readOperand? receiver.reverse) method (← arguments? arguments)
  | _ => some (.value (.written ts))

/-- What a term does. -/
def ofTerm? : Term → Option Effect
  | .written ts => ofWritten? ts
  | t => some (.value t)

/-- Reads an expression. -/
def read? : List Token → Option Effect
  | .punct '&' false _ :: place => (Term.readOperand? place).map .reference
  | ts =>
    match ts.dropWhile (!·.isSign '=') with
    | .punct _ false _ :: source => do
      let place ← Term.readOperand? (ts.takeWhile (!·.isSign '='))
      return .assign place (← Term.read? source)
    | _ => (Term.read? ts).bind ofTerm?

end Effect

/-- A statement. -/
inductive Statement where
  /-- It names a value that is there from the start. -/
  | static (name : Name) (type : List Token) (value : Term)
  /-- It is an expression. -/
  | effect (a : Effect)
  deriving Repr, Inhabited

/-- Reads a statement, less the semicolon. -/
def Statement.read? : List Token → Option Statement
  | .ident ⟨"static", false⟩ _ :: .ident n _ :: .punct ':' false _ :: ts => do
    let type := ts.takeWhile (!·.isSign '=')
    let value ← Term.read? (ts.dropWhile (!·.isSign '=')).tail
    if n.isReserved || type.isEmpty then none else some (.static n type value)
  | ts => (Effect.read? ts).map .effect

/-- The body of a function. -/
structure Body where
  /-- The statements. -/
  statements : List Statement
  /-- The result, if the last statement is not the end. -/
  result? : Option Effect
  deriving Repr, Inhabited

/-- Reads a body. -/
def Body.read? (ts : List Token) : Option Body := do
  let parts := Token.parts ';' ts
  let last := parts.getLast?.getD []
  let statements ← parts.dropLast.mapM Statement.read?
  if last.isEmpty then some ⟨statements, none⟩ else return ⟨statements, some (← Effect.read? last)⟩

/-! ## Signatures -/

/-- An input of a function. -/
inductive Input where
  /-- The instance, which the function may change or not. -/
  | receiver (mutable : Bool)
  /-- A value. -/
  | value (name : Name) (kind : Kind)
  deriving Repr, Inhabited

/-- Reads an input. -/
def Input.read? : List Token → Option Input
  | [.punct '&' false _, .ident ⟨"self", false⟩ _] => some (.receiver false)
  | [.punct '&' false _, .ident ⟨"mut", false⟩ _, .ident ⟨"self", false⟩ _] => some (.receiver true)
  | [.ident n _, .punct ':' false _, .ident t _] =>
    if n.isReserved then none else (Kind.ofName? t.spelling).map (.value n)
  | _ => none

/-- Reads the inputs of a function. -/
def Input.readAll? (ts : List Token) : Option (List Input) :=
  if ts.isEmpty then some [] else (Token.parts ',' ts).mapM Input.read?

/-- A function. -/
structure Function where
  /-- What stands in the attributes. -/
  attributes : List (List Token)
  /-- Who may use the function. -/
  visibility : List Token
  /-- The name. -/
  name : Name
  /-- What the function takes. -/
  inputs : List Input
  /-- The type of the result, or nothing if there is none. -/
  result : List Token
  /-- What the function does. -/
  body : Body
  deriving Repr, Inhabited

/-- The attributes at the start, and the tokens after them. -/
def attributesOf : List Token → List (List Token) × List Token
  | .punct '#' false _ :: .group .bracket inner _ _ :: ts =>
    let (more, rest) := attributesOf ts
    (inner :: more, rest)
  | ts => ([], ts)

/-- The visibility at the start, and the tokens after it. -/
def visibilityOf : List Token → List Token × List Token
  | .ident ⟨"pub", false⟩ s :: .group .paren inner o c :: ts =>
    ([.ident ⟨"pub", false⟩ s, .group .paren inner o c], ts)
  | .ident ⟨"pub", false⟩ s :: ts => ([.ident ⟨"pub", false⟩ s], ts)
  | ts => ([], ts)

/-- The type of a result after its arrow, or nothing if there is neither. -/
def resultOf? : List Token → Option (List Token)
  | [] => some []
  | .punct '-' true _ :: .punct '>' false _ :: t :: ts => some (t :: ts)
  | _ => none

/-- Reads a function, given what stands before its body and in it. -/
def Function.read? (signature body : List Token) : Option Function :=
  let (attributes, rest) := attributesOf signature
  let (visibility, rest) := visibilityOf rest
  match rest with
  | .ident ⟨"fn", false⟩ _ :: .ident n _ :: .group .paren inputs _ _ :: result =>
    if n.isReserved then none
    else do
      let inputs ← Input.readAll? inputs
      let result ← resultOf? result
      return ⟨attributes, visibility, n, inputs, result, ← Body.read? body⟩
  | _ => none

/-! ## Blocks -/

/-- The pairs of braces, each with the tokens before it, and the tokens after the last. -/
def braced : List Token → List (List Token × List Token) × List Token
  | [] => ([], [])
  | .group .brace inner _ _ :: ts =>
    let (more, rest) := braced ts
    (([], inner) :: more, rest)
  | t :: ts =>
    match braced ts with
    | ((before, inner) :: more, rest) => ((t :: before, inner) :: more, rest)
    | ([], rest) => ([], t :: rest)

/-- Reads functions one after the other. -/
def Function.readAll? (ts : List Token) : Option (List Function) :=
  let (members, rest) := braced ts
  if rest.isEmpty then members.mapM fun m => Function.read? m.1 m.2 else none

/-- The tokens up to the angle bracket that closes the outermost of `depth + 1` open ones, and the
tokens after it. What ends an arrow is not a bracket. Those that were `seen` before come first, the
last one at the head. -/
def closeAngle :
    (depth : Nat) → (seen : List Token) → List Token → Option (List Token × List Token)
  | _, _, [] => none
  | depth, seen, .punct '-' true s :: .punct '>' joint s' :: ts =>
    closeAngle depth (.punct '>' joint s' :: .punct '-' true s :: seen) ts
  | depth, seen, t :: ts =>
    if t.isSign '<' then closeAngle (depth + 1) (t :: seen) ts
    else if t.isSign '>' then
      match depth with
      | 0 => some (seen.reverse, ts)
      | depth + 1 => closeAngle depth (t :: seen) ts
    else closeAngle depth (t :: seen) ts

/-- What stands in the angle brackets at the start, if any, and the tokens after them. -/
def angled? : List Token → Option (List Token × List Token)
  | .punct '<' _ _ :: ts => closeAngle 0 [] ts
  | ts => some ([], ts)

/-- The segments of a path at the start, each with the separator before it, and the tokens after
them. -/
def segmentsOf : List Token → List Name × List Token
  | .punct ':' true s :: .punct ':' joint s' :: .ident n s'' :: ts =>
    if n.isOperand then
      let (more, rest) := segmentsOf ts
      (n :: more, rest)
    else ([], .punct ':' true s :: .punct ':' joint s' :: .ident n s'' :: ts)
  | ts => ([], ts)

/-- The path of a type at the start, and the tokens after it. -/
def typePath? (ts : List Token) : Option (Path × List Token) :=
  let rooted := Parser.startsMark "::" ts
  let (segments, rest) := segmentsOf (if rooted then ts else Code.pathSep ++ ts)
  if segments.getLast?.any (!·.isReserved) then some (⟨rooted, segments⟩, rest) else none

/-- The conditions of a `where` clause, or nothing if there is none. -/
def conditionsOf? : List Token → Option (List Token)
  | [] => some []
  | .ident ⟨"where", false⟩ _ :: t :: ts => some (t :: ts)
  | _ => none

/-- A block of functions of a type. -/
structure Implementation where
  /-- What stands in the attributes. -/
  attributes : List (List Token)
  /-- The generic parameters. -/
  generics : List Token
  /-- The type. -/
  type : Path
  /-- The arguments of the type. -/
  arguments : List Token
  /-- The conditions on the parameters. -/
  conditions : List Token
  /-- The functions, in order. -/
  functions : List Function
  deriving Repr, Inhabited

/-- Reads a block. -/
def Implementation.read? (ts : List Token) : Option Implementation :=
  let (attributes, rest) := attributesOf ts
  match rest with
  | .ident ⟨"impl", false⟩ _ :: rest => do
    let (generics, rest) ← angled? rest
    let (type, rest) ← typePath? rest
    let (arguments, rest) ← angled? rest
    match rest.getLast? with
    | some (.group .brace members _ _) =>
      let conditions ← conditionsOf? rest.dropLast
      return ⟨attributes, generics, type, arguments, conditions, ← Function.readAll? members⟩
    | _ => none
  | _ => none

end PackedFields
