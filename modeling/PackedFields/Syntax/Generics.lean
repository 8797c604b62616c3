import PackedFields.Token.Code

/-!
# Generic parameters

The generic parameters of a type are written in three forms: as they are declared, at the head of
an `impl`, and as the arguments of the type. All three name lifetimes before types and constants,
whatever order the declaration has, and keep the commas of the declaration: one is added only
where the last lifetime has none and a type or a constant follows.
-/

namespace PackedFields

/-- Entries of a list in one of their forms, those for lifetimes first. Each is given with whether a
comma follows it. -/
def lifetimesFirst {α : Type} (isLifetime : α → Bool) (form : α → List Token)
    (entries : List (α × Bool)) : List Token :=
  let run := fun (ps : List (α × Bool)) =>
    ps.flatMap fun (p, comma) => form p ++ if comma then [Code.sign ','] else []
  let (lifetimes, others) := entries.partition (isLifetime ·.1)
  let bare := lifetimes.getLast?.any (!·.2) && !others.isEmpty
  run lifetimes ++ (if bare then [Code.sign ','] else []) ++ run others

/-- A generic parameter. Absent bounds and absent defaults are empty lists of tokens. -/
inductive GenericParam where
  /-- A lifetime, by the name after its apostrophe. -/
  | lifetime (attributes : List Token) (name : Name) (bounds : List Token)
  /-- A type. -/
  | type (attributes : List Token) (name : Name) (bounds fallback : List Token)
  /-- A constant. -/
  | const (attributes : List Token) (name : Name) (type fallback : List Token)
  deriving Repr, Inhabited

namespace GenericParam

/-- Whether the parameter is a lifetime. -/
def isLifetime : GenericParam → Bool
  | lifetime .. => true
  | _ => false

/-- The tokens of a lifetime. -/
def lifetimeTokens (n : Name) : List Token := [.punct '\x27' true .nowhere, Code.name n]

/-- The given tokens after a punctuation character, or nothing if there are none. -/
def after (c : Char) (ts : List Token) : List Token :=
  if ts.isEmpty then [] else Code.sign c :: ts

/-- The parameter as it is declared. -/
def declared : GenericParam → List Token
  | lifetime attrs n bounds => attrs ++ lifetimeTokens n ++ after ':' bounds
  | type attrs n bounds fallback =>
    attrs ++ [Code.name n] ++ after ':' bounds ++ after '=' fallback
  | const attrs n ty fallback =>
    attrs ++ [Code.word "const", Code.name n, Code.sign ':'] ++ ty ++ after '=' fallback

/-- The parameter at the head of an `impl`: a default is left out. -/
def inHeader : GenericParam → List Token
  | type attrs n bounds _ => declared (type attrs n bounds [])
  | const attrs n ty _ => declared (const attrs n ty [])
  | p => declared p

/-- The parameter as an argument: its name. -/
def asArgument : GenericParam → List Token
  | lifetime _ n _ => lifetimeTokens n
  | type _ n _ _ => [Code.name n]
  | const _ n _ _ => [Code.name n]

end GenericParam

/-- The generic parameters of a type, and the conditions on them. -/
structure Generics where
  /-- The parameters, in the order of their declaration. -/
  params : List GenericParam := []
  /-- Whether a comma follows the last parameter. -/
  trailingComma : Bool := false
  /-- The conditions of the `where` clause, with their commas. -/
  conditions : List Token := []
  deriving Repr, Inhabited

namespace Generics

/-- The parameters, each with whether a comma follows it. -/
def withCommas (g : Generics) : List (GenericParam × Bool) :=
  g.params.zipIdx.map fun (p, i) => (p, i + 1 < g.params.length || g.trailingComma)

/-- All parameters in one of their forms, in angle brackets. -/
def listed (g : Generics) (form : GenericParam → List Token) : List Token :=
  if g.params.isEmpty then []
  else [Code.sign '<'] ++ lifetimesFirst GenericParam.isLifetime form g.withCommas ++
    [Code.sign '>']

/-- The parameters as they are declared. -/
def declared (g : Generics) : List Token := g.listed GenericParam.declared

/-- The parameters at the head of an `impl`. -/
def header (g : Generics) : List Token := g.listed GenericParam.inHeader

/-- The parameters as the arguments of their type. -/
def arguments (g : Generics) : List Token := g.listed GenericParam.asArgument

/-- The `where` clause, which is left out if it has no conditions. -/
def whereClause (g : Generics) : List Token :=
  if g.conditions.isEmpty then [] else Code.word "where" :: g.conditions

end Generics

end PackedFields
