import PackedFields.Syntax.Attribute
import PackedFields.Syntax.Generics
import PackedFields.Syntax.Type

/-!
# Items

Structs, enums and unions are kept with their parts; an item of any other kind is kept as its
tokens. The tokens of an item read the same as the item did, with spacing of their own.
-/

namespace PackedFields

/-- How an item or a field says who may use it. -/
inductive SourceVisibility where
  /-- Nothing is said. -/
  | inherited
  /-- `pub` -/
  | everyone
  /-- `pub(w)`, for one of the words `crate`, `super` and `self`. -/
  | within (w : String)
  /-- `pub(in p)` -/
  | withinPath (p : Path)
  deriving DecidableEq, Repr, Inhabited

/-- The tokens of a visibility. -/
def SourceVisibility.tokens : SourceVisibility → List Token
  | inherited => []
  | everyone => [Code.word "pub"]
  | within w => [Code.word "pub", Code.parens [Code.word w]]
  | withinPath p => [Code.word "pub", Code.parens (Code.word "in" :: p.tokens)]

/-- A field of a struct, a union or a variant. -/
structure SourceField where
  /-- The attributes, in order. -/
  attributes : List Attribute
  /-- Who may use the field. -/
  visibility : SourceVisibility
  /-- The name, which a field of a tuple lacks, and its place. -/
  name : Option (Name × Span)
  /-- The type. -/
  type : SourceType
  deriving Repr, Inhabited

/-- The tokens of a field. -/
def SourceField.tokens (f : SourceField) : List Token :=
  f.attributes.flatMap Attribute.tokens ++ f.visibility.tokens ++
    (match f.name with
      | some (n, _) => [Code.name n, Code.sign ':']
      | none => []) ++ f.type.tokens

/-- The fields of a struct, a union or a variant. -/
inductive SourceFields where
  /-- Fields with names, in braces, with a comma after the last if `trailing`. -/
  | named (fields : List SourceField) (trailing : Bool)
  /-- Fields without names, in parentheses, with a comma after the last if `trailing`. -/
  | tuple (fields : List SourceField) (trailing : Bool)
  /-- No fields. -/
  | unit
  deriving Repr, Inhabited

namespace SourceFields

/-- The fields, each changed by `f`. -/
def map (f : SourceField → SourceField) : SourceFields → SourceFields
  | named fs t => named (fs.map f) t
  | tuple fs t => tuple (fs.map f) t
  | unit => unit

/-- The tokens of the fields with their delimiters. -/
def tokens : SourceFields → List Token
  | named fs t => [Code.braces (Code.commaList t (fs.map SourceField.tokens))]
  | tuple fs t => [Code.parens (Code.commaList t (fs.map SourceField.tokens))]
  | unit => []

end SourceFields

/-- A variant of an enum. -/
structure SourceVariant where
  /-- The attributes, in order. -/
  attributes : List Attribute
  /-- The name. -/
  name : Name
  /-- The fields. -/
  fields : SourceFields
  /-- The number of the variant, or nothing if none is given. -/
  discriminant : List Token
  deriving Repr, Inhabited

/-- The tokens of a variant. -/
def SourceVariant.tokens (v : SourceVariant) : List Token :=
  v.attributes.flatMap Attribute.tokens ++ [Code.name v.name] ++ v.fields.tokens ++
    GenericParam.after '=' v.discriminant

/-- What struct, enum and union have in common. -/
structure ItemHead where
  /-- The attributes, in order. -/
  attributes : List Attribute
  /-- Who may use the item. -/
  visibility : SourceVisibility
  /-- The name. -/
  name : Name
  /-- The place of the name. -/
  place : Span
  /-- The generic parameters and the conditions on them. -/
  generics : Generics
  deriving Repr, Inhabited

/-- The tokens of a head, up to the generic parameters. -/
def ItemHead.tokens (h : ItemHead) (keyword : String) : List Token :=
  h.attributes.flatMap Attribute.tokens ++ h.visibility.tokens ++
    [Code.word keyword, Code.name h.name] ++ h.generics.declared

/-- An item. -/
inductive Item where
  /-- A struct. -/
  | struct (head : ItemHead) (fields : SourceFields)
  /-- An enum, with a comma after its last variant if `trailing`. -/
  | enum (head : ItemHead) (variants : List SourceVariant) (trailing : Bool)
  /-- A union, whose fields have names. -/
  | union (head : ItemHead) (fields : SourceFields)
  /-- An item of another kind, and its place. -/
  | other (tokens : List Token) (place : Span)
  deriving Repr, Inhabited

/-- The tokens of an item. -/
def Item.tokens : Item → List Token
  | struct h (.named fs t) =>
    h.tokens "struct" ++ h.generics.whereClause ++ (SourceFields.named fs t).tokens
  | struct h fs => h.tokens "struct" ++ fs.tokens ++ h.generics.whereClause ++ [Code.sign ';']
  | enum h vs t =>
    h.tokens "enum" ++ h.generics.whereClause ++
      [Code.braces (Code.commaList t (vs.map SourceVariant.tokens))]
  | union h fs => h.tokens "union" ++ h.generics.whereClause ++ fs.tokens
  | other ts _ => ts

end PackedFields
