import PackedFields.Token.Code

/-!
# Types in source

Of a type only so much is kept as tells whether it is a plain name, and how it can go on: a name,
another path, a single trait, a type in parentheses, a type in a group without visible delimiters
(as a type has that was handed on by a macro), and any other type by its tokens.
-/

namespace PackedFields

/-- A type in source. -/
inductive SourceType where
  /-- A name without arguments. -/
  | name (n : Name) (place : Span)
  /-- Another path that does not start at a type in angle brackets. It is `single` if it is a
  segment with arguments, and nothing more. -/
  | path (tokens : List Token) (single : Bool)
  /-- A trait, which stands for all types that have it. -/
  | trait (tokens : List Token)
  /-- A type in parentheses. -/
  | paren (inner : SourceType) (opening closing : Span)
  /-- A type in a group without visible delimiters. -/
  | unseen (inner : SourceType)
  /-- Any other type. -/
  | other (tokens : List Token)
  deriving Repr, Inhabited

namespace SourceType

/-- The tokens of a type. A group without visible delimiters is read flat, so that the type in it is
all that there is of it: the tokens do not tell `unseen t` from `t`. -/
def tokens : SourceType → List Token
  | name n s => [.ident n s]
  | path ts _ => ts
  | trait ts => ts
  | paren inner o c => [.group .paren inner.tokens o c]
  | unseen inner => inner.tokens
  | other ts => ts

/-- Whether a type is a path that does not start at a type in angle brackets. -/
def isPath : SourceType → Bool
  | name .. => true
  | path .. => true
  | _ => false

/-- Whether a type is a path of a single segment. -/
def isSingle : SourceType → Bool
  | name .. => true
  | path _ single => single
  | _ => false

/-- The place of a type, from its first token to its last. -/
def place (t : SourceType) : Span := Token.spanOf t.tokens

/-- The type inside `n` groups without visible delimiters. -/
def wrap (t : SourceType) : Nat → SourceType
  | 0 => t
  | n + 1 => unseen (t.wrap n)

end SourceType

end PackedFields
