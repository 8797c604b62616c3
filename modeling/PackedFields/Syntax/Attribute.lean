import PackedFields.Syntax.Path

/-!
# Attributes

An attribute names a path and may carry an input: a delimited list of tokens, which is kept as it
is written, or a value after an equals sign.
-/

namespace PackedFields

/-- The input of an attribute. -/
inductive AttributeInput where
  /-- No input. -/
  | bare
  /-- Tokens between delimiters. -/
  | list (d : Delimiter) (inner : List Token) (opening closing : Span)
  /-- A value after the equals sign at `sign`. -/
  | value (sign : Span) (tokens : List Token)
  deriving Repr, Inhabited

/-- An attribute. -/
structure Attribute where
  /-- What the attribute names. -/
  path : Path
  /-- The place of the path. -/
  pathPlace : Span
  /-- What the attribute carries. -/
  input : AttributeInput
  /-- The place of the whole attribute. -/
  place : Span
  deriving Repr, Inhabited

namespace Attribute

/-- Whether the attribute is called `w`, without a mark and without other segments. -/
def isCalled (a : Attribute) (w : String) : Bool := a.path.isWord w

/-- The tokens of an attribute's input. -/
def inputTokens : AttributeInput → List Token
  | .bare => []
  | .list d inner o c => [.group d inner o c]
  | .value s ts => .punct '=' false s :: ts

/-- The tokens of an attribute. -/
def tokens (a : Attribute) : List Token := Code.attr (a.path.tokens ++ inputTokens a.input)

/-- The attribute that documents its item by the given line. -/
def doc (line : String) : Attribute :=
  ⟨.ofName ⟨"doc", false⟩, .nowhere, .value .nowhere [Code.string line], .nowhere⟩

end Attribute

end PackedFields
