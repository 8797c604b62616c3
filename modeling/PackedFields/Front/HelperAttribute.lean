import PackedFields.Schema.Basic
import PackedFields.Syntax.Tree
import PackedFields.Token.Lexer

/-!
# Helper attributes

Two attributes on a field say how it is divided. `bit_field(T, W, N)` declares the next sub-field:
its type, its width (or `_` for a truth value), and its name, as an identifier or as a string
literal that holds one. The marker `shared` makes all instances share one value.

The arguments of a declaration are a stream of tokens, since what a macro writes into a declaration
can stand in groups without visible delimiters. Everything else is read flat.
-/

namespace PackedFields

open PackedFields.Parser

namespace SubField

/-- The largest width that can be declared. -/
def maxWidth : Nat := 128

/-- Reads the type of a sub-field by `type`. -/
def kindBy (type : Parser SourceType) : Parser Kind := do
  let t ← type
  match Kind.ofSource? t with
  | some k => return k
  | none => throw ⟨.valueType, t.place⟩

/-- Reads the type of a sub-field in source text. -/
def kindParser : Parser Kind := kindBy (Parser.type true)

/-- The width that a number stands for, at the given place. -/
def checkWidth (n : Nat) (place : Span) : Except SyntaxError Nat :=
  if Literal.wordLimit ≤ n then .error ⟨.tooLarge, place⟩
  else if n = 0 ∨ maxWidth < n then .error ⟨.widthRange, place⟩
  else .ok n

/-- Reads the width of a sub-field of the kind `kind`. -/
def widthParser (kind : Kind) : Parser Nat := fun c =>
  match c.rest with
  | .ident ⟨"_", false⟩ s :: rest =>
    if kind = .bool then .ok (1, { c with rest }) else .error ⟨.widthOmitted, s⟩
  | .literal spelling s :: rest =>
    match Literal.whole? spelling with
    | some n => do
      let w ← checkWidth n s
      .ok (w, { c with rest })
    | none => expected [.integer] c
  | .punct '-' _ s :: .literal spelling t :: _ =>
    if (Literal.whole? spelling).isSome then .error ⟨.negative, s.through t⟩
    else expected [.integer] c
  | _ => expected [.integer] c

/-- The name that a text consists of: a single identifier, with nothing but blanks and comments
around it. Only a name without a mark can be made of a text. -/
def nameOfText (text : String) : Except SyntaxError.Cause Name :=
  match lex text with
  | some [.ident n _] =>
    if n.isKeyword then .error .nameText
    else if n.raw then .error (.markedNameText n)
    else .ok n
  | _ => .error .nameText

/-- The text of the string literal that stands next, and its place. -/
def nextText? : List Token → Option (String × Span)
  | .literal spelling s :: _ => (Literal.text? spelling).map (·, s)
  | _ => none

/-- Reads the name of a sub-field, and its place. -/
def nameParser : Parser (Name × Span) := fun c =>
  match nextText? c.rest with
  | some (text, s) =>
    match nameOfText text with
    | .ok n => .ok ((n, s), { c with rest := c.rest.tail })
    | .error cause => .error ⟨cause, s⟩
  | none => Parser.name c

/-- Reads the declaration of a sub-field, whose type `kind` reads, with a comma at the end if there
is one. -/
def declarationBy (kind : Parser Kind) : Parser SubField := do
  let kind ← kind
  let _ ← mark ","
  let width ← widthParser kind
  let _ ← mark ","
  let (n, place) ← nameParser
  let _ ← mark? ","
  return ⟨kind, width, n, place⟩

/-- Reads the declaration of a sub-field in source text. -/
def parser : Parser SubField := declarationBy kindParser

/-- The declaration of a sub-field by the arguments of an attribute, which end at `stop`. -/
def ofStream (arguments : List TokenTree) (stop : Span) : Except SyntaxError SubField :=
  (declarationBy (kindBy (TokenTree.typeOf arguments))).runAll (TokenTree.flat arguments) stop

/-- The declaration of a sub-field by arguments in source text. -/
def ofArguments (arguments : List Token) (stop : Span) : Except SyntaxError SubField :=
  ofStream (TokenTree.ofTokens arguments) stop

theorem ofArguments_eq_runAll (arguments : List Token) (stop : Span) :
    ofArguments arguments stop = parser.runAll arguments stop := by
  rw [ofArguments, ofStream, TokenTree.flat_ofTokens,
    TokenTree.typeOf_of_startsUnseen (TokenTree.startsUnseen_ofTokens arguments)]
  rfl

end SubField

namespace Attribute

/-- Whether the attribute declares a sub-field. -/
def isBitField (a : Attribute) : Bool := a.isCalled "bit_field"

/-- Whether the attribute marks a shared field. -/
def isShared (a : Attribute) : Bool := a.isCalled "shared"

/-- Whether the attribute is one of the two that divide a field. -/
def isHelper (a : Attribute) : Bool := a.isBitField || a.isShared

/-- The sub-field that the attribute declares. -/
def subField (a : Attribute) : Except SyntaxError SubField :=
  match a.input with
  | .bare => .error ⟨.noArguments, a.pathPlace⟩
  | .value s _ => .error ⟨.valueForArguments, s⟩
  | .list _ inner _ s => SubField.ofArguments inner s

/-- What is wrong with the attribute as a marker, after another one if `repeated`. -/
def markerError? (a : Attribute) (repeated : Bool) : Option SyntaxError :=
  match a.input with
  | .list _ _ o _ => some ⟨.markerWithInput, o⟩
  | .value s _ => some ⟨.markerWithInput, s⟩
  | .bare => if repeated then some ⟨.sharedTwice, a.place⟩ else none

end Attribute

/-- What the helper attributes of a field say. -/
structure HelperAttributes where
  /-- The sub-fields, in order. -/
  subFields : List SubField := []
  /-- Whether the field is shared. -/
  shared : Bool := false
  /-- What is wrong with attributes, in order. -/
  errors : List SyntaxError := []
  deriving Repr, Inhabited

namespace HelperAttributes

/-- Adds what one more attribute says. A marked name in a string literal is beyond repair and
stops the reading. -/
def add (h : HelperAttributes) (a : Attribute) : Except SyntaxError HelperAttributes :=
  if a.isBitField then
    match a.subField with
    | .ok d => .ok { h with subFields := h.subFields ++ [d] }
    | .error ⟨.markedNameText n, s⟩ => .error ⟨.markedNameText n, s⟩
    | .error e => .ok { h with errors := h.errors ++ [e] }
  else if a.isShared then
    match a.markerError? h.shared with
    | some e => .ok { h with errors := h.errors ++ [e] }
    | none => .ok { h with shared := true }
  else .ok h

/-- What the attributes of a field say. What is wrong with them comes after what was wrong
`earlier`. -/
def ofAttributes (as : List Attribute) (earlier : List SyntaxError := []) :
    Except SyntaxError HelperAttributes :=
  as.foldlM add { errors := earlier }

/-- The attributes that do not divide the field. -/
def strip (as : List Attribute) : List Attribute := as.filter (!·.isHelper)

end HelperAttributes

/-- The attributes that a text consists of. -/
def Attribute.parseAll (ts : List Token) : Except SyntaxError (List Attribute) :=
  Parser.attributes.runAll ts .nowhere

end PackedFields
