import PackedFields.Text.NameChars
import PackedFields.Text.Lowercase

/-!
# Names

A name is an identifier of the language the accessors are written in. A keyword can serve as a
name if it is marked `r#`; five words cannot be names at all. The mark is part of the spelling of
a name and not of its text: `r#type` and `type` have the same text.
-/

namespace PackedFields

/-- An identifier. -/
structure Name where
  /-- The text of the name, without a mark. -/
  text : String
  /-- Whether the name carries the mark `r#`. -/
  raw : Bool := false
  deriving DecidableEq, Repr, Inhabited

namespace Name

/-- The words that are not names unless they carry the mark. -/
def keywords : List String := [
  "_", "abstract", "as", "async", "await", "become", "box", "break", "const", "continue",
  "crate", "do", "dyn", "else", "enum", "extern", "false", "final", "fn", "for", "if", "impl",
  "in", "let", "loop", "macro", "match", "mod", "move", "mut", "override", "priv", "pub", "ref",
  "return", "Self", "self", "static", "struct", "super", "trait", "true", "try", "type",
  "typeof", "unsafe", "unsized", "use", "virtual", "where", "while", "yield"]

/-- The keywords that the mark does not turn into names. -/
def unmarkable : List String := ["_", "self", "Self", "super", "crate"]

/-- Whether `text` has the form of an identifier. -/
def isText (text : String) : Bool :=
  match text.toList with
  | [] => false
  | c :: cs => Text.opensName c && cs.all Text.continuesName

/-- Whether a token can hold the name: its text is an identifier, and it is not one of the
unmarkable words with a mark. -/
def isToken (n : Name) : Bool := isText n.text && !(n.raw && unmarkable.contains n.text)

/-- Whether the name is a keyword without a mark. -/
def isKeyword (n : Name) : Bool := !n.raw && keywords.contains n.text

/-- The name as it is written, with its mark. -/
def spelling (n : Name) : String := if n.raw then "r#" ++ n.text else n.text

/-- The name that is spelled `spelling`, be it one a token can hold or not. -/
def ofSpelling (spelling : String) : Name :=
  match spelling.toList with
  | 'r' :: '#' :: text => ⟨String.ofList text, true⟩
  | _ => ⟨spelling, false⟩

/-- The name that is spelled `spelling`, if a token can hold it. -/
def ofSpelling? (spelling : String) : Option Name :=
  let n := ofSpelling spelling
  if n.isToken then some n else none

/-- The text with its first letter in lowercase. -/
def lowerFirst (text : String) : String :=
  match text.toList with
  | [] => text
  | c :: cs => String.ofList (Text.lowercase c ++ cs)

/-- The name of the parameter that carries the value of a sub-field called `n`: the text with its
first letter in lowercase, and marked, or where no mark is allowed lengthened, if that is a
keyword. -/
def parameter (n : Name) : Name :=
  let text := lowerFirst n.text
  if unmarkable.contains text then ⟨text ++ "_", false⟩
  else ⟨text, keywords.contains text⟩

end Name

end PackedFields
