import PackedFields.Name
import PackedFields.Text.Span

/-!
# Tokens

Source text is a sequence of tokens, and a pair of delimiters with all that stands between them is
a single token. A punctuation token is one character; it is *joint* if it forms an operator or a
lifetime with the token that follows.

Groups without visible delimiters, in which a macro hands on what it was given, are no tokens: all
that reads tokens goes through such a group as if it were not there. The one place where it makes a
difference is the type of a sub-field, whose declaration is read from a stream (`TokenTree`).
-/

namespace PackedFields

/-- A pair of delimiters. -/
inductive Delimiter where
  /-- `(` and `)` -/
  | paren
  /-- `[` and `]` -/
  | bracket
  /-- `{` and `}` -/
  | brace
  deriving DecidableEq, Repr, Inhabited

namespace Delimiter

/-- The character that opens a group. -/
def opening : Delimiter → Char
  | paren => '('
  | bracket => '['
  | brace => '{'

/-- The character that closes a group. -/
def closing : Delimiter → Char
  | paren => ')'
  | bracket => ']'
  | brace => '}'

/-- All pairs of delimiters. -/
def all : List Delimiter := [paren, bracket, brace]

end Delimiter

/-- A token of source text. -/
inductive Token where
  /-- An identifier or a keyword. -/
  | ident (name : Name) (span : Span)
  /-- A punctuation character. -/
  | punct (mark : Char) (joint : Bool) (span : Span)
  /-- A literal, by its spelling. -/
  | literal (spelling : String) (span : Span)
  /-- A delimited group, with the places of its two delimiters. -/
  | group (delimiter : Delimiter) (inner : List Token) (opening closing : Span)
  deriving Repr, Inhabited

namespace Token

/-- The whole place of a token. -/
def span : Token → Span
  | ident _ s => s
  | punct _ _ s => s
  | literal _ s => s
  | group _ _ o c => o.through c

/-- The place at which a complaint about a token points: for a group, its opening delimiter. -/
def front : Token → Span
  | group _ _ o _ => o
  | t => t.span

/-- The span of a list of tokens, from the first to the last. -/
def spanOf (ts : List Token) : Span :=
  match ts.head?, ts.getLast? with
  | some a, some b => a.span.through b.span
  | _, _ => .nowhere

mutual

/-- The number of tokens in a token, itself included. -/
def weight : Token → Nat
  | group _ inner _ _ => weights inner + 1
  | _ => 1

/-- The number of tokens in a list, those inside groups included. -/
def weights : List Token → Nat
  | [] => 0
  | t :: ts => weight t + weights ts

end

end Token

end PackedFields
