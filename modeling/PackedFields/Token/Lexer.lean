import PackedFields.Token.Code
import PackedFields.Token.Literal

/-!
# Reading tokens

A text is cut into pieces (`Piece.read?`), pieces without blanks become lexemes that know their
place, and lexemes are nested by their delimiters (`lex`). A documentation comment stands for the
attribute that holds its text.
-/

namespace PackedFields

/-- A stretch of text that the next token, if any, consists of. -/
inductive Piece where
  /-- A blank or a comment. -/
  | blank
  /-- A documentation comment with this text; an `inner` one documents what it stands in. -/
  | doc (inner : Bool) (text : List Char)
  /-- An opening delimiter. -/
  | opening (d : Delimiter)
  /-- A closing delimiter. -/
  | closing (d : Delimiter)
  /-- A literal. -/
  | literal
  /-- A punctuation character. -/
  | mark (c : Char) (joint : Bool)
  /-- An identifier. -/
  | name (n : Name)

namespace Piece

/-- Whether `c` separates tokens: white space, or a mark of text direction. -/
def isBlank (c : Char) : Bool :=
  Text.covers [(9, 13), (32, 32), (133, 133), (160, 160), (5760, 5760), (8192, 8202),
    (8206, 8207), (8232, 8233), (8239, 8239), (8287, 8287), (12288, 12288)] c

/-- The punctuation characters. -/
def marks : List Char := "~!@#$%^&*-=+|;:,<.>/?\x27".toList

/-- Splits the characters at the end of their first line, whose line break they keep. -/
def line : List Char → List Char × List Char
  | [] => ([], [])
  | '\n' :: cs => ([], '\n' :: cs)
  | '\r' :: '\n' :: cs => ([], '\n' :: cs)
  | c :: cs => let (l, rest) := line cs; (c :: l, rest)

/-- Splits the characters of a block comment, after its opening, at the end of the comment, with
`depth` comments open inside it. The opening and the closing of inner comments are content. -/
def block (depth : Nat) : List Char → Option (List Char × List Char)
  | [] => none
  | '/' :: '*' :: cs => do
    let (b, rest) ← block (depth + 1) cs
    some ('/' :: '*' :: b, rest)
  | '*' :: '/' :: cs =>
    match depth with
    | 0 => some ([], cs)
    | depth + 1 => do
      let (b, rest) ← block depth cs
      some ('*' :: '/' :: b, rest)
  | c :: cs => do
    let (b, rest) ← block depth cs
    some (c :: b, rest)

/-- Whether every carriage return is followed by a line feed. -/
def lineBreaksWhole : List Char → Bool
  | [] => true
  | '\r' :: cs => cs.head? == some '\n' && lineBreaksWhole cs
  | _ :: cs => lineBreaksWhole cs

/-- A documentation comment, unless a carriage return stands alone in it. -/
def docOf (inner : Bool) (p : List Char × List Char) : Option (Piece × List Char) :=
  if lineBreaksWhole p.1 then some (doc inner p.1, p.2) else none

/-- Reads a comment after its opening slash. -/
def comment? : List Char → Option (Piece × List Char)
  | '/' :: '!' :: cs => docOf true (line cs)
  | '/' :: '/' :: '/' :: cs => some (blank, (line cs).2)
  | '/' :: '/' :: cs => docOf false (line cs)
  | '/' :: cs => some (blank, (line cs).2)
  | '*' :: '*' :: '/' :: cs => some (blank, cs)
  | '*' :: '!' :: cs => (block 0 cs).bind (docOf true)
  | '*' :: '*' :: '*' :: cs => (block 0 ('*' :: '*' :: cs)).map fun p => (blank, p.2)
  | '*' :: '*' :: cs => (block 0 cs).bind (docOf false)
  | '*' :: cs => (block 0 cs).map fun p => (blank, p.2)
  | _ => none

/-- Reads an identifier, without regard to what precedes or follows it. -/
def name? (cs : List Char) : Option (Name × List Char) :=
  let (isRaw, body) := match cs with
    | 'r' :: '#' :: cs => (true, cs)
    | cs => (false, cs)
  match body with
  | [] => none
  | c :: rest =>
    if Text.opensName c then
      let n : Name := ⟨String.ofList (c :: rest.takeWhile Text.continuesName), isRaw⟩
      if n.isToken then some (n, rest.dropWhile Text.continuesName) else none
    else none

/-- The openings of quoted literals that also open an identifier. An identifier does not start
where one of them stands, even if the literal is broken. -/
def quoteOpenings : List String :=
  ["r\"", "r#\"", "r##", "b\"", "b\x27", "br\"", "br#", "c\"", "cr\"", "cr#"]

/-- Whether a punctuation character stands here. The slash of a comment is none. -/
def markHere : List Char → Bool
  | '/' :: '/' :: _ => false
  | '/' :: '*' :: _ => false
  | c :: _ => marks.contains c
  | [] => false

/-- Whether an apostrophe before the given characters opens a lifetime: a name follows, and no
second apostrophe closes it. -/
def lifetimeFollows (cs : List Char) : Bool :=
  match name? cs with
  | none => false
  | some (n, rest) =>
    match rest with
    | '\x27' :: _ => false
    | '#' :: _ => n.raw
    | _ => true

/-- Reads a piece that is no blank, comment or delimiter. -/
def leaf? (cs : List Char) : Option (Piece × List Char) :=
  match Literal.after? cs with
  | some rest => some (literal, rest)
  | none =>
    match cs with
    | [] => none
    | c :: rest =>
      if markHere cs then
        if c = '\x27' then
          if lifetimeFollows rest then some (mark c true, rest) else none
        else some (mark c (markHere rest), rest)
      else if quoteOpenings.any (·.toList.isPrefixOf cs) then none
      else (name? cs).map fun p => (name p.1, p.2)

/-- The spelling of the literal that stands where text made no sense. -/
def senseless : List Char := "(/*ERROR*/)".toList

/-- Reads the next piece. -/
def read? (cs : List Char) : Option (Piece × List Char) :=
  match cs with
  | [] => none
  | c :: rest =>
    if isBlank c then some (blank, rest)
    else if senseless.isPrefixOf cs then some (literal, cs.drop senseless.length)
    else match if c = '/' then comment? rest else none with
      | some p => some p
      | none =>
        match Delimiter.all.find? (·.opening = c) with
        | some d => some (opening d, rest)
        | none =>
          match Delimiter.all.find? (·.closing = c) with
          | some d => some (closing d, rest)
          | none => leaf? cs

end Piece

/-- A delimiter or a run of whole tokens, in its place. -/
inductive Lexeme where
  /-- An opening delimiter. -/
  | opening (d : Delimiter) (span : Span)
  /-- A closing delimiter. -/
  | closing (d : Delimiter) (span : Span)
  /-- Whole tokens. -/
  | tokens (ts : List Token)

namespace Lexeme

/-- The attribute that a documentation comment stands for. All its tokens lie where the comment
lies. -/
def ofDoc (inner : Bool) (text : List Char) (span : Span) : List Token :=
  let sign := fun c => Token.punct c false span
  [sign '#'] ++ (if inner then [sign '!'] else []) ++
    [.group .bracket [.ident ⟨"doc", false⟩ span, sign '=',
      .literal (Text.quote (String.ofList text)) span] span span]

/-- The lexeme of a piece with the given spelling and place. A blank has none. -/
def ofPiece (spelling : List Char) (span : Span) : Piece → Option Lexeme
  | .blank => none
  | .doc inner text => some (tokens (ofDoc inner text span))
  | .opening d => some (opening d span)
  | .closing d => some (closing d span)
  | .literal => some (tokens [.literal (String.ofList spelling) span])
  | .mark c joint => some (tokens [.punct c joint span])
  | .name n => some (tokens [.ident n span])

/-- The lexemes of a text that starts at the position `p`. -/
def all? (p : Position) (cs : List Char) : Option (List Lexeme) :=
  match cs with
  | [] => some []
  | c :: cs =>
    match Piece.read? (c :: cs) with
    | none => none
    | some (piece, rest) =>
      if rest.length < (c :: cs).length then do
        let spelling := (c :: cs).take ((c :: cs).length - rest.length)
        let stop := p.advance spelling
        let more ← all? stop rest
        some ((ofPiece spelling ⟨p, stop⟩ piece).toList ++ more)
      else none
termination_by cs.length
decreasing_by assumption

/-- Nests lexemes by their delimiters. `done` are the tokens read so far at the present depth, and
`outer` the groups that are still open, each with its delimiter, its place and the tokens before
it; both have the latest first. -/
def nest (outer : List (Delimiter × Span × List Token)) (done : List Token) :
    List Lexeme → Option (List Token)
  | [] => if outer.isEmpty then some done.reverse else none
  | tokens ts :: more => nest outer (ts.reverse ++ done) more
  | opening d s :: more => nest ((d, s, done) :: outer) [] more
  | closing d s :: more =>
    match outer with
    | (e, o, before) :: outer =>
      if d = e then nest outer (.group d done.reverse o s :: before) more else none
    | [] => none

end Lexeme

/-- The tokens of a text, if it can be cut into tokens. A byte order mark at its start is
skipped. -/
def lex (source : String) : Option (List Token) := do
  let cs := source.toList
  let lexemes ← match cs with
    | '\uFEFF' :: rest => Lexeme.all? (Position.origin.step '\uFEFF') rest
    | _ => Lexeme.all? .origin cs
  Lexeme.nest [] [] lexemes

end PackedFields
