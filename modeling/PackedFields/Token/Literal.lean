import PackedFields.Text.NameChars

/-!
# Literals

How far a literal reaches, and what it means. The reading functions take the characters from the
start of a literal on; they answer with what the literal holds and with the characters after it,
or with nothing if no such literal starts there.

Quoted literals come in three flavors, which differ in the characters and the escapes they admit.
A quoted literal is read by a machine that looks at one character at a time (`Mode.step`).
-/

namespace PackedFields.Literal

/-- What a quoted literal holds. -/
inductive Flavor where
  /-- Characters. -/
  | text
  /-- Bytes: only characters below 128 stand for themselves. -/
  | bytes
  /-- Characters up to a closing null, which must not occur among them. -/
  | nullEnded
  deriving DecidableEq, Repr

/-- Whether `c` may stand for itself in a literal of the flavor. -/
def Flavor.allows : Flavor → Char → Bool
  | .text, _ => true
  | .bytes, c => c.toNat < 128
  | .nullEnded, c => c ≠ '\x00'

/-- Whether the flavor admits an escape that stands for the code point `n`. -/
def Flavor.admits : Flavor → Nat → Bool
  | .text, n => n < 128
  | .bytes, _ => true
  | .nullEnded, n => n ≠ 0

/-- The value of a hexadecimal digit. -/
def hexDigit? (c : Char) : Option Nat :=
  if '0' ≤ c ∧ c ≤ '9' then some (c.toNat - '0'.toNat)
  else if 'a' ≤ c ∧ c ≤ 'f' then some (c.toNat - 'a'.toNat + 10)
  else if 'A' ≤ c ∧ c ≤ 'F' then some (c.toNat - 'A'.toNat + 10)
  else none

/-- The character with the code point `n`, if there is one. -/
def scalar? (n : Nat) : Option Char := if n.isValidChar then some (Char.ofNat n) else none

/-! ## Quoted literals -/

/-- What a reader of a quoted literal expects next. -/
inductive Mode where
  /-- A character that stands for itself, an escape, or the closing quote. -/
  | plain
  /-- The line feed after a carriage return. -/
  | lineFeed
  /-- The letter of an escape. -/
  | escape
  /-- The first of two hexadecimal digits. -/
  | highDigit
  /-- The second of two hexadecimal digits. -/
  | lowDigit (high : Nat)
  /-- The brace before a code point. -/
  | codeOpen
  /-- A digit of a code point, or the brace after it. -/
  | code (value count : Nat)
  /-- What is left of a line break that a backslash hides, with the blanks after it. -/
  | hidden
  /-- The line feed after a hidden carriage return. -/
  | hiddenLineFeed
  deriving DecidableEq, Repr

/-- What one character of a quoted literal amounts to. -/
inductive Step where
  /-- It closes the literal. -/
  | close
  /-- It adds these characters to the content; what to expect next is `next`. -/
  | go (next : Mode) (added : List Char)

/-- The letter after a backslash. -/
def escapeStep (f : Flavor) (c : Char) : Option Step :=
  if c = 'n' then some (.go .plain ['\n'])
  else if c = 'r' then some (.go .plain ['\r'])
  else if c = 't' then some (.go .plain ['\t'])
  else if c = '\\' then some (.go .plain ['\\'])
  else if c = '\x27' then some (.go .plain ['\x27'])
  else if c = '"' then some (.go .plain ['"'])
  else if c = '0' then if f = .nullEnded then none else some (.go .plain ['\x00'])
  else if c = 'x' then some (.go .highDigit [])
  else if c = 'u' then if f = .bytes then none else some (.go .codeOpen [])
  else if c = '\n' then some (.go .hidden [])
  else if c = '\r' then some (.go .hiddenLineFeed [])
  else none

/-- A character where a plain one is expected. -/
def plainStep (f : Flavor) (c : Char) : Option Step :=
  if c = '"' then some .close
  else if c = '\\' then some (.go .escape [])
  else if c = '\r' then some (.go .lineFeed [])
  else if f.allows c then some (.go .plain [c])
  else none

/-- A character of a code point between braces: at most six digits, which a low line may
separate. -/
def codeStep (f : Flavor) (value count : Nat) (c : Char) : Option Step :=
  match hexDigit? c with
  | some d => if count < 6 then some (.go (.code (value * 16 + d) (count + 1)) []) else none
  | none =>
    if count = 0 then none
    else if c = '_' then some (.go (.code value count) [])
    else if c = '}' then do
      let ch ← scalar? value
      if f = .nullEnded ∧ value = 0 then none
      some (.go .plain [ch])
    else none

/-- Reads the character `c` of a quoted literal. -/
def Mode.step (f : Flavor) (c : Char) : Mode → Option Step
  | .plain => plainStep f c
  | .lineFeed => if c = '\n' then some (.go .plain ['\n']) else none
  | .escape => escapeStep f c
  | .highDigit => do
    let d ← hexDigit? c
    if f = .text ∧ 8 ≤ d then none
    some (.go (.lowDigit d) [])
  | .lowDigit high => do
    let d ← hexDigit? c
    let n := high * 16 + d
    if f.admits n then some (.go .plain [Char.ofNat n]) else none
  | .codeOpen => if c = '{' then some (.go (.code 0 0) []) else none
  | .code value count => codeStep f value count c
  | .hidden =>
    if c = ' ' ∨ c = '\t' ∨ c = '\n' then some (.go .hidden [])
    else if c = '\r' then some (.go .hiddenLineFeed [])
    else plainStep f c
  | .hiddenLineFeed => if c = '\n' then some (.go .hidden []) else none

/-- Reads a quoted literal from the mode `m` up to its closing quote: the content, and the
characters after the quote. -/
def quoted (f : Flavor) (m : Mode) : List Char → Option (List Char × List Char)
  | [] => none
  | c :: cs => do
    match ← m.step f c with
    | .close => some ([], cs)
    | .go next added =>
      let (content, rest) ← quoted f next cs
      some (added ++ content, rest)

/-- Reads an escape after its backslash, in a literal of one character. -/
def escaped (f : Flavor) (m : Mode) : List Char → Option (List Char)
  | [] => none
  | c :: cs => do
    match ← m.step f c with
    | .close => none
    | .go .plain _ => some cs
    | .go .hidden _ => none
    | .go .hiddenLineFeed _ => none
    | .go next _ => escaped f next cs

/-- Reads what stands between two apostrophes, and the second of them. -/
def character (f : Flavor) : List Char → Option (List Char)
  | [] => none
  | c :: cs => do
    let rest ← if c = '\\' then escaped f .escape cs else if f.allows c then some cs else none
    match rest with
    | '\x27' :: rest => some rest
    | _ => none

/-- Reads a raw literal after its opening quote: the content and the characters after the closing
quote and its `hashes`. A carriage return must be followed by a line feed. -/
def raw (f : Flavor) (hashes : List Char) : List Char → Option (List Char × List Char)
  | [] => none
  | c :: cs =>
    if c = '"' ∧ hashes.isPrefixOf cs then some ([], cs.drop hashes.length)
    else if c = '\r' ∧ cs.head? ≠ some '\n' then none
    else if f.allows c then do
      let (content, rest) ← raw f hashes cs
      some (c :: content, rest)
    else none

/-- Reads a raw literal from its hashes on. At most 255 hashes are allowed. -/
def hashedRaw (f : Flavor) (cs : List Char) : Option (List Char × List Char) :=
  let hashes := cs.takeWhile (· = '#')
  match cs.dropWhile (· = '#') with
  | '"' :: rest => if hashes.length ≤ 255 then raw f hashes rest else none
  | _ => none

/-- The characters after an identifier that starts here, or all of them if none does. -/
def skipSuffix (cs : List Char) : List Char :=
  match cs with
  | [] => []
  | c :: rest => if Text.opensName c then rest.dropWhile Text.continuesName else cs

/-- Reads a literal with quotes: the content of a text, and the characters after the literal and
its suffix. -/
def quotedAny? (cs : List Char) : Option (Option (List Char) × List Char) :=
  let holding := fun (p : List Char × List Char) => (some p.1, skipSuffix p.2)
  let other := fun (p : List Char × List Char) => (none, skipSuffix p.2)
  match cs with
  | '"' :: rest => (quoted .text .plain rest).map holding
  | 'r' :: rest => (hashedRaw .text rest).map holding
  | 'b' :: '"' :: rest => (quoted .bytes .plain rest).map other
  | 'b' :: 'r' :: rest => (hashedRaw .bytes rest).map other
  | 'c' :: '"' :: rest => (quoted .nullEnded .plain rest).map other
  | 'c' :: 'r' :: rest => (hashedRaw .nullEnded rest).map other
  | 'b' :: '\x27' :: rest => (character .bytes rest).map fun r => (none, skipSuffix r)
  | '\x27' :: rest => (character .text rest).map fun r => (none, skipSuffix r)
  | _ => none

/-! ## Numbers -/

/-- Whether `c` is a decimal digit. -/
def isDigit (c : Char) : Bool := '0' ≤ c && c ≤ '9'

/-- Whether `c` may stand between the digits of a number. -/
def isDigitOrGap (c : Char) : Bool := isDigit c || c == '_'

/-- The characters after the digits of an exponent, if it has digits: the letter that opens it has
been read, and so have a sign if `signed` and a digit if `valued`. -/
def afterExponent (signed valued : Bool) : List Char → Option (List Char)
  | [] => if valued then some [] else none
  | c :: cs =>
    if isDigit c then afterExponent signed true cs
    else if c = '_' then afterExponent signed valued cs
    else if valued then some (c :: cs)
    else if (c = '+' ∨ c = '-') ∧ !signed then afterExponent true valued cs
    else none

/-- The characters after the exponent that may start here. -/
def afterFraction (cs : List Char) : Option (List Char) :=
  match cs with
  | c :: rest => if c = 'e' ∨ c = 'E' then afterExponent false false rest else none
  | [] => none

/-- The characters after the digits of a fractional number: one with a point, which neither
another point nor an identifier follows, or with an exponent. -/
def afterFloatDigits (cs : List Char) : Option (List Char) :=
  match cs with
  | [] => none
  | c :: rest =>
    if isDigit c then
      match rest.dropWhile isDigitOrGap with
      | '.' :: rest =>
        if rest.head?.any (fun d => d == '.' || Text.opensName d) then none
        else
          let rest := rest.dropWhile isDigitOrGap
          some ((afterFraction rest).getD rest)
      | rest => afterFraction rest
    else none

/-- The base that a number announces, and the characters after the announcement. -/
def base : List Char → Nat × List Char
  | '0' :: 'x' :: cs => (16, cs)
  | '0' :: 'o' :: cs => (8, cs)
  | '0' :: 'b' :: cs => (2, cs)
  | cs => (10, cs)

/-- The characters after the digits of a whole number in the base `b`. A decimal digit that the
base lacks spoils the number, a letter ends it. `some` digit has been read if `begun`. -/
def afterIntDigits (b : Nat) (begun : Bool) : List Char → Option (List Char)
  | [] => if begun then some [] else none
  | c :: cs =>
    if isDigit c then
      if c.toNat - '0'.toNat < b then afterIntDigits b true cs else none
    else if c = '_' then
      if !begun ∧ b = 10 then none else afterIntDigits b begun cs
    else if (hexDigit? c).any (· < b) then afterIntDigits b true cs
    else if begun then some (c :: cs)
    else none

/-- Nothing, if an identifier would go on at the start of the given characters. -/
def wordBreak (cs : List Char) : Option (List Char) :=
  if cs.head?.any Text.continuesName then none else some cs

/-- The characters after the number that starts here. -/
def afterNumber? (cs : List Char) : Option (List Char) :=
  let whole := (afterFloatDigits cs).bind fun rest => wordBreak (skipSuffix rest)
  whole <|> do
    let (b, rest) := base cs
    wordBreak (skipSuffix (← afterIntDigits b false rest))

/-- The characters after the literal that starts here. -/
def after? (cs : List Char) : Option (List Char) :=
  ((quotedAny? cs).map Prod.snd) <|> afterNumber? cs

/-! ## Meaning -/

/-- The text that a literal holds, if it is a literal that holds a text. -/
def text? (spelling : String) : Option String := do
  let (content, _) ← quotedAny? spelling.toList
  content.map String.ofList

/-- Whether an exponent follows the letter that could open one. -/
def exponentFollows : List Char → Bool
  | '_' :: cs => exponentFollows cs
  | c :: _ => c == '+' || c == '-' || isDigit c
  | [] => false

/-- The value of the digits of a whole number in the base `b`, after digits of the value `value`,
and whether a suffix follows the digits. Nothing else may follow them. -/
def wholeFrom (b : Nat) (value : Nat) (begun : Bool) : List Char → Option (Nat × Bool)
  | [] => if begun then some (value, false) else none
  | c :: cs =>
    let suffix := if begun && (skipSuffix (c :: cs)).isEmpty then some (value, true) else none
    if c = '_' then wholeFrom b value begun cs
    else if b = 10 ∧ c = '.' then none
    else if b = 10 ∧ (c = 'e' ∨ c = 'E') then if exponentFollows cs then none else suffix
    else match hexDigit? c with
      | some d =>
        if isDigit c ∨ 10 < b then
          if d < b then wholeFrom b (value * b + d) true cs else none
        else suffix
      | none => suffix

/-- The value of a literal that is a whole number, and whether it has a suffix. -/
def number? (spelling : String) : Option (Nat × Bool) :=
  match spelling.toList with
  | [] => none
  | c :: cs =>
    if isDigit c then
      let (b, digits) := base (c :: cs)
      wholeFrom b 0 false digits
    else none

/-- The value of a literal that is a whole number, with or without a suffix. -/
def whole? (spelling : String) : Option Nat := (number? spelling).map Prod.fst

/-- Whether a literal is a number, whole or not. -/
def isNumber (spelling : String) : Bool := spelling.toList.head?.any isDigit

/-- One more than the largest number that is read as a number of 32 bits. -/
def wordLimit : Nat := 0x100000000

end PackedFields.Literal
