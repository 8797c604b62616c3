import PackedFields.Text.Printable

/-!
# Quoted text

`quote` writes a text as a string literal. Characters that show on their own stand for
themselves; the quote, the backslash and the common controls have short escapes; every other
character is written by its code point. The apostrophe needs no escape between quotes.
-/

namespace PackedFields.Text

/-- The escape of `c` by its code point, in lowercase hexadecimal digits. -/
def byCodePoint (c : Char) : List Char :=
  ['\\', 'u', '{'] ++ Nat.toDigits 16 c.toNat ++ ['}']

/-- The null character, before the character `next`: the short escape, unless an octal digit
follows that could be read as part of it. -/
def quoteNull (next : Option Char) : List Char :=
  match next with
  | some d => if '0' ≤ d ∧ d ≤ '7' then ['\\', 'x', '0', '0'] else ['\\', '0']
  | none => ['\\', '0']

/-- How `c` is written between quotes, before the character `next`. -/
def quoteChar (c : Char) (next : Option Char) : List Char :=
  if c = '\x00' then quoteNull next
  else if c = '\t' then ['\\', 't']
  else if c = '\r' then ['\\', 'r']
  else if c = '\n' then ['\\', 'n']
  else if c = '\\' then ['\\', '\\']
  else if c = '"' then ['\\', '"']
  else if isShown c then [c]
  else byCodePoint c

/-- The characters between the quotes. -/
def quoteChars : List Char → List Char
  | [] => []
  | c :: cs => quoteChar c cs.head? ++ quoteChars cs

/-- The string literal that holds `text`. -/
def quote (text : String) : String :=
  String.ofList ('"' :: quoteChars text.toList ++ ['"'])

end PackedFields.Text
