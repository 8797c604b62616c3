import PackedFields.Text.Quoted
import PackedFields.Token

/-!
# What can be wrong with a source text

A `SyntaxError` says what is wrong with an item or with one of its attributes, and where. Its
wording is in `SyntaxError.Cause.message` alone.
-/

namespace PackedFields

/-- What a reader of tokens can ask for. -/
inductive Wanted where
  /-- A punctuation mark. -/
  | mark (spelling : String)
  /-- A keyword. -/
  | word (spelling : String)
  /-- An identifier. -/
  | name
  /-- A segment after the separator of a path. -/
  | segment
  /-- A whole number. -/
  | integer
  /-- A literal. -/
  | literal
  /-- A string literal. -/
  | string
  /-- A lifetime. -/
  | lifetime
  /-- A delimited group. -/
  | group (d : Delimiter)
  /-- A group, with whatever delimiters. -/
  | delimiter
  /-- An expression. -/
  | expression
  /-- What names a field of a value. -/
  | member
  /-- What a label can stand before. -/
  | labelled
  /-- The end of a range that includes it. -/
  | upperBound
  /-- A new name for what is brought in. -/
  | newName
  deriving DecidableEq, Repr

namespace Wanted

/-- The phrase for what was asked for. -/
def phrase : Wanted → String
  | mark s => "`" ++ s ++ "`"
  | word s => "`" ++ s ++ "`"
  | name => "identifier"
  | segment => "path segment after `::`"
  | integer => "integer literal"
  | literal => "literal"
  | string => "string literal"
  | lifetime => "lifetime"
  | group .paren => "parentheses"
  | group .bracket => "square brackets"
  | group .brace => "curly braces"
  | delimiter => "delimiter"
  | expression => "an expression"
  | member => "identifier or integer"
  | labelled => "loop or block expression"
  | upperBound => "range upper bound"
  | newName => "identifier or underscore"

/-- What a value type can start with. -/
def typeStarts : List Wanted := [
  word "for", group .paren, word "fn", word "unsafe", word "extern", name, mark "::", mark "<",
  word "dyn", group .bracket, mark "*", mark "&", mark "!", word "impl", word "_", lifetime]

/-- What a type can start with after lifetimes of its own. -/
def boundTypeStarts : List Wanted := [
  name, word "fn", word "unsafe", word "extern", word "super", word "self", word "Self",
  word "crate"]

/-- What a pattern can start with. -/
def patternStarts : List Wanted := [
  name, mark "::", mark "<", word "_", literal, word "const", word "ref", word "mut", mark "&",
  group .paren, group .bracket, mark ".."]

/-- What the end of a range can start with in a pattern. -/
def rangeEnds : List Wanted := [
  literal, name, mark "::", mark "<", word "self", word "Self", word "super", word "crate",
  word "const"]

/-- What a path to a macro can start with. -/
def macroStarts : List Wanted := [name, word "self", word "super", word "crate", mark "::"]

/-- What an item can start with, a macro apart. -/
def itemStarts : List Wanted := [
  "fn", "extern", "use", "static", "const", "unsafe", "mod", "type", "struct", "enum", "union",
  "trait", "auto", "impl", "default", "macro"].map word

end Wanted

namespace SyntaxError

/-- The ways in which a text can fail to be what it should be. -/
inductive Cause where
  /-- Another token, or none if `atEnd`, stands where one of `choices` should, if any is given. -/
  | expected (choices : List Wanted) (atEnd : Bool)
  /-- A punctuation mark is missing. -/
  | missing (mark : String)
  /-- A keyword stands where an identifier should. -/
  | keyword (name : Name)
  /-- A token is left over, inside the given delimiters if there are any. -/
  | leftover (inside : Option Delimiter)
  /-- A number of 32 bits is negative. -/
  | negative
  /-- A number does not fit 32 bits. -/
  | tooLarge
  /-- A width is not one of 1 to 128. -/
  | widthRange
  /-- A sub-field that is not a `bool` has no width. -/
  | widthOmitted
  /-- The attribute `bit_field` has no arguments. -/
  | noArguments
  /-- The attribute `bit_field` has a value in place of arguments. -/
  | valueForArguments
  /-- The attribute `shared` has arguments or a value. -/
  | markerWithInput
  /-- The attribute `shared` is given twice. -/
  | sharedTwice
  /-- The type of a sub-field is neither `bool` nor an integer type. -/
  | valueType
  /-- The text of a string literal is not the name of a sub-field. -/
  | nameText
  /-- The text of a string literal is a name with a mark, which cannot be made a name of. -/
  | markedNameText (name : Name)
  /-- The type of a backing field is not an integer type. -/
  | backingType
  /-- The item is of a kind that has no fields. -/
  | notStruct
  /-- The container argument `crate` is given twice. -/
  | crateTwice
  /-- A trait object names no trait. -/
  | noObjectTrait
  /-- A type that is only known by its traits names none. -/
  | noTrait
  /-- A bound lists captured parameters where it must not. -/
  | captures
  /-- A bound is constant where it must not be. -/
  | constBound
  /-- A bound is constant on condition where it must not be. -/
  | maybeConstBound
  /-- A trait with a question mark has lifetimes of its own. -/
  | optionalBinder
  /-- The conditions after `where` have parameters of their own. -/
  | whereParams
  /-- The value of an attribute has an attribute. -/
  | attributeInAttribute
  /-- A range that starts at its dots has attributes. -/
  | rangeAttributes
  /-- A comparison is compared again. -/
  | chainedComparison
  /-- A cast is followed at once by the given construct. -/
  | castFollowed (construct : String)
  /-- A loop or block with a label follows `break` without parentheses. -/
  | bareLabel
  /-- The number of a field has a suffix. -/
  | suffixedNumber
  /-- A range without both ends stands in a slice. -/
  | openRangeInSlice
  /-- A statement that needs a semicolon has none. -/
  | openStatement
  /-- A function takes itself twice. -/
  | secondReceiver
  /-- A function takes itself after other parameters. -/
  | lateReceiver
  /-- An implementation is denied, of no trait. -/
  | negativeInherent
  deriving DecidableEq, Repr

/-- The integer types, as messages list them. -/
def integerTypes : String := "u8/u16/u32/u64/u128/i8/i16/i32/i64/i128"

/-- The choices as a phrase. -/
def oneOf : List Wanted → String
  | [] => ""
  | [w] => w.phrase
  | [v, w] => v.phrase ++ " or " ++ w.phrase
  | ws => "one of: " ++ ", ".intercalate (ws.map Wanted.phrase)

/-- The wording of a cause. -/
def Cause.message : Cause → String
  | expected [] atEnd => if atEnd then "unexpected end of input" else "unexpected token"
  | expected choices atEnd =>
    (if atEnd then "unexpected end of input, " else "") ++ "expected " ++ oneOf choices
  | missing m => "expected `" ++ m ++ "`"
  | keyword n => "expected identifier, found keyword `" ++ n.spelling ++ "`"
  | leftover none => "unexpected token"
  | leftover (some d) => "unexpected token, expected `" ++ d.closing.toString ++ "`"
  | negative => "invalid digit found in string"
  | tooLarge => "number too large to fit in target type"
  | widthRange => "sub-field width must be 1..=128"
  | widthOmitted => "only `bool` sub-fields may leave the width as `_`"
  | noArguments => "expected attribute arguments in parentheses: #[bit_field(...)]"
  | valueForArguments => "expected parentheses: #[bit_field(...)]"
  | markerWithInput => "unexpected token in attribute"
  | sharedTwice => "duplicate #[shared]"
  | valueType => "sub-field type must be `bool` or one of " ++ integerTypes
  | nameText => "sub-field name must be a valid identifier"
  | markedNameText n => Text.quote n.spelling ++ " is not a valid Ident"
  | backingType => "backing field must be one of " ++ integerTypes
  | notStruct => "#[bit_divisible] can only be applied to a struct"
  | crateTwice => "duplicate `crate` argument"
  | noObjectTrait => "at least one trait is required for an object type"
  | noTrait => "at least one trait must be specified"
  | captures => "`use<...>` precise capturing syntax is not allowed here"
  | constBound => "`const` is not allowed here"
  | maybeConstBound => "`[const]` is not allowed here"
  | optionalBinder => "`for<...>` binder not allowed with `?` trait polarity modifier"
  | whereParams => "generic parameters on `where` clauses are reserved for future use"
  | attributeInAttribute => "unexpected attribute inside of attribute"
  | rangeAttributes =>
    "attributes are not allowed on range expressions starting with `..`"
  | chainedComparison => "comparison operators cannot be chained"
  | castFollowed construct => "casts cannot be followed by " ++ construct
  | bareLabel => "parentheses required"
  | suffixedNumber => "expected unsuffixed integer"
  | openRangeInSlice => "range pattern is not allowed unparenthesized inside slice pattern"
  | openStatement => "unexpected token, expected `;`"
  | secondReceiver => "unexpected second method receiver"
  | lateReceiver => "unexpected method receiver"
  | negativeInherent => "inherent impls cannot be negative"

end SyntaxError

/-- Something wrong with a source text. -/
structure SyntaxError where
  /-- What is wrong. -/
  cause : SyntaxError.Cause
  /-- Where it is wrong. -/
  place : Span
  deriving DecidableEq, Repr

/-- The wording of an error. -/
def SyntaxError.message (e : SyntaxError) : String := e.cause.message

end PackedFields
