import PackedFields.Token.Code

/-!
# Support declarations

All generated code refers to the same few declarations: the types of published layouts with their
functions, and the trait that publishes them. `FieldLayout` and `SubFieldLayout` say what these
functions compute.
-/

namespace PackedFields.Support

open Code

/-- A line of documentation. The text is written raw. -/
def rawDoc (line : String) : List Token :=
  attr [word "doc", sign '=', literal ("r\"" ++ line ++ "\"")]

/-- The attribute that derives the traits of plain data. -/
def plainData : List Token :=
  let traits := ["Copy", "Clone", "Debug", "PartialEq", "Eq", "Hash"]
  attr [word "derive", parens (commas (traits.map fun t => [word t]))]

/-- A struct with the given name and fields. -/
def struct (name : String) (fields : List Token) : List Token :=
  plainData ++ words ["pub", "struct", name] ++ [braces fields]

/-- A public field. -/
def field (name : String) (type : List Token) : List Token :=
  words ["pub", name] ++ [sign ':'] ++ type ++ [sign ',']

/-- A function with the given head, inputs, type of result and body. -/
def function (head : List String) (inputs result body : List Token) : List Token :=
  words head ++ [parens inputs] ++ arrow ++ result ++ [braces body]

/-- A block of functions for a type. -/
def implOf (type : String) (functions : List Token) : List Token :=
  words ["impl", type] ++ [braces functions]

/-- A reference to what lives as long as the program. -/
def static (type : List Token) : List Token := [sign '&'] ++ lifetime "static" ++ type

/-- The receiver that is only read. -/
def receiver : List Token := [sign '&', word "self"]

/-- A parameter that takes a name. -/
def nameParam : List Token := [word "name", sign ':', sign '&', word "str"]

/-- A member of the receiver. -/
def own (member : String) : List Token := [word "self", sign '.', word member]

/-- A call of a method. -/
def call (method : String) (arguments : List Token) : List Token :=
  [sign '.', word method, parens arguments]

/-- The type of a reference that may be missing. -/
def optional (type : String) : List Token :=
  [word "Option", sign '<'] ++ static [word type] ++ [sign '>']

/-- The first member of a list that has the given name. -/
def findByName (list : List Token) (binder : String) : List Token :=
  list ++ call "iter" [] ++ call "find"
    ([sign '|', word binder, sign '|', word binder, sign '.', word "name"] ++
      operator ['=', '='] ++ [word "name"])

/-- The type that describes a sub-field. -/
def subFieldLayout : List Token :=
  rawDoc " Position of one sub-field inside its backing integer." ++
  struct "SubFieldLayout"
    (rawDoc " Sub-field name as declared." ++ field "name" (static [word "str"]) ++
      rawDoc " Index of the lowest bit." ++ field "offset" [word "u32"] ++
      rawDoc " Number of bits." ++ field "width" [word "u32"])

/-- The functions of a sub-field's description. -/
def subFieldFunctions : List Token :=
  let oneLess := [parens ([literal "1u128"] ++ operator ['<', '<'] ++ own "width"), sign '-',
    number 1]
  implOf "SubFieldLayout"
    (rawDoc " One past the highest bit." ++
      function ["pub", "const", "fn", "end"] receiver [word "u32"]
        (own "offset" ++ [sign '+'] ++ own "width") ++
      rawDoc " Bits covered by this sub-field, in place." ++
      function ["pub", "const", "fn", "mask"] receiver [word "u128"]
        ([word "if"] ++ own "width" ++ operator ['>', '='] ++ [number 128,
          braces ([word "u128"] ++ pathSep ++ [word "MAX"]), word "else",
          braces ([parens oneLess] ++ operator ['<', '<'] ++ own "offset")]))

/-- The type that describes a backing integer. -/
def backingFieldLayout : List Token :=
  rawDoc " Sub-field layout of one backing integer, in declaration order." ++
  struct "BackingFieldLayout"
    (rawDoc " Name of the backing field." ++ field "name" (static [word "str"]) ++
      rawDoc " Whether the value is shared by every instance." ++ field "shared" [word "bool"] ++
      field "sub_fields" (static [brackets [word "SubFieldLayout"]]))

/-- The loop that adds up the widths of all sub-fields. -/
def widthLoop : List Token :=
  [word "while", word "i", sign '<'] ++ own "sub_fields" ++ call "len" [] ++
    [braces ([word "total"] ++ operator ['+', '='] ++ own "sub_fields" ++
      [brackets [word "i"], sign '.', word "width", sign ';', word "i"] ++
      operator ['+', '='] ++ [number 1, sign ';'])]

/-- The functions of a backing integer's description. -/
def backingFieldFunctions : List Token :=
  let zero := fun w => words ["let", "mut", w] ++ [sign '=', number 0, sign ';']
  implOf "BackingFieldLayout"
    (rawDoc " Bits claimed by sub-fields, counted from bit 0." ++
      function ["pub", "const", "fn", "used_bits"] receiver [word "u32"]
        (zero "total" ++ zero "i" ++ widthLoop ++ [word "total"]) ++
      function ["pub", "fn", "sub_field"] (receiver ++ [sign ','] ++ nameParam)
        (optional "SubFieldLayout") (findByName (own "sub_fields") "s"))

/-- The trait that publishes the descriptions. -/
def publishingTrait : List Token :=
  let layouts := static [brackets [word "BackingFieldLayout"]]
  rawDoc " Implemented by every `#[bit_divisible]` container." ++
  words ["pub", "trait", "BitDivisible"] ++
  [braces (rawDoc " Every backing field that received accessors, in declaration order." ++
    words ["const", "LAYOUT"] ++ [sign ':'] ++ layouts ++ [sign ';'] ++
    function ["fn", "backing_field"] nameParam (optional "BackingFieldLayout")
      (findByName ([word "Self"] ++ pathSep ++ [word "LAYOUT"]) "f"))]

/-- All support declarations. -/
def tokens : List Token :=
  subFieldLayout ++ subFieldFunctions ++ backingFieldLayout ++ backingFieldFunctions ++
    publishingTrait

/-- The support declarations, or nothing if they are not to be handed out. -/
def handedOut (ok : Bool) : Option (List Token) := if ok then some tokens else none

end PackedFields.Support
