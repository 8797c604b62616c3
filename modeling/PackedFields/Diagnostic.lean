import PackedFields.Schema.Basic

/-!
# Diagnostics

A diagnostic says what is wrong with a schema or a container (`Issue`), and where. Issues fall
under a few codes, which are stable; a front end may word an issue of its own under one of them.
Errors reach the reader of generated code through `compile_error!`; a warning is a deprecated
item that the generated code refers to, and the compiler warns of that.
-/

namespace PackedFields

/-- How grave a diagnostic is. -/
inductive Severity where
  | error
  | warning
  deriving DecidableEq, Repr

/-- The name of a severity. -/
def Severity.name : Severity → String
  | error => "error"
  | warning => "warning"

/-- The stable codes of diagnostics. -/
inductive IssueCode where
  /-- The visibility of the container is not supported. -/
  | accessibility
  /-- The container cannot get members. -/
  | extensibility
  /-- The sub-fields do not fit the backing integer. -/
  | capacity
  /-- Two members, or two parameters of one member, have the same name. -/
  | duplicateName
  /-- There is no atomic type for a shared field. -/
  | sharedBacking
  /-- A sub-field has no bits, or more than its type. -/
  | width
  /-- There is nothing to generate. -/
  | nothingDeclared
  deriving DecidableEq, Repr

namespace IssueCode

/-- All codes. -/
def all : List IssueCode :=
  [accessibility, extensibility, capacity, duplicateName, sharedBacking, width, nothingDeclared]

/-- The text of a code. -/
def id : IssueCode → String
  | accessibility => "E0001"
  | extensibility => "E0002"
  | capacity => "E0003"
  | duplicateName => "E0004"
  | sharedBacking => "E0005"
  | width => "E0006"
  | nothingDeclared => "W0001"

/-- The code with the given text. -/
def ofId? (id : String) : Option IssueCode := all.find? (·.id == id)

/-- How grave the issues under a code are. -/
def severity : IssueCode → Severity
  | nothingDeclared => .warning
  | _ => .error

end IssueCode

/-- What is wrong with a schema or a container. -/
inductive Issue where
  /-- The container has a visibility that is not supported. -/
  | visibility (container : Name) (text : String)
  /-- The container cannot get members. -/
  | notExtensible (container : Name)
  /-- The container has no field with sub-fields. -/
  | noFields (container : Name)
  /-- The field has no sub-fields. -/
  | noSubFields (field : Name)
  /-- A shared field has a type without an atomic counterpart. -/
  | noAtomic (field : Name) (backing : IntType)
  /-- There is no atomic counterpart of a type from which members are to be generated. -/
  | noAtomicType (backing : IntType)
  /-- The sub-fields take `total` bits, and `first`, which would start at `start`, is the first of
  them that reaches past the end. -/
  | overflow (field : Name) (backing : IntType) (total : Nat) (first : Name) (start : Nat)
  /-- A sub-field has no bits. -/
  | zeroWidth (subField : Name)
  /-- A sub-field has more bits than its type. -/
  | wide (subField : Name) (width : Nat) (type : IntType)
  /-- A sub-field has the name of an earlier one, which is spelled `first`. -/
  | declaredTwice (subField field first : Name)
  /-- Two sub-fields share the name of a parameter. -/
  | sameParameter (first second : Name) (text : String)
  /-- A sub-field has the name of the mutator. -/
  | namedAsMutator (subField mutator : Name)
  /-- A sub-field has the name of the member that reads the shared field. -/
  | namedAsField (subField field : Name)
  /-- An issue in the words of a front end. -/
  | worded (code : IssueCode) (message : String)
  deriving DecidableEq, Repr

namespace Issue

/-- The code of an issue. -/
def code : Issue → IssueCode
  | visibility .. => .accessibility
  | notExtensible .. => .extensibility
  | noFields .. => .nothingDeclared
  | noSubFields .. => .nothingDeclared
  | noAtomic .. => .sharedBacking
  | noAtomicType .. => .sharedBacking
  | overflow .. => .capacity
  | zeroWidth .. => .width
  | wide .. => .width
  | declaredTwice .. => .duplicateName
  | sameParameter .. => .duplicateName
  | namedAsMutator .. => .duplicateName
  | namedAsField .. => .duplicateName
  | worded c _ => c

/-- A text between backticks. -/
def ticked (s : String) : String := "`" ++ s ++ "`"

/-- A name between backticks. -/
def shown (n : Name) : String := ticked n.spelling

/-- The wording of an issue. -/
def message : Issue → String
  | visibility c text =>
    shown c ++ " is declared " ++ ticked text ++
      "; only private, `pub(super)`, `pub(crate)` or `pub` containers are supported"
  | notExtensible c =>
    shown c ++ " cannot receive generated members; #[bit_divisible] requires a struct with " ++
      "named fields"
  | noFields c =>
    "#[bit_divisible] is not needed on " ++ shown c ++
      ": no field declares #[bit_field] sub-fields"
  | noSubFields f => shown f ++ " declares no sub-fields; no accessors are generated for it"
  | noAtomic f t =>
    "shared backing field " ++ shown f ++ " cannot be " ++ ticked t.name ++
      ": there is no stable atomic of that width"
  | noAtomicType t => "no atomic type for " ++ ticked t.name
  | overflow f t total first start =>
    shown f ++ " needs " ++ toString total ++ " bits but " ++ ticked t.name ++ " holds " ++
      toString t.bits ++ "; " ++ shown first ++ " would start at bit " ++ toString start
  | zeroWidth d => shown d ++ " is 0 bits wide"
  | wide d w t =>
    shown d ++ " is " ++ toString w ++ " bits wide but " ++ ticked t.name ++ " holds " ++
      toString t.bits
  | declaredTwice d f first =>
    "sub-field " ++ shown d ++ " is declared twice on " ++ shown f ++ " (first as " ++
      shown first ++ ")"
  | sameParameter a b text =>
    "sub-fields " ++ shown a ++ " and " ++ shown b ++ " both map to the mutator parameter " ++
      ticked text
  | namedAsMutator d m =>
    "sub-field " ++ shown d ++ " collides with the generated mutator " ++ shown m
  | namedAsField d f =>
    "sub-field " ++ shown d ++ " collides with the shared accessor " ++
      ticked (f.spelling ++ "()")
  | worded _ m => m

end Issue

/-- An issue in its place. -/
structure Diagnostic where
  /-- What is wrong. -/
  issue : Issue
  /-- Where it is wrong. -/
  place : Span := .nowhere
  deriving DecidableEq, Repr

namespace Diagnostic

/-- The code of a diagnostic. -/
def code (d : Diagnostic) : IssueCode := d.issue.code

/-- How grave a diagnostic is. -/
def severity (d : Diagnostic) : Severity := d.code.severity

/-- The wording of a diagnostic, without its code. -/
def message (d : Diagnostic) : String := d.issue.message

/-- The wording of a diagnostic after its code. -/
def text (d : Diagnostic) : String := d.code.id ++ ": " ++ d.message

/-- Whether nothing that depends on a diagnostic can be generated. -/
def isFatal (d : Diagnostic) : Bool := d.severity == .error

end Diagnostic

namespace Code

/-- The tokens by which the compiler reports an error. -/
def compileError (text : String) : List Token :=
  rootPath ["core", "compile_error"] ++ [sign '!', braces [string text]]

/-- The name of the item that stands for a warning. -/
def markerName (d : Diagnostic) : String := "BitDivisible" ++ d.code.id

/-- The tokens by which the compiler reports a warning: a deprecated item, and a use of it. -/
def deprecatedUse (d : Diagnostic) : List Token :=
  let marker := word (markerName d)
  let note := [word "note", sign '=', string d.text]
  [word "const", word "_", sign ':', parens [], sign '='] ++
    [braces (attr [word "deprecated", parens note] ++ [word "struct", marker, sign ';'] ++
      [word "let", word "_", sign '=', marker, sign ';'])] ++ [sign ';']

end Code

/-- The tokens by which the compiler reports a diagnostic. -/
def Diagnostic.tokens (d : Diagnostic) : List Token :=
  match d.severity with
  | .error => Code.compileError d.text
  | .warning => Code.deprecatedUse d

end PackedFields
