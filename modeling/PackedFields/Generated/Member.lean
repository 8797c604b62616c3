import PackedFields.Accessors
import PackedFields.Diagnostic
import PackedFields.Diagram
import PackedFields.Expr.Code

/-!
# Generated members

The members for one backing integer stand in one `impl` block. For a field of the instance these
are the getters and the mutator. A shared field has no place in the instance: its value lives in
an atomic cell, which a private member holds, and one more member reads the whole value.
-/

namespace PackedFields

open Code in
/-- The path of a name in the module of atomic types. -/
def atomicPath (segments : List String) : List Token :=
  rootPath (["core", "sync", "atomic"] ++ segments)

/-- A generated function. -/
structure Member where
  /-- The lines of its documentation. -/
  docs : List String
  /-- Who may use it. -/
  access : Access
  /-- Its name. -/
  name : Name
  /-- What it takes. -/
  inputs : List Token
  /-- The type of its result, or nothing if it has none. -/
  result : List Token
  /-- What it does. -/
  body : List Token
  deriving Repr, Inhabited

/-- The tokens of a function. -/
def Member.tokens (m : Member) : List Token :=
  m.docs.flatMap Code.doc ++ Code.attr [Code.word "inline"] ++ m.access.tokens ++
    [Code.word "fn", Code.name m.name, Code.parens m.inputs] ++
    (if m.result.isEmpty then [] else Code.arrow ++ m.result) ++ [Code.braces m.body]

/-- The functions that a container gets for one backing integer. -/
structure MemberBlock where
  /-- The container. -/
  container : Container
  /-- The functions, in order. -/
  members : List Member
  deriving Repr, Inhabited

namespace MemberBlock

/-- The head of an `impl` block for a container, where `trait` names what is implemented. -/
def head (c : Container) (trait : List Token) : List Token :=
  [Code.word "impl"] ++ c.generics.header ++ trait ++ c.typePath ++ c.generics.arguments ++
    c.generics.whereClause

/-- The tokens of a block. -/
def tokens (b : MemberBlock) : List Token :=
  Code.attr [Code.word "allow", Code.parens [Code.word "non_snake_case"]] ++
    head b.container [] ++ [Code.braces (b.members.flatMap Member.tokens)]

end MemberBlock

namespace Schema

open Code

/-- The access that the members for a field get. -/
def access (s : Schema) : Access := s.container.visibility.access?.getD .restricted

/-- A call of a member of the container that takes nothing. -/
def ownCall (n : Name) : List Token := [word "Self"] ++ pathSep ++ [name n, parens []]

/-- The tokens that read the backing integer. -/
def readTokens (s : Schema) : List Token :=
  if s.shared then ownCall s.field else [word "self", sign '.', name s.field]

/-- The order of memory accesses that the atomic operations ask for. -/
def relaxed : List Token := atomicPath ["Ordering", "Relaxed"]

/-- The private function that holds the cell of a shared field. -/
def cellMember (s : Schema) (atomic : String) : Member where
  docs := []
  access := .restricted
  name := s.cellName
  inputs := []
  result := [sign '&'] ++ lifetime "static" ++ atomicPath [atomic]
  body :=
    [word "static", word "CELL", sign ':'] ++ atomicPath [atomic] ++ [sign '='] ++
      atomicPath [atomic, "new"] ++ [parens [number 0], sign ';', sign '&', word "CELL"]

/-- The function that reads a whole shared field. -/
def wholeMember (s : Schema) : Member where
  docs := [" Current value of the shared `" ++ s.field.spelling ++ "` bits."]
  access := s.access
  name := s.field
  inputs := []
  result := [s.backing.token]
  body := ownCall s.cellName ++ [sign '.', word "load", parens relaxed]

/-- The documentation of the getter of a sub-field. -/
def getterDoc (s : Schema) (slot : Slot) : String :=
  let field := " of `" ++ s.field.spelling ++ "`."
  match slot.subField.kind with
  | .bool => " Bit " ++ toString slot.offset ++ field
  | .int _ =>
    " Bits " ++ toString slot.offset ++ ".." ++ toString (slot.offset + slot.width) ++ field

/-- The function that reads a sub-field. -/
def getterMember (s : Schema) (g : Getter) : Member where
  docs := [s.getterDoc g.slot]
  access := s.access
  name := g.slot.subField.name
  inputs := if s.shared then [] else [sign '&', word "self"]
  result := [g.slot.subField.kind.token]
  body := g.value.tokens s.readTokens

/-- The documentation of the mutator. -/
def mutatorDocs (s : Schema) (slots : List Slot) : List String :=
  [" Overwrites all of `" ++ s.field.spelling ++ "` from its sub-fields.", "",
    " Bits outside the declared sub-fields are cleared and values are not",
    " masked to their width.", ""] ++ Diagram.docs s.backing slots

/-- The function that replaces the whole backing integer. -/
def mutatorMember (s : Schema) (slots : List Slot) (m : Mutator) : Member where
  docs := s.mutatorDocs slots
  access := s.access
  name := m.name
  inputs :=
    (if s.shared then [] else [sign '&', word "mut", word "self", sign ',']) ++
      commas (m.params.map fun (n, k) => [name n, sign ':', k.token])
  result := []
  body :=
    let value := m.value.tokens s.readTokens
    if s.shared then
      ownCall s.cellName ++
        [sign '.', word "store", parens (value ++ [sign ','] ++ relaxed), sign ';']
    else [word "self", sign '.', name s.field, sign '='] ++ value ++ [sign ';']

/-- The functions that a shared field has besides the accessors. There are none for a type without
an atomic counterpart. -/
def sharedMembers (s : Schema) : Except Diagnostic (List Member) :=
  if s.shared then
    match s.backing.atomic? with
    | some atomic => .ok [s.cellMember atomic, s.wholeMember]
    | none => .error ⟨.noAtomicType s.backing, s.place⟩
  else .ok []

/-- The members for a field. -/
def memberBlock (s : Schema) : Except Diagnostic MemberBlock := do
  let shared ← s.sharedMembers
  let a := s.accessors
  return ⟨s.container,
    shared ++ a.getters.map s.getterMember ++ [s.mutatorMember s.slots a.mutator]⟩

end Schema

end PackedFields
