import PackedFields.Generated.Metadata
import PackedFields.Generated.Support
import PackedFields.Schema.Validation

/-!
# Generation

`Schema.generate` takes a schema through validation to its members. `Container.generate` does so
for all fields of a container: a field that fails contributes diagnostics and nothing else.

Generation itself has no state. A run hands out the support declarations once, though, and several
sessions can be parts of one run: they then share a guard, which remembers whether the
declarations have been handed out.
-/

namespace PackedFields

/-- What is generated for one field. -/
structure FieldOutput where
  /-- The name of the field. -/
  field : Name
  /-- The members. -/
  block : MemberBlock
  /-- The positions of the sub-fields. -/
  layout : FieldLayout
  /-- The lines that document the bits of the field. -/
  docs : List String
  deriving Repr, Inhabited

/-- The tokens for a field. -/
def FieldOutput.tokens (o : FieldOutput) : List Token := o.block.tokens

/-- The members and the layout for a schema, or what is wrong with it. Members fail only for a
shared field of a type without an atomic counterpart, in whose place nothing but a
`compile_error!` could be generated. Validation has refused such a schema before, so that case is
never reached. -/
def Schema.generate (s : Schema) : Except (List Diagnostic) FieldOutput :=
  if s.validate.isEmpty then
    match s.memberBlock with
    | .ok block => .ok ⟨s.field, block, s.layout, Diagram.docs s.backing s.slots⟩
    | .error d => .error [d]
  else .error s.validate

/-- What is generated for one container. -/
structure ContainerOutput where
  /-- What is generated for the fields that can have members. -/
  fields : List FieldOutput
  /-- The published layouts, if there are any. -/
  metadata : Option Metadata
  /-- What is wrong with the container and its other fields. -/
  diagnostics : List Diagnostic
  deriving Repr

/-- The tokens for a container. -/
def ContainerOutput.tokens (o : ContainerOutput) : List Token :=
  o.fields.flatMap FieldOutput.tokens ++
    match o.metadata with
    | some m => m.tokens
    | none => []

/-- The diagnostics, less those that repeat the code and the wording of an earlier one. What is
wrong with a container is found anew for each of its fields. -/
def Diagnostic.distinct (seen : List (IssueCode × String)) : List Diagnostic → List Diagnostic
  | [] => []
  | d :: ds =>
    if seen.contains (d.code, d.message) then distinct seen ds
    else d :: distinct ((d.code, d.message) :: seen) ds

namespace Container

/-- The fields of schemas that can have members. -/
def outputs (schemas : List Schema) : List FieldOutput :=
  schemas.filterMap fun s => s.generate.toOption

/-- What is wrong with schemas, each on its own. -/
def complaints (schemas : List Schema) : List Diagnostic :=
  schemas.flatMap fun s => match s.generate with
    | .ok _ => []
    | .error ds => ds

/-- What is generated for a container with the given fields, for a crate at the path `crate`. -/
def generate (c : Container) (crate : Path) (schemas : List Schema) : ContainerOutput :=
  if schemas.isEmpty then ⟨[], none, c.issues ++ [c.emptyWarning]⟩
  else
    let fields := outputs schemas
    let metadata :=
      if fields.isEmpty then none else some ⟨c, crate, fields.map FieldOutput.layout⟩
    ⟨fields, metadata, Diagnostic.distinct [] (complaints schemas)⟩

end Container

/-! ## Sessions -/

/-- The number of a guard. -/
abbrev Guard := Nat

/-- A part of a run. -/
structure Session where
  /-- The path to the support declarations. -/
  crate : Path
  /-- The guard of the run. -/
  guard : Guard
  deriving DecidableEq, Repr, Inhabited

/-- The guards and the sessions at some moment, by name; of two with the same name the latest
counts. -/
structure Workspace where
  /-- The named guards. -/
  guards : List (String × Guard) := []
  /-- The named sessions. -/
  sessions : List (String × Session) := []
  /-- The number of guards ever made, named or not. -/
  made : Nat := 0
  /-- The guards under which the support declarations have been handed out. -/
  spent : List Guard := []
  deriving Repr, Inhabited

/-- What can be asked of a workspace. -/
inductive Request where
  /-- Make a guard of this name. -/
  | newGuard (name : String)
  /-- Make a session of this name, with a guard of its own. -/
  | newSession (name : String) (crate : Path)
  /-- Make a session of this name, with the named guard. -/
  | joinSession (name : String) (crate : Path) (guard : String)
  /-- Claim the right to hand out the support declarations. -/
  | claim (guard : String)
  /-- The path of a session. -/
  | crate (session : String)
  /-- Hand out the support declarations. -/
  | takeSupport (session : String)
  /-- Generate one field. -/
  | generate (session : String) (schema : Schema)
  /-- Generate fields, and hand out the support declarations. -/
  | generateAll (session : String) (schemas : List Schema)
  /-- Generate a container. -/
  | generateContainer (session : String) (container : Container) (schemas : List Schema)

/-- What a workspace answers. -/
inductive Answer where
  /-- Done. -/
  | made
  /-- Whether the claim is granted. -/
  | granted (ok : Bool)
  /-- The support declarations, if they are handed out. -/
  | support (declarations : Option (List Token))
  /-- A path. -/
  | crate (path : Path)
  /-- The outcome for a field. -/
  | field (outcome : Except (List Diagnostic) FieldOutput)
  /-- The support declarations, if they are handed out, and the outcomes for the fields in order. -/
  | fields (declarations : Option (List Token))
    (outcomes : List (Except (List Diagnostic) FieldOutput))
  /-- What is generated for a container. -/
  | container (output : ContainerOutput)

namespace Workspace

/-- Claims a guard: whether it has not been claimed before, and the workspace in which it has. -/
def claim (w : Workspace) (g : Guard) : Bool × Workspace :=
  if w.spent.contains g then (false, w) else (true, { w with spent := g :: w.spent })

/-- Claims a guard: the support declarations if it has not been claimed before, and the workspace in
which it has. -/
def takeSupport (w : Workspace) (g : Guard) : Option (List Token) × Workspace :=
  let (ok, w) := w.claim g
  (Support.handedOut ok, w)

/-- Adds a session. -/
def addSession (w : Workspace) (name : String) (s : Session) : Workspace :=
  { w with sessions := (name, s) :: w.sessions }

/-- Answers a request, unless it names something that does not exist. -/
def answer? (w : Workspace) : Request → Option (Answer × Workspace)
  | .newGuard name =>
    some (.made, { w with guards := (name, w.made) :: w.guards, made := w.made + 1 })
  | .newSession name crate =>
    some (.made, { w.addSession name ⟨crate, w.made⟩ with made := w.made + 1 })
  | .joinSession name crate guard => do
    let g ← w.guards.lookup guard
    some (.made, w.addSession name ⟨crate, g⟩)
  | .claim guard => do
    let (ok, w) := w.claim (← w.guards.lookup guard)
    some (.granted ok, w)
  | .crate session => do
    let s ← w.sessions.lookup session
    some (.crate s.crate, w)
  | .takeSupport session => do
    let (declarations, w) := w.takeSupport (← w.sessions.lookup session).guard
    some (.support declarations, w)
  | .generate session schema => do
    let _ ← w.sessions.lookup session
    some (.field schema.generate, w)
  | .generateAll session schemas => do
    let (declarations, w) := w.takeSupport (← w.sessions.lookup session).guard
    some (.fields declarations (schemas.map Schema.generate), w)
  | .generateContainer session container schemas => do
    let s ← w.sessions.lookup session
    some (.container (container.generate s.crate schemas), w)

end Workspace

end PackedFields
