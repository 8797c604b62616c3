import PackedFields.Front.Arguments
import PackedFields.Front.Discovery
import PackedFields.Session

/-!
# Expansion

An annotated item expands to the item as it is written back, the reports on what is wrong with it,
and the generated members. Whatever is wrong, the item itself is always part of the expansion.
-/

namespace PackedFields

/-- What an annotated item expands to. -/
structure Expansion where
  /-- The item as it is written back. -/
  item : Item
  /-- What is wrong with the container and its schemas. -/
  diagnostics : List Diagnostic
  /-- What is generated. -/
  output : ContainerOutput := ⟨[], none, []⟩
  /-- What is wrong with the source. -/
  errors : List SyntaxError
  deriving Repr

/-- The tokens by which the compiler reports an error in source. -/
def SyntaxError.tokens (e : SyntaxError) : List Token := Code.compileError e.message

/-- A report as the reader of the source gets to see it. -/
inductive Report where
  /-- An error, by the string literal of its text. -/
  | error (literal : String) (place : Span)
  /-- A warning, by the name of the item that stands for it. -/
  | warning (marker : String) (place : Span)
  deriving DecidableEq, Repr

/-- The report of a diagnostic. -/
def Diagnostic.report (d : Diagnostic) : Report :=
  match d.severity with
  | .error => .error (Text.quote d.text) d.place
  | .warning => .warning (Code.markerName d) d.place

/-- The report of an error in source. -/
def SyntaxError.report (e : SyntaxError) : Report := .error (Text.quote e.message) e.place

namespace Expansion

/-- The tokens of an expansion. -/
def tokens (e : Expansion) : List Token :=
  e.item.tokens ++ e.diagnostics.flatMap Diagnostic.tokens ++ e.output.tokens ++
    e.errors.flatMap SyntaxError.tokens

/-- The reports in an expansion, in order. -/
def reports (e : Expansion) : List Report :=
  e.diagnostics.map Diagnostic.report ++ e.errors.map SyntaxError.report

/-- The place of an item of a kind that has no fields. -/
def placeOf : Item → Span
  | .other _ s => s
  | _ => .nowhere

/-- The expansion of what is found in an item. If all backing fields are rejected, the reasons are
enough, and the container is not called empty. -/
def ofDiscovery (crate : Path) (d : Discovery) : Expansion :=
  if d.schemas.isEmpty && d.rejected then
    { item := d.finish [], diagnostics := d.container.issues, errors := d.errors }
  else
    let output := d.container.generate crate d.schemas
    { item := d.finish output.fields, diagnostics := output.diagnostics, output
      errors := d.errors }

/-- The expansion of an item with the given arguments. A marked name in a string literal makes an
error of the whole. -/
def ofItem (arguments : List Token) (item : Item) : Except SyntaxError Expansion := do
  let (args, errors) := ContainerArguments.ofTokens arguments
  match ← Discovery.ofItem? item errors with
  | some d => return ofDiscovery args.crate d
  | none => return { item, diagnostics := [], errors := errors ++ [⟨.notStruct, placeOf item⟩] }

end Expansion

end PackedFields
