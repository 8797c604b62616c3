import PackedFields.Generated.Member
import PackedFields.Layout

/-!
# Generated metadata

A container with at least one backing integer implements a trait that publishes the layouts of all
of them. The trait and the types of its data are reached through a path that the user can choose.
-/

namespace PackedFields

/-- The implementation that publishes layouts. -/
structure Metadata where
  /-- The container. -/
  container : Container
  /-- The path to the trait and the types. -/
  crate : Path
  /-- The layouts, in order. -/
  layouts : List FieldLayout
  deriving Repr, Inhabited

namespace Metadata

open Code

/-- A position or a width: a number with a suffix. -/
def number (n : Nat) : Token := literal (toString n ++ "u32")

/-- The path of something that the crate at `crate` provides. -/
def provided (crate : Path) (w : String) : List Token := crate.tokens ++ pathSep ++ [word w]

/-- A field of a value, with what it holds. -/
def entry (w : String) (value : List Token) : List Token := [word w, sign ':'] ++ value

/-- A reference to a list of values. -/
def slice (values : List (List Token)) : List Token := [sign '&', brackets (commas values)]

/-- The value that describes a sub-field. -/
def ofSubField (crate : Path) (s : SubFieldLayout) : List Token :=
  provided crate "SubFieldLayout" ++ [braces (commas [
    entry "name" [string s.name],
    entry "offset" [number s.offset],
    entry "width" [number s.width]])]

/-- The value that describes a backing integer. -/
def ofField (crate : Path) (f : FieldLayout) : List Token :=
  provided crate "BackingFieldLayout" ++ [braces (commas [
    entry "name" [string f.name],
    entry "shared" [word (if f.shared then "true" else "false")],
    entry "sub_fields" (slice (f.subFields.map (ofSubField crate)))])]

/-- The tokens of the implementation. -/
def tokens (m : Metadata) : List Token :=
  let type := [sign '&'] ++ lifetime "static" ++ [brackets (provided m.crate "BackingFieldLayout")]
  let value := slice (m.layouts.map (ofField m.crate))
  MemberBlock.head m.container (provided m.crate "BitDivisible" ++ [word "for"]) ++
    [braces ([word "const", word "LAYOUT", sign ':'] ++ type ++ [sign '='] ++ value ++ [sign ';'])]

end Metadata

end PackedFields
