import PackedFields.Syntax.Parser

/-!
# Container arguments

The attribute of a container can say under which path the support declarations are found:
`crate = path`. Arguments that are malformed have no effect, not even those that come before the
mistake.
-/

namespace PackedFields

open PackedFields.Parser

/-- The arguments of a container. -/
structure ContainerArguments where
  /-- The path to the support declarations. -/
  crate : Path
  deriving DecidableEq, Repr, Inhabited

namespace ContainerArguments

/-- The arguments of a container without arguments. -/
def default : ContainerArguments := ⟨⟨true, [⟨"bitdivide", false⟩]⟩⟩

/-- Reads arguments with commas between them, after the path `crate` if one has been given. Each
takes at least one token, so there are at most `bound`. -/
def argumentsFrom (crate : Option Path) : Nat → Parser (Option Path)
  | 0 => return crate
  | bound + 1 => do
    if ← atEnd then return crate
    let place := Cursor.front (← get)
    let _ ← word "crate"
    let _ ← mark "="
    if crate.isSome then throw ⟨.crateTwice, place⟩
    let p ← path
    if !(← atEnd) then
      let _ ← mark ","
    argumentsFrom (some p) bound

/-- Reads arguments. -/
def parser : Parser (Option Path) := fun c => argumentsFrom none (c.rest.length + 1) c

/-- The arguments that tokens stand for, and what is wrong with them. -/
def ofTokens (ts : List Token) : ContainerArguments × List SyntaxError :=
  match parser.runAll ts .nowhere with
  | .ok crate => (⟨crate.getD default.crate⟩, [])
  | .error e => (default, [e])

end ContainerArguments

end PackedFields
