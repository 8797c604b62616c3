import Mathlib.Logic.Basic
import PackedFields.Proofs.ParserLaws
import PackedFields.Syntax.Grammar

/-!
# Errors after which the reading goes on

What is wrong with an attribute is reported, and the next attribute is read. Only a marked name in a
string literal is not reported: it stops the reading (`SyntaxError.Cause.stops`). No reader of
source comes to such an error, apart from the one for the name of a sub-field.

That is a property of readers (`Parser.Harmless`) which goes from the parts of a reader to the
whole. It is therefore a class, with an instance for each way to make readers of others. A token
that was left unread is an error that is only waiting, so it is part of the property that none of
the other sort waits.
-/

namespace PackedFields

/-- Whether the cause stops the reading of the attributes of a field. -/
def SyntaxError.Cause.stops : SyntaxError.Cause → Bool
  | .markedNameText _ => true
  | _ => false

theorem SyntaxError.Cause.stops_eq_false_of_ne {cause : SyntaxError.Cause}
    (h : ∀ n, cause ≠ .markedNameText n) : cause.stops = false := by
  cases cause with
  | markedNameText n => exact absurd rfl (h n)
  | _ => rfl

/-- The reading goes on after an error of this cause. -/
class SyntaxError.Cause.Harmless (cause : SyntaxError.Cause) : Prop where
  stops_eq_false : cause.stops = false

/-- What was left unread before does not stop the reading. -/
def Cursor.Harmless (c : Cursor) : Prop := ∀ e, c.stray = some e → e.cause.stops = false

namespace Parser

/-- The reading goes on: either without an error, or after one. -/
def GoesOn {α : Type} : Except SyntaxError (α × Cursor) → Prop
  | .error e => e.cause.stops = false
  | .ok (_, c) => c.Harmless

/-- Whatever `x` comes to, the reading goes on. -/
class Harmless {α : Type} (x : Parser α) : Prop where
  goesOn (c : Cursor) : c.Harmless → GoesOn (x c)

section Combinators

variable {α β : Type} {x : Parser α} {f : α → Parser β} {y z : Parser β}
  {cause : SyntaxError.Cause} {c : Cursor}

/-! ## Readers made of others -/

theorem Harmless.of_ok (h : ∀ c, ∃ a rest, x c = .ok (a, { c with rest })) : Harmless x where
  goesOn c hc := by
    obtain ⟨a, rest, hx⟩ := h c
    rw [hx]
    exact hc

/-- The reading goes on after a step and all that follows it, if it does so after each. -/
theorem goesOn_bind (hx : GoesOn (x c))
    (hf : ∀ a c', x c = .ok (a, c') → c'.Harmless → GoesOn (f a c')) : GoesOn ((x >>= f) c) := by
  cases hread : x c with
  | error e =>
    rw [hread] at hx
    rw [bind_of_error hread]
    exact hx
  | ok q =>
    rw [hread] at hx
    rw [bind_of_ok hread]
    exact hf q.1 q.2 hread hx

theorem Harmless.bind (hx : Harmless x) (hf : ∀ a, Harmless (f a)) : Harmless (x >>= f) where
  goesOn c hc := goesOn_bind (hx.goesOn c hc) fun a c' _ hc' => (hf a).goesOn c' hc'

instance (a : α) : Harmless (pure a : Parser α) := .of_ok fun c => ⟨a, c.rest, rfl⟩

instance [hx : Harmless x] [hf : ∀ a, Harmless (f a)] : Harmless (x >>= f) := .bind hx hf

/-- What follows something that may be missing is told for both cases. -/
instance (priority := high) {x : Parser (Option α)} {f : Option α → Parser β} [hx : Harmless x]
    [hnone : Harmless (f none)] [hsome : ∀ a, Harmless (f (some a))] : Harmless (x >>= f) :=
  .bind hx fun a => match a with
    | none => hnone
    | some a => hsome a

instance {f : α → β} [hx : Harmless x] : Harmless (f <$> x) :=
  .bind (f := fun a => pure (f a)) hx fun _ => inferInstance

instance {φ : Prop} [Decidable φ] [hy : Harmless y] [hz : Harmless z] :
    Harmless (if φ then y else z) := by
  split
  · exact hy
  · exact hz

instance {place : Span} [h : cause.Harmless] : Harmless (throw ⟨cause, place⟩ : Parser α) :=
  ⟨fun _ _ => h.stops_eq_false⟩

instance [h : cause.Harmless] : Harmless (fail cause : Parser α) := ⟨fun _ _ => h.stops_eq_false⟩

instance {choices : List Wanted} : Harmless (expected choices : Parser α) := ⟨fun _ _ => rfl⟩

instance : Harmless (unexpected : Parser α) where
  goesOn c hc := by
    rw [unexpected]
    split
    · rfl
    · rfl

instance : Harmless (get : Parser Cursor) := .of_ok fun c => ⟨c, c.rest, rfl⟩

/-! ## Readers of single tokens -/

instance (p : List Token → Bool) : Harmless (ahead p) := .of_ok fun c => ⟨p c.rest, c.rest, rfl⟩

instance : Harmless atEnd := inferInstanceAs (Harmless (ahead _))

instance (m : String) : Harmless (markNext m) := inferInstanceAs (Harmless (ahead _))

instance (w : String) : Harmless (wordNext w) := inferInstanceAs (Harmless (ahead _))

instance (d : Delimiter) : Harmless (groupNext d) := inferInstanceAs (Harmless (ahead _))

instance : Harmless anyToken := .of_ok fun c => ⟨c.rest.take 1, c.rest.tail, rfl⟩

instance (m : String) : Harmless (mark m) where
  goesOn c hc := by
    rw [mark]
    split
    · exact hc
    · rfl

instance (m : String) : Harmless (mark? m) := by unfold mark?; infer_instance

instance (ws : List String) : Harmless (wordOf? ws) := by unfold wordOf?; infer_instance

instance (w : String) : Harmless (word w) := by unfold word; infer_instance

instance (w : String) : Harmless (word? w) := by unfold word?; infer_instance

instance : Harmless name where
  goesOn c hc := by
    rw [name]
    split
    · split
      · rfl
      · exact hc
    · exact Harmless.goesOn c hc

instance : Harmless anyName where
  goesOn c hc := by
    rw [anyName]
    split
    · exact hc
    · exact Harmless.goesOn c hc

instance : Harmless lifetime where
  goesOn c hc := by
    rw [lifetime]
    split
    · exact hc
    · exact Harmless.goesOn c hc

instance : Harmless literal where
  goesOn c hc := by
    rw [literal]
    split
    · exact hc
    · exact Harmless.goesOn c hc

/-! ## Groups, and tokens as they are written -/

/-- A token that is left over is not what stops the reading. -/
theorem stops_of_stray {stray : Option SyntaxError} {inside : Option Delimiter} {ts : List Token}
    {e : SyntaxError} (hstray : ∀ e, stray = some e → e.cause.stops = false)
    (h : (stray <|> leftover? inside ts) = some e) : e.cause.stops = false := by
  cases stray with
  | some e' => exact hstray e h
  | none =>
    obtain ⟨t, -, rfl⟩ := Option.map_eq_some_iff.mp h
    rfl

instance (d : Delimiter) [hx : Harmless x] : Harmless (group d x) where
  goesOn c hc := by
    rw [group]
    split
    · next ts o s rest _ =>
      split
      · have hgoes := hx.goesOn ⟨ts, s, c.stray⟩ hc
        split
        · next hread =>
          rw [hread] at hgoes
          exact hgoes
        · next hread =>
          rw [hread] at hgoes
          exact fun e he => stops_of_stray hgoes he
      · exact Harmless.goesOn c hc
    · exact Harmless.goesOn c hc

instance (d : Delimiter) {x : Parser (List Token)} [Harmless x] : Harmless (groupOf d x) := by
  unfold groupOf; infer_instance

instance : Harmless anyGroup := by unfold anyGroup; infer_instance

instance [hx : Harmless x] : Harmless (written x) where
  goesOn c hc := by
    have hgoes := hx.goesOn c hc
    rw [written]
    split
    · next hread =>
      rw [hread] at hgoes
      exact hgoes
    · next hread =>
      rw [hread] at hgoes
      exact hgoes

instance [hx : Harmless x] : Harmless (attempt x) where
  goesOn c hc := by
    have hgoes := hx.goesOn c hc
    rw [attempt]
    split
    · exact hc
    · next hread =>
      rw [hread] at hgoes
      exact hgoes

instance {x : Parser (List Token × Bool)} [Harmless x] : Harmless (orWritten x) := by
  unfold orWritten; infer_instance

/-! ## Repetition -/

instance {step : Parser (Option α)} [Harmless step] (bound : Nat) :
    Harmless (repeatUpTo step bound) := by
  induction bound with
  | zero => unfold repeatUpTo; infer_instance
  | succ bound ih => unfold repeatUpTo; infer_instance

instance {step : Parser (Option α)} [Harmless step] : Harmless (repeated step) where
  goesOn c hc := by
    rw [repeated]
    exact Harmless.goesOn c hc

instance {step : Parser (List Token × Bool)} [Harmless step] (bound : Nat) :
    Harmless (tokensWhile.go step bound) := by
  induction bound with
  | zero => unfold tokensWhile.go; infer_instance
  | succ bound ih => unfold tokensWhile.go; infer_instance

instance {step : Parser (List Token × Bool)} [Harmless step] : Harmless (tokensWhile step) where
  goesOn c hc := by
    rw [tokensWhile]
    exact Harmless.goesOn c hc

instance [Harmless x] (bound : Nat) : Harmless (commaSeparated.go x bound) := by
  induction bound with
  | zero => unfold commaSeparated.go; infer_instance
  | succ bound ih => unfold commaSeparated.go; infer_instance

instance [Harmless x] : Harmless (commaSeparated x) where
  goesOn c hc := by
    rw [commaSeparated]
    exact Harmless.goesOn c hc

instance (closing : String) [Harmless x] (bound : Nat) :
    Harmless (commaSeparatedTo.go closing x bound) := by
  induction bound with
  | zero => unfold commaSeparatedTo.go; infer_instance
  | succ bound ih => unfold commaSeparatedTo.go; infer_instance

instance (closing : String) [Harmless x] : Harmless (commaSeparatedTo closing x) where
  goesOn c hc := by
    rw [commaSeparatedTo]
    exact Harmless.goesOn c hc

instance {x : Parser (List Token)} [Harmless x] : Harmless (commaTokens x) := by
  unfold commaTokens; infer_instance

end Combinators

/-! ## Paths and visibilities -/

instance (bound : Nat) : Harmless (moreSegments bound) := by
  induction bound with
  | zero => unfold moreSegments; infer_instance
  | succ bound ih => unfold moreSegments; infer_instance

instance : Harmless path where
  goesOn c hc := by
    rw [path]
    exact Harmless.goesOn c hc

instance : Harmless restriction := by unfold restriction; infer_instance

instance : Harmless visibility := by unfold visibility; infer_instance

end Parser

end PackedFields
