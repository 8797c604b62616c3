import PackedFields.Syntax.Parser
import Mathlib.Data.List.Basic

/-!
# Laws of readers

A reader that is made of others succeeds if these do, one after the other, and from its success
follows theirs. The laws of this module put that into equations, for readers that look ahead as
well, and say what the simplest readers have read.
-/

namespace PackedFields

namespace Parser

/-! ## Readers made of others -/

variable {α β : Type} {x : Parser α} {f : α → Parser β} {y z : Parser β}
  {p : List Token → Bool} {c c' c'' : Cursor} {a : α} {b : β} {rest ts : List Token} {n : Name}

theorem bind_of_ok (h : x c = .ok (a, c')) : (x >>= f) c = f a c' := by
  show (x c >>= fun q => f q.1 q.2) = f a c'
  rw [h]
  rfl

theorem bind_of_error {e : SyntaxError} (h : x c = .error e) : (x >>= f) c = .error e := by
  show (x c >>= fun q => f q.1 q.2) = .error e
  rw [h]
  rfl

theorem bind_eq_ok_iff :
    (x >>= f) c = .ok (b, c'') ↔ ∃ a c', x c = .ok (a, c') ∧ f a c' = .ok (b, c'') := by
  constructor
  · intro h
    cases hx : x c with
    | error e =>
      rw [bind_of_error hx] at h
      cases h
    | ok q =>
      rw [bind_of_ok hx] at h
      exact ⟨q.1, q.2, rfl, h⟩
  · rintro ⟨a, c', hx, hf⟩
    rw [bind_of_ok hx, hf]

theorem ahead_bind (p : List Token → Bool) (f : Bool → Parser β) (c : Cursor) :
    (ahead p >>= f) c = f (p c.rest) c :=
  rfl

theorem ite_ahead_pos (h : p c.rest = true) :
    (ahead p >>= fun ok => if ok = true then y else z) c = y c := by
  rw [ahead_bind, h]
  rfl

theorem ite_ahead_neg (h : p c.rest = false) :
    (ahead p >>= fun ok => if ok = true then y else z) c = z c := by
  rw [ahead_bind, h]
  rfl

theorem cases_of_ite {φ : Prop} [Decidable φ] {r : Except SyntaxError (β × Cursor)}
    (h : (if φ then y else z) c = r) : φ ∧ y c = r ∨ ¬ φ ∧ z c = r := by
  by_cases hφ : φ
  · rw [if_pos hφ] at h
    exact .inl ⟨hφ, h⟩
  · rw [if_neg hφ] at h
    exact .inr ⟨hφ, h⟩

theorem cases_of_ahead {r : Except SyntaxError (β × Cursor)}
    (h : (ahead p >>= fun ok => if ok = true then y else z) c = r) :
    p c.rest = true ∧ y c = r ∨ p c.rest = false ∧ z c = r :=
  (cases_of_ite h).imp_right fun hz => ⟨Bool.eq_false_iff.mpr hz.1, hz.2⟩

/-- Whatever is read has the property `P`. -/
def Yields (P : α → Prop) (x : Parser α) : Prop := ∀ c a c', x c = .ok (a, c') → P a

variable {P : α → Prop} {Q : β → Prop}

theorem Yields.any : Yields (fun _ => True) x := fun _ _ _ _ => trivial

theorem Yields.pure (h : P a) : Yields P (pure a) := by
  intro c a' c' h'
  cases h'
  exact h

theorem Yields.bind (hx : Yields P x) (hf : ∀ a, P a → Yields Q (f a)) : Yields Q (x >>= f) := by
  intro c b c'' h
  obtain ⟨a, c', ha, hb⟩ := bind_eq_ok_iff.mp h
  exact hf a (hx c a c' ha) c' b c'' hb

theorem Yields.ite {φ : Prop} [Decidable φ] (hy : Yields Q y) (hz : Yields Q z) :
    Yields Q (if φ then y else z) := by
  split
  · exact hy
  · exact hz

theorem orElse_leftover?_nil (stray : Option SyntaxError) (inside : Option Delimiter) :
    (stray <|> leftover? inside []) = stray := by
  cases stray <;> rfl

/-- There is no first token that was left unread. -/
theorem eq_nil_of_stray {stray : Option SyntaxError} {inside : Option Delimiter}
    (h : (stray <|> leftover? inside ts) = none) : stray = none ∧ ts = [] := by
  cases stray with
  | some e => cases h
  | none =>
    cases ts with
    | nil => exact ⟨rfl, rfl⟩
    | cons t ts => cases h

/-- All of a text is read, in inner groups as well. -/
theorem runAll_eq_ok_iff {stop : Span} :
    runAll x ts stop = .ok a ↔ ∃ c, x ⟨ts, stop, none⟩ = .ok (a, c) ∧ c.rest = [] ∧ c.stray = none := by
  rw [runAll]
  constructor
  · intro h
    split at h
    · cases h
    · next a' c hread =>
      split at h
      · cases h
      · next hleft =>
        cases h
        obtain ⟨hstray, hrest⟩ := eq_nil_of_stray hleft
        exact ⟨c, hread, hrest, hstray⟩
  · rintro ⟨c, hread, hrest, hstray⟩
    rw [hread]
    dsimp only
    rw [hrest, hstray]
    rfl

/-! ## What does not stand at the start -/

/-- The tokens end here, or go on with a comma. -/
inductive Ends : List Token → Prop
  | nil : Ends []
  | comma (joint : Bool) (s : Span) (ts : List Token) : Ends (.punct ',' joint s :: ts)

theorem Ends.dropMark {m : String} {d : Char} {ds : List Char} (h : Ends rest)
    (hm : m.toList = d :: ds) (hd : d ≠ ',') : dropMark m.toList rest = none := by
  rw [hm]
  cases h with
  | nil => cases ds <;> rfl
  | comma joint s ts => cases ds <;> cases joint <;> simp [Parser.dropMark, hd]

theorem Ends.startsMark {m : String} {d : Char} {ds : List Char} (h : Ends rest)
    (hm : m.toList = d :: ds) (hd : d ≠ ',') : startsMark m rest = false := by
  rw [Parser.startsMark, h.dropMark hm hd]
  rfl

theorem startsWord_ident (hn : n.isKeyword = false) {w : String} (hw : w ∈ Name.keywords)
    (s : Span) (ts : List Token) : startsWord w (.ident n s :: ts) = false := by
  show (n == ⟨w, false⟩) = false
  rw [beq_eq_false_iff_ne]
  rintro rfl
  rw [Name.isKeyword, List.contains_iff_mem.mpr hw] at hn
  cases hn

theorem startsWordOf_ident (hn : n.isKeyword = false) {ws : List String} (hws : ws ⊆ Name.keywords)
    (s : Span) (ts : List Token) : startsWordOf ws (.ident n s :: ts) = false := by
  rw [startsWordOf, List.any_eq_false]
  intro w hw
  rw [startsWord_ident hn (hws hw)]
  exact Bool.false_ne_true

/-! ## What has been read -/

theorem length_pos_of_mark {m : String} (hm : m.toList ≠ []) (h : mark m c = .ok (ts, c')) :
    0 < ts.length := by
  obtain ⟨d, ds, hm⟩ := List.exists_cons_of_ne_nil hm
  rw [mark, hm] at h
  cases hrest : c.rest with
  | nil =>
    rw [hrest] at h
    cases ds <;> cases h
  | cons t rest =>
    rw [hrest] at h
    cases t with
    | punct =>
      split at h
      · cases h
        exact Nat.succ_pos _
      · cases h
    | ident | literal | group => cases ds <;> cases h

theorem eq_of_name {n : Name} {s : Span} (h : name c = .ok ((n, s), c')) :
    c = { c' with rest := .ident n s :: c'.rest } := by
  obtain ⟨rest, stop, stray⟩ := c
  cases rest with
  | nil => cases h
  | cons t rest =>
    cases t with
    | ident n s =>
      rw [name] at h
      dsimp only at h
      split at h
      · cases h
      · cases h
        rfl
    | punct | literal | group => cases h

theorem exists_ident_of_startsWord {w : String} {ts : List Token} (h : startsWord w ts = true) :
    ∃ s rest, ts = .ident ⟨w, false⟩ s :: rest := by
  cases ts with
  | nil => cases h
  | cons t rest =>
    cases t with
    | ident n s =>
      obtain rfl := eq_of_beq h
      exact ⟨s, rest, rfl⟩
    | punct | literal | group => cases h

/-- A group is read if what is in it is. -/
theorem group_of_ok {α : Type} {d : Delimiter} {inner : Parser α} {a : α} {o e stop : Span}
    {stray : Option SyntaxError} (h : inner ⟨ts, e, stray⟩ = .ok (a, c')) :
    group d inner ⟨.group d ts o e :: rest, stop, stray⟩ =
      .ok ((a, o, e), ⟨rest, stop, c'.stray <|> leftover? (some d) c'.rest⟩) := by
  simp only [group, h, if_true]

/-- A group has been read: what is in it, and what follows it. -/
theorem group_eq_ok {α : Type} {d : Delimiter} {inner : Parser α} {a : α} {o e : Span}
    (h : group d inner c = .ok ((a, o, e), c')) :
    ∃ ts c₁, c.rest = .group d ts o e :: c'.rest ∧ inner ⟨ts, e, c.stray⟩ = .ok (a, c₁) ∧
      c'.stop = c.stop ∧ c'.stray = (c₁.stray <|> leftover? (some d) c₁.rest) := by
  obtain ⟨rest, stop, stray⟩ := c
  cases rest with
  | nil => cases h
  | cons t rest =>
    cases t with
    | group d' ts o' e' =>
      rw [group] at h
      dsimp only at h
      split at h
      · next hd =>
        subst hd
        split at h
        · cases h
        · next a' c₁ hinner =>
          cases h
          exact ⟨ts, c₁, rfl, hinner, rfl, rfl⟩
      · cases h
    | ident | punct | literal => cases h

end Parser

theorem Token.weights_append (ts us : List Token) :
    weights (ts ++ us) = weights ts + weights us := by
  induction ts with
  | nil => exact (Nat.zero_add _).symm
  | cons t ts ih =>
    show weight t + weights (ts ++ us) = weight t + weights ts + weights us
    rw [ih, Nat.add_assoc]

end PackedFields
