import Mathlib.Data.List.TakeWhile
import Mathlib.Tactic.Common
import PackedFields.Token.Literal

/-!
# Whole numbers

A whole number is written in one of four bases. Low lines may stand anywhere between and after its
digits, and a suffix may follow them: an identifier, if it cannot be taken for more of the number.
`Literal.whole?_eq_some_iff` says that these are the literals which are read as whole numbers, each
as the number that its digits make.
-/

namespace PackedFields.Literal

/-- The value of a digit in the base `b`. -/
def digit? (b : Nat) (c : Char) : Option Nat := (hexDigit? c).filter (· < b)

/-- The number that the digits make in the base `b` when those before them make `value`. -/
def valueFrom (b value : Nat) (digits : List Nat) : Nat :=
  digits.foldl (fun value d => value * b + d) value

/-- Whether characters can end a number in the base `b`: there are none, or they are an identifier
that starts neither with more digits nor with an exponent. -/
def IsSuffix (b : Nat) : List Char → Prop
  | [] => True
  | c :: cs => (Text.opensName c = true ∧ ∀ d ∈ cs, Text.continuesName d = true) ∧
    c ≠ '_' ∧ digit? b c = none ∧ ¬ (b = 10 ∧ (c = 'e' ∨ c = 'E') ∧ exponentFollows cs = true)

/-- Whether characters are digits in the base `b` that make the number `n`, low lines, and maybe a
suffix. The digits before them make `value`; if there are none before them, as `begun` says, there
must be one here. -/
def IsNumeral (b value : Nat) (begun : Bool) (cs : List Char) (n : Nat) : Prop :=
  ∃ body suffix, cs = body ++ suffix ∧ (∀ c ∈ body, c = '_' ∨ (digit? b c).isSome) ∧
    (begun = true ∨ body.filterMap (digit? b) ≠ []) ∧ IsSuffix b suffix ∧
    n = valueFrom b value (body.filterMap (digit? b))

/-- Whether a literal is the whole number `n`. -/
def IsWhole (spelling : String) (n : Nat) : Prop :=
  isNumber spelling = true ∧
    IsNumeral (base spelling.toList).1 0 false (base spelling.toList).2 n

variable {b value n d : Nat} {begun : Bool} {c : Char} {cs : List Char}

/-! ## One character -/

theorem hexDigit?_cases (h : hexDigit? c = some d) :
    isDigit c = true ∧ d < 10 ∨ isDigit c = false ∧ 10 ≤ d ∧ d < 16 := by
  simp only [hexDigit?, Char.le_def, UInt32.le_iff_toNat_le, Char.toNat] at h
  rw [isDigit, Bool.and_eq_true, Bool.and_eq_false_iff, decide_eq_true_eq, decide_eq_true_eq,
    decide_eq_false_iff_not, decide_eq_false_iff_not]
  simp only [Char.le_def, UInt32.le_iff_toNat_le]
  have hzero : ('0' : Char).val.toNat = 48 := rfl
  have hnine : ('9' : Char).val.toNat = 57 := rfl
  have hsmallA : ('a' : Char).val.toNat = 97 := rfl
  have hsmallF : ('f' : Char).val.toNat = 102 := rfl
  have hcapitalA : ('A' : Char).val.toNat = 65 := rfl
  have hcapitalF : ('F' : Char).val.toNat = 70 := rfl
  split_ifs at h with hdigit hsmall hcapital
  · have hd := Option.some.inj h
    omega
  · have hd := Option.some.inj h
    omega
  · have hd := Option.some.inj h
    omega

theorem digit?_eq_some_iff : digit? b c = some d ↔ hexDigit? c = some d ∧ d < b := by
  rw [digit?, Option.filter_eq_some_iff, decide_eq_true_eq]

theorem wholeFrom_gap (b value : Nat) (begun : Bool) (cs : List Char) :
    wholeFrom b value begun ('_' :: cs) = wholeFrom b value begun cs := by
  rw [wholeFrom, if_pos rfl]

theorem wholeFrom_digit (h : digit? b c = some d) (value : Nat) (begun : Bool) (cs : List Char) :
    wholeFrom b value begun (c :: cs) = wholeFrom b (value * b + d) true cs := by
  obtain ⟨hd, hlt⟩ := digit?_eq_some_iff.mp h
  have hgap : c ≠ '_' := by
    rintro rfl
    cases hd
  have hpoint : ¬ (b = 10 ∧ c = '.') := by
    rintro ⟨-, rfl⟩
    cases hd
  have hexponent : ¬ (b = 10 ∧ (c = 'e' ∨ c = 'E')) := by
    rintro ⟨rfl, rfl | rfl⟩
    · cases hd
      exact absurd hlt (by decide)
    · cases hd
      exact absurd hlt (by decide)
  have hinside : isDigit c = true ∨ 10 < b := by
    rcases hexDigit?_cases hd with ⟨hc, -⟩ | ⟨-, hge, -⟩
    · exact .inl hc
    · exact .inr (by omega)
  rw [wholeFrom, if_neg hgap, if_neg hpoint, if_neg hexponent, hd]
  dsimp only
  rw [if_pos hinside, if_pos hlt]

theorem skipSuffix_isEmpty_iff :
    (skipSuffix (c :: cs)).isEmpty = true ↔
      Text.opensName c = true ∧ ∀ d ∈ cs, Text.continuesName d = true := by
  rw [skipSuffix]
  split
  · next hc => simp [hc, List.dropWhile_eq_nil_iff]
  · next hc => simp [hc]

/-- The letters start at the code point 65. -/
theorem opensName_eq_false (h : c.toNat < 65) : Text.opensName c = false := by
  have hcodes : Text.openingCodes.all (fun r => 65 ≤ r.1) = true := by decide +kernel
  have hgap : (c == '_') = false := by
    rw [beq_eq_false_iff_ne]
    rintro rfl
    exact absurd h (by decide)
  rw [Text.opensName, hgap, Bool.false_or, Text.covers, List.any_eq_false]
  intro r hr hcovers
  have hstart := of_decide_eq_true (List.all_eq_true.mp hcodes r hr)
  rw [Bool.and_eq_true, decide_eq_true_eq, decide_eq_true_eq] at hcovers
  omega

theorem toNat_lt_of_isDigit (h : isDigit c = true) : c.toNat < 65 := by
  rw [isDigit, Bool.and_eq_true, decide_eq_true_eq, decide_eq_true_eq, Char.le_def, Char.le_def,
    UInt32.le_iff_toNat_le, UInt32.le_iff_toNat_le] at h
  have hnine : ('9' : Char).val.toNat = 57 := rfl
  show c.val.toNat < 65
  omega

/-- What is neither a digit nor a low line ends the number, if it can. -/
theorem wholeFrom_stop (hb : b ≤ 10 ∨ 16 ≤ b) (hgap : c ≠ '_') (hdigit : digit? b c = none)
    (value : Nat) (begun : Bool) {suffixed : Bool} :
    wholeFrom b value begun (c :: cs) = some (n, suffixed) ↔
      begun = true ∧ IsSuffix b (c :: cs) ∧ n = value ∧ suffixed = true := by
  have hsuffix : ¬ (b = 10 ∧ (c = 'e' ∨ c = 'E') ∧ exponentFollows cs = true) →
      ((if begun && (skipSuffix (c :: cs)).isEmpty then some (value, true) else none) =
        some (n, suffixed) ↔
      begun = true ∧ IsSuffix b (c :: cs) ∧ n = value ∧ suffixed = true) := by
    intro hexponent
    have hsame : (value, true) = (n, suffixed) ↔ n = value ∧ suffixed = true := by
      rw [Prod.mk.injEq]
      exact and_congr eq_comm eq_comm
    rw [Option.ite_none_right_eq_some, Bool.and_eq_true, skipSuffix_isEmpty_iff, IsSuffix,
      Option.some.injEq, hsame]
    simp only [hgap, hdigit, hexponent, ne_eq, not_false_eq_true, and_true, and_assoc]
  have hspoiled : Text.opensName c = false → ¬ IsSuffix b (c :: cs) := by
    intro hc h
    rw [h.1.1] at hc
    cases hc
  rw [wholeFrom, if_neg hgap]
  by_cases hpoint : b = 10 ∧ c = '.'
  · rw [if_pos hpoint]
    have hlow : c.toNat < 65 := by
      rw [hpoint.2]
      decide
    have hnot := hspoiled (opensName_eq_false hlow)
    simp [hnot]
  rw [if_neg hpoint]
  by_cases hexponent : b = 10 ∧ (c = 'e' ∨ c = 'E')
  · rw [if_pos hexponent]
    by_cases hfollows : exponentFollows cs = true
    · have hnot : ¬ IsSuffix b (c :: cs) := fun h => h.2.2.2 ⟨hexponent.1, hexponent.2, hfollows⟩
      simp [hfollows, hnot]
    · rw [if_neg hfollows]
      exact hsuffix fun h => hfollows h.2.2
  rw [if_neg hexponent]
  have hends := hsuffix fun h => hexponent ⟨h.1, h.2.1⟩
  cases hd : hexDigit? c with
  | none => exact hends
  | some d =>
    dsimp only
    have hge : ¬ d < b := by
      intro hlt
      rw [digit?_eq_some_iff.mpr ⟨hd, hlt⟩] at hdigit
      cases hdigit
    rw [if_neg hge]
    by_cases hinside : isDigit c = true ∨ 10 < b
    · rw [if_pos hinside]
      -- a decimal digit that the base lacks
      have hc : isDigit c = true := by
        rcases hexDigit?_cases hd with ⟨hc, -⟩ | ⟨hc, hd10, hd16⟩
        · exact hc
        · rw [hc] at hinside
          have hlarge := hinside.resolve_left Bool.false_ne_true
          omega
      have hnot := hspoiled (opensName_eq_false (toNat_lt_of_isDigit hc))
      simp [hnot]
    · rw [if_neg hinside]
      exact hends

/-! ## All characters -/

theorem isNumeral_gap :
    IsNumeral b value begun ('_' :: cs) n ↔ IsNumeral b value begun cs n := by
  constructor
  · rintro ⟨body, suffix, hcs, hbody, hbegun, hsuffix, hn⟩
    cases body with
    | nil =>
      obtain rfl : '_' :: cs = suffix := hcs
      exact absurd rfl hsuffix.2.1
    | cons c body =>
      obtain ⟨rfl, rfl⟩ := List.cons.inj hcs
      exact ⟨body, suffix, rfl, (List.forall_mem_cons.mp hbody).2, hbegun, hsuffix, hn⟩
  · rintro ⟨body, suffix, rfl, hbody, hbegun, hsuffix, hn⟩
    exact ⟨'_' :: body, suffix, rfl, List.forall_mem_cons.mpr ⟨.inl rfl, hbody⟩, hbegun, hsuffix,
      hn⟩

theorem isNumeral_digit (h : digit? b c = some d) :
    IsNumeral b value begun (c :: cs) n ↔ IsNumeral b (value * b + d) true cs n := by
  constructor
  · rintro ⟨body, suffix, hcs, hbody, -, hsuffix, hn⟩
    cases body with
    | nil =>
      obtain rfl : c :: cs = suffix := hcs
      rw [hsuffix.2.2.1] at h
      cases h
    | cons c body =>
      obtain ⟨rfl, rfl⟩ := List.cons.inj hcs
      rw [List.filterMap_cons_some h] at hn
      exact ⟨body, suffix, rfl, (List.forall_mem_cons.mp hbody).2, .inl rfl, hsuffix, hn⟩
  · rintro ⟨body, suffix, rfl, hbody, -, hsuffix, hn⟩
    have hsome : (digit? b c).isSome := by
      rw [h]
      rfl
    refine ⟨c :: body, suffix, rfl, List.forall_mem_cons.mpr ⟨.inr hsome, hbody⟩, .inr ?_,
      hsuffix, ?_⟩
    · rw [List.filterMap_cons_some h]
      exact List.cons_ne_nil _ _
    · rw [List.filterMap_cons_some h]
      exact hn

theorem isNumeral_stop (hgap : c ≠ '_') (hdigit : digit? b c = none) :
    IsNumeral b value begun (c :: cs) n ↔ begun = true ∧ IsSuffix b (c :: cs) ∧ n = value := by
  constructor
  · rintro ⟨body, suffix, hcs, hbody, hbegun, hsuffix, hn⟩
    cases body with
    | nil =>
      obtain rfl : c :: cs = suffix := hcs
      exact ⟨hbegun.resolve_right fun h => h rfl, hsuffix, hn⟩
    | cons c body =>
      obtain ⟨rfl, -⟩ := List.cons.inj hcs
      rcases (List.forall_mem_cons.mp hbody).1 with hc | hc
      · exact absurd hc hgap
      · rw [hdigit] at hc
        cases hc
  · rintro ⟨hbegun, hsuffix, hn⟩
    exact ⟨[], c :: cs, rfl, nofun, .inl hbegun, hsuffix, hn⟩

theorem isNumeral_nil : IsNumeral b value begun [] n ↔ begun = true ∧ n = value := by
  constructor
  · rintro ⟨body, suffix, hcs, -, hbegun, -, hn⟩
    obtain ⟨rfl, -⟩ := List.append_eq_nil_iff.mp hcs.symm
    exact ⟨hbegun.resolve_right fun h => h rfl, hn⟩
  · rintro ⟨hbegun, hn⟩
    exact ⟨[], [], rfl, nofun, .inl hbegun, trivial, hn⟩

/-- Digits are read one by one. -/
theorem map_wholeFrom_eq_some_iff (hb : b ≤ 10 ∨ 16 ≤ b) :
    (wholeFrom b value begun cs).map Prod.fst = some n ↔ IsNumeral b value begun cs n := by
  induction cs generalizing value begun with
  | nil =>
    rw [isNumeral_nil, wholeFrom]
    cases begun with
    | false => simp
    | true => simpa using eq_comm
  | cons c cs ih =>
    by_cases hgap : c = '_'
    · rw [hgap, wholeFrom_gap, isNumeral_gap, ih]
    · cases hdigit : digit? b c with
      | some d => rw [wholeFrom_digit hdigit, isNumeral_digit hdigit, ih]
      | none =>
        rw [isNumeral_stop hgap hdigit, Option.map_eq_some_iff]
        simp only [Prod.exists, wholeFrom_stop hb hgap hdigit, exists_and_right, exists_eq_right]
        simp

theorem base_cases (cs : List Char) : (base cs).1 ≤ 10 ∨ 16 ≤ (base cs).1 := by
  unfold base
  split <;> simp

/-- The literals that are read as whole numbers. -/
theorem whole?_eq_some_iff {spelling : String} : whole? spelling = some n ↔ IsWhole spelling n := by
  rw [IsWhole, ← map_wholeFrom_eq_some_iff (base_cases _), whole?, number?, isNumber]
  cases spelling.toList with
  | nil => simp
  | cons c cs =>
    rw [List.head?_cons, Option.any_some]
    cases hc : isDigit c <;> simp [hc]

/-- A base and a low line. -/
example : whole? "0b01_00" = some 4 := by decide

/-- An exponent makes a fractional number. -/
example : whole? "4e1" = none := by decide

end PackedFields.Literal
