import Mathlib
import PackedFields.Token.Literal

/-!
# Numbers as literals

A number, written out, is a literal that reads as that number: in decimal digits, and in binary
digits where it is a mask.
-/

namespace PackedFields.Literal

theorem hexDigit?_of_isDigit {c : Char} (h : isDigit c) :
    hexDigit? c = some (c.toNat - '0'.toNat) := by
  rw [isDigit, Bool.and_eq_true, decide_eq_true_eq, decide_eq_true_eq] at h
  rw [hexDigit?, if_pos h]

/-- Digits of a base up to ten have the value that the standard library gives them. -/
theorem wholeFrom_eq_ofDigitChars {b : Nat} {cs : List Char}
    (hdigits : ∀ c ∈ cs, isDigit c ∧ c.toNat - '0'.toNat < b) (value : Nat) {begun : Bool}
    (hbegun : begun ∨ cs ≠ []) :
    wholeFrom b value begun cs = some (Nat.ofDigitChars b cs value, false) := by
  -- both carry the value of the digits so far; a digit is none of the other signs of a number
  induction cs generalizing value begun with
  | nil =>
    have htrue : begun = true := hbegun.resolve_right fun h => h rfl
    rw [htrue]
    rfl
  | cons c cs ih =>
    obtain ⟨⟨hc, hlt⟩, hcs⟩ := List.forall_mem_cons.mp hdigits
    have hgap : c ≠ '_' := by
      rintro rfl
      cases hc
    have hpoint : ¬ (b = 10 ∧ c = '.') := by
      rintro ⟨-, rfl⟩
      cases hc
    have hexponent : ¬ (b = 10 ∧ (c = 'e' ∨ c = 'E')) := by
      rintro ⟨-, rfl | rfl⟩ <;> cases hc
    rw [wholeFrom, if_neg hgap, if_neg hpoint, if_neg hexponent, hexDigit?_of_isDigit hc]
    simp only [hc, true_or, if_true, hlt]
    rw [ih hcs _ (Or.inl rfl), Nat.ofDigitChars_cons, Nat.mul_comm]

theorem base_of_isDigit {cs : List Char} (h : ∀ c ∈ cs, isDigit c) : base cs = (10, cs) := by
  unfold base
  split
  · exact absurd (h 'x' (by simp)) (by decide)
  · exact absurd (h 'o' (by simp)) (by decide)
  · exact absurd (h 'b' (by simp)) (by decide)
  · rfl

theorem whole?_toString (n : Nat) : whole? (toString n) = some n := by
  have hdigits : ∀ c ∈ Nat.toDigits 10 n, isDigit c ∧ c.toNat - '0'.toNat < 10 := by
    intro c hc
    have hdigit : c.isDigit := Nat.isDigit_of_mem_toDigits (by decide) (by decide) hc
    have hle := (Char.isDigit_iff_toNat.mp hdigit).2
    have hnine : '9'.toNat = '0'.toNat + 9 := by decide
    exact ⟨hdigit, by omega⟩
  have hbase : base (Nat.toDigits 10 n) = (10, Nat.toDigits 10 n) :=
    base_of_isDigit fun c hc => (hdigits c hc).1
  rw [whole?, number?, Nat.toString_eq_repr, Nat.toList_repr]
  cases hchars : Nat.toDigits 10 n with
  | nil => exact absurd hchars Nat.toDigits_ne_nil
  | cons c cs =>
    rw [hchars] at hdigits hbase
    simp only [(hdigits c List.mem_cons_self).1, if_true, hbase]
    rw [wholeFrom_eq_ofDigitChars hdigits 0 (Or.inr (List.cons_ne_nil c cs)), ← hchars,
      Nat.ofDigitChars_ten_toDigits]
    rfl

theorem ofDigitChars_replicate_one (width value : Nat) :
    Nat.ofDigitChars 2 (List.replicate width '1') value = 2 ^ width * (value + 1) - 1 := by
  induction width generalizing value with
  | zero => rw [pow_zero, Nat.one_mul, Nat.add_sub_cancel]; rfl
  | succ width ih =>
    have hone : '1'.toNat - '0'.toNat = 1 := by decide
    rw [List.replicate_succ, Nat.ofDigitChars_cons, ih, hone, pow_succ]
    congr 1
    ring

/-- The literal for a mask is the number that has its lowest bits set. -/
theorem whole?_ones (width : Nat) :
    whole? (if width = 0 then "0" else "0b" ++ String.ofList (List.replicate width '1')) =
      some (2 ^ width - 1) := by
  split_ifs with hzero
  · rw [hzero]
    exact whole?_toString 0
  · have hmark : "0b".toList = ['0', 'b'] := by decide
    have hchars : ("0b" ++ String.ofList (List.replicate width '1')).toList =
        '0' :: 'b' :: List.replicate width '1' := by
      rw [String.toList_append, hmark, String.toList_ofList]
      rfl
    have hdigits : ∀ c ∈ List.replicate width '1', isDigit c ∧ c.toNat - '0'.toNat < 2 := by
      intro c hc
      rw [List.eq_of_mem_replicate hc]
      decide
    have hne : List.replicate width '1' ≠ [] := by
      rwa [ne_eq, List.replicate_eq_nil_iff]
    rw [whole?, number?, hchars]
    show (wholeFrom 2 0 false (List.replicate width '1')).map Prod.fst = _
    rw [wholeFrom_eq_ofDigitChars hdigits 0 (Or.inr hne), ofDigitChars_replicate_one,
      Nat.zero_add, Nat.mul_one]
    rfl

end PackedFields.Literal
