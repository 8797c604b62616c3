import Mathlib
import PackedFields.Expr.Basic

/-!
# Words as numbers

The operations on words, read as arithmetic on natural numbers: a mask is a remainder by a power of
two, a shift to the right a quotient and a shift to the left a product, of which a word keeps the
remainder. The statements hold for all shifts and all masks, those that are wider than a word
included.
-/

namespace PackedFields

/-! ## Sizes -/

theorem IntSize.bits_le (size : IntSize) : size.bits ≤ wordBits := by
  cases size <;> decide

theorem IntSize.bits_ge (size : IntSize) : 8 ≤ size.bits := by
  cases size <;> decide

/-- No integer is wider than a word. -/
theorem IntType.bits_le (t : IntType) : t.bits ≤ wordBits := t.size.bits_le

/-- Every integer has at least a byte. -/
theorem IntType.bits_ge (t : IntType) : 8 ≤ t.bits := t.size.bits_ge

/-! ## Masks -/

theorem getLsbD_ones (width : Nat) {i : Nat} (hi : i < wordBits) :
    (ones width).getLsbD i = decide (i < width) := by
  rw [ones, BitVec.getLsbD_ushiftRight, BitVec.getLsbD_allOnes, decide_eq_decide]
  omega

theorem toNat_ones {width : Nat} (h : width ≤ wordBits) : (ones width).toNat = 2 ^ width - 1 := by
  refine Nat.eq_of_testBit_eq fun i => ?_
  rw [BitVec.testBit_toNat, Nat.testBit_two_pow_sub_one]
  by_cases hi : i < wordBits
  · exact getLsbD_ones width hi
  · rw [BitVec.getLsbD_of_ge _ i (by omega), decide_eq_false (by omega)]

/-- A mask, cut to the bits of a narrower integer, takes the remainder of that integer. -/
theorem toNat_and_setWidth_ones {n : Nat} (hn : n ≤ wordBits) (b : BitVec n) (width : Nat) :
    (b &&& (ones width).setWidth n).toNat = b.toNat % 2 ^ width := by
  refine Nat.eq_of_testBit_eq fun i => ?_
  rw [BitVec.testBit_toNat, BitVec.getLsbD_and, BitVec.getLsbD_setWidth, Nat.testBit_mod_two_pow,
    BitVec.testBit_toNat]
  by_cases hi : i < n
  · rw [getLsbD_ones width (by omega), Bool.and_comm, decide_eq_true hi, Bool.true_and]
  · rw [BitVec.getLsbD_of_ge b i (by omega), Bool.false_and, Bool.and_false]

/-- A mask takes the remainder of a word. -/
theorem toNat_and_ones (w : Word) (width : Nat) :
    (w &&& ones width).toNat = w.toNat % 2 ^ width := by
  have h := toNat_and_setWidth_ones (le_refl wordBits) w width
  rwa [BitVec.setWidth_eq] at h

/-- Equal remainders by a power of two are equal bits below it. -/
theorem mod_two_pow_eq_iff (a b : Word) (n : Nat) :
    a.toNat % 2 ^ n = b.toNat % 2 ^ n ↔ ∀ i < n, a.getLsbD i = b.getLsbD i := by
  constructor
  · intro h i hi
    have hbit := congrArg (·.testBit i) h
    simpa [Nat.testBit_mod_two_pow, hi, BitVec.testBit_toNat] using hbit
  · intro h
    refine Nat.eq_of_testBit_eq fun i => ?_
    rw [Nat.testBit_mod_two_pow, Nat.testBit_mod_two_pow, BitVec.testBit_toNat,
      BitVec.testBit_toNat]
    by_cases hi : i < n
    · rw [h i hi]
    · rw [decide_eq_false hi, Bool.false_and, Bool.false_and]

namespace Expr

/-! ## Shifts -/

theorem toNat_wordShr (w : Word) (n : Nat) : (wordShr w n).toNat = w.toNat / 2 ^ n := by
  rw [wordShr]
  split
  · rw [BitVec.toNat_ushiftRight, Nat.shiftRight_eq_div_pow]
  · next h =>
    have hle : 2 ^ wordBits ≤ 2 ^ n := Nat.pow_le_pow_right (by omega) (by omega)
    exact (Nat.div_eq_of_lt (lt_of_lt_of_le w.isLt hle)).symm

theorem toNat_wordShl (w : Word) (n : Nat) :
    (wordShl w n).toNat = w.toNat * 2 ^ n % 2 ^ wordBits := by
  rw [wordShl]
  split
  · rw [BitVec.toNat_shiftLeft, Nat.shiftLeft_eq]
  · next h =>
    have hdvd : 2 ^ wordBits ∣ w.toNat * 2 ^ n := Dvd.dvd.mul_left (pow_dvd_pow 2 (by omega)) _
    exact (Nat.mod_eq_zero_of_dvd hdvd).symm

theorem toNat_truth (b : Bool) : (truth b).toNat = b.toNat := by
  cases b <;> rfl

/-! ## Values of expressions -/

variable (env : Env) (e : Expr)

theorem eval_param (n : Name) : eval env (param n) = env.param n := rfl

theorem eval_test : eval env (test e) = truth (eval env e == 1) := rfl

theorem toNat_eval_backing :
    (eval env backing).toNat = env.backing.toNat % 2 ^ env.type.bits := by
  show (env.backing &&& ones env.type.bits).toNat = _
  rw [toNat_and_ones]

theorem toNat_eval_mask (width : Nat) :
    (eval env (mask e width)).toNat = (eval env e).toNat % 2 ^ width := by
  show (eval env e &&& ones width).toNat = _
  rw [toNat_and_ones]

theorem toNat_eval_cast (t : IntType) :
    (eval env (cast e t)).toNat = (eval env e).toNat % 2 ^ t.bits := by
  show (eval env e &&& ones t.bits).toNat = _
  rw [toNat_and_ones]

theorem toNat_eval_ofBool (t : IntType) :
    (eval env (ofBool e t)).toNat = ((eval env e).toNat != 0).toNat := by
  have hzero : eval env e = 0 ↔ (eval env e).toNat = 0 := by
    rw [← BitVec.toNat_inj]
    rfl
  show (truth (eval env e != 0)).toNat = _
  rw [toNat_truth]
  congr 1
  rw [Bool.eq_iff_iff, bne_iff_ne, bne_iff_ne, ne_eq, ne_eq, hzero]

/-- A shift to the right is a quotient, be it written or left out. -/
theorem toNat_eval_shiftRight (n : Nat) :
    (eval env (e.shiftRight n)).toNat = (eval env e).toNat / 2 ^ n := by
  rw [shiftRight]
  split
  · next h => rw [h, pow_zero, Nat.div_one]
  · show (wordShr (eval env e) n).toNat = _
    rw [toNat_wordShr]

/-- A shift to the left is a product, of which the bits of the backing integer are kept. One that is
left out keeps all bits, so the value must have no more of them. -/
theorem toNat_eval_shiftLeft {n : Nat} (he : (eval env e).toNat < 2 ^ env.type.bits) :
    (eval env (e.shiftLeft n)).toNat = (eval env e).toNat * 2 ^ n % 2 ^ env.type.bits := by
  rw [shiftLeft]
  split
  · next h => rw [h, pow_zero, Nat.mul_one, Nat.mod_eq_of_lt he]
  · have hdvd : 2 ^ env.type.bits ∣ 2 ^ wordBits := pow_dvd_pow 2 env.type.bits_le
    show (wordShl (eval env e) n &&& ones env.type.bits).toNat = _
    rw [toNat_and_ones, toNat_wordShl, Nat.mod_mod_of_dvd _ hdvd]

end Expr

end PackedFields
