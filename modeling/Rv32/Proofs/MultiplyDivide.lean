import Rv32.Proofs.GuardedHart

/-!
# Multiplication and division

A product is taken at twice the width of its operands, where it always fits. The upper half of it
is what three of the instructions compute, and the lower half is the same for all of them. A
quotient is rounded towards zero (`RoundsTowardZero`), except that a divisor of zero and the one
signed quotient that does not fit have rules of their own. `RegOp.multiply_divide_exact` says what
the instructions compute in terms of integers.
-/

namespace Rv32

/-! ## Products -/

theorem upperHalf_append (product : DoubleWord) :
    upperHalf product ++ product.setWidth 32 = product := by
  have lower : product.setWidth 32 = product.extractLsb' 0 32 :=
    BitVec.setWidth_eq_extractLsb' (by decide)
  have whole : product.extractLsb' 32 32 ++ product.extractLsb' 0 32 =
      product.extractLsb' 0 (32 + 32) :=
    BitVec.extractLsb'_append_extractLsb'_eq_extractLsb' rfl
  rw [lower, upperHalf, whole]
  exact BitVec.extractLsb'_eq_self

theorem setWidth_signExtend (value : Word) : (value.signExtend 64).setWidth 32 = value := by
  apply BitVec.eq_of_getLsbD_eq
  intro place inside
  simp only [BitVec.getLsbD_setWidth, BitVec.getLsbD_signExtend, inside, decide_true,
    Bool.true_and, if_true, Bool.and_eq_right_iff_imp, decide_eq_true_eq]
  omega

theorem setWidth_zeroExtend (value : Word) : (value.setWidth 64).setWidth 32 = value :=
  (BitVec.setWidth_setWidth_of_le value (by decide)).trans (BitVec.setWidth_eq value)

/-- The lower half of a product depends on the lower halves of its operands only. -/
theorem upperHalf_append_mul {first second : Word} {wideFirst wideSecond : DoubleWord}
    (left : wideFirst.setWidth 32 = first) (right : wideSecond.setWidth 32 = second) :
    upperHalf (wideFirst * wideSecond) ++ first * second = wideFirst * wideSecond := by
  have lower : (wideFirst * wideSecond).setWidth 32 = first * second := by
    rw [BitVec.setWidth_mul _ _ (by decide), left, right]
  rw [← lower]
  exact upperHalf_append _

/-- Whatever `Checked.exact` lets through does not overflow. -/
theorem Checked.not_overflows {width : Nat}
    {operation : BitVec width → BitVec width → BitVec width}
    {overflows : BitVec width → BitVec width → Bool} {first second value : BitVec width}
    (passed : Checked.exact operation overflows first second = .ok value) :
    overflows first second = false := by
  unfold Checked.exact at passed
  split at passed
  · cases passed
  · rename_i fits
    exact Bool.eq_false_iff.2 fits

section Products

variable (first second : Word)

theorem not_smulOverflow_signed :
    (first.signExtend 64).smulOverflow (second.signExtend 64) = false := by
  have right : (second.signExtend 64).toInt.natAbs < 2 ^ 32 :=
    Nat.lt_of_le_of_lt (Checked.natAbs_signExtend second) (by decide)
  exact Checked.not_overflows (Checked.mulSigned_eq (Checked.natAbs_signExtend first) right)

theorem not_smulOverflow_mixed :
    (first.signExtend 64).smulOverflow (second.setWidth 64) = false :=
  Checked.not_overflows
    (Checked.mulSigned_eq (Checked.natAbs_signExtend first) (Checked.natAbs_setWidth second))

theorem not_umulOverflow_unsigned :
    (first.setWidth 64).umulOverflow (second.setWidth 64) = false := by
  refine decide_eq_false (Nat.not_le.2 ?_)
  rw [BitVec.toNat_setWidth_of_le (by decide), BitVec.toNat_setWidth_of_le (by decide)]
  have below : first.toNat * second.toNat < 2 ^ 32 * 2 ^ 32 :=
    Nat.mul_lt_mul'' first.isLt second.isLt
  exact below

theorem toInt_setWidth_wide : (second.setWidth 64).toInt = second.toNat := by
  have same : (second.setWidth 64).toNat = second.toNat := BitVec.toNat_setWidth_of_le (by decide)
  have below := second.isLt
  rw [BitVec.toInt_eq_toNat_of_lt (by omega), same]

/-- The halves of the product of signed integers. -/
theorem toInt_mulh_append_mul :
    (RegOp.mulh.eval first second ++ RegOp.mul.eval first second).toInt =
      first.toInt * second.toInt := by
  have halves : RegOp.mulh.eval first second ++ RegOp.mul.eval first second =
      first.signExtend 64 * second.signExtend 64 :=
    upperHalf_append_mul (setWidth_signExtend first) (setWidth_signExtend second)
  have fits := Bool.eq_false_iff.1 (not_smulOverflow_signed first second)
  rw [halves, BitVec.toInt_mul_of_not_smulOverflow fits,
    BitVec.toInt_signExtend_of_le (by decide), BitVec.toInt_signExtend_of_le (by decide)]

/-- The halves of the product of a signed and an unsigned integer. -/
theorem toInt_mulhsu_append_mul :
    (RegOp.mulhsu.eval first second ++ RegOp.mul.eval first second).toInt =
      first.toInt * second.toNat := by
  have halves : RegOp.mulhsu.eval first second ++ RegOp.mul.eval first second =
      first.signExtend 64 * second.setWidth 64 :=
    upperHalf_append_mul (setWidth_signExtend first) (setWidth_zeroExtend second)
  have fits := Bool.eq_false_iff.1 (not_smulOverflow_mixed first second)
  rw [halves, BitVec.toInt_mul_of_not_smulOverflow fits,
    BitVec.toInt_signExtend_of_le (by decide), toInt_setWidth_wide]

/-- The halves of the product of unsigned integers. -/
theorem toNat_mulhu_append_mul :
    (RegOp.mulhu.eval first second ++ RegOp.mul.eval first second).toNat =
      first.toNat * second.toNat := by
  have halves : RegOp.mulhu.eval first second ++ RegOp.mul.eval first second =
      first.setWidth 64 * second.setWidth 64 :=
    upperHalf_append_mul (setWidth_zeroExtend first) (setWidth_zeroExtend second)
  have fits := Bool.eq_false_iff.1 (not_umulOverflow_unsigned first second)
  rw [halves, BitVec.toNat_mul_of_not_umulOverflow fits, BitVec.toNat_setWidth_of_le (by decide),
    BitVec.toNat_setWidth_of_le (by decide)]

end Products

/-! ## Quotients and remainders -/

/-- The quotient is that of a division which rounds towards zero, so the remainder is smaller than
the divisor and on the same side of zero as the dividend. -/
structure RoundsTowardZero (dividend divisor quotient remainder : Int) : Prop where
  whole : dividend = quotient * divisor + remainder
  small : |remainder| < |divisor|
  side : remainder = 0 ∨ remainder.sign = dividend.sign

theorem roundsTowardZero_tdiv (dividend : Int) {divisor : Int} (nonzero : divisor ≠ 0) :
    RoundsTowardZero dividend divisor (dividend.tdiv divisor) (dividend.tmod divisor) where
  whole := (Int.tdiv_mul_add_tmod dividend divisor).symm
  small := by
    rw [Int.abs_eq_natAbs, Int.abs_eq_natAbs, Int.natAbs_tmod]
    exact Int.ofNat_lt.2 (Nat.mod_lt _ (Int.natAbs_pos.2 nonzero))
  side := by
    rw [Int.sign_tmod]
    by_cases divides : divisor ∣ dividend
    · exact .inl (Int.tmod_eq_zero_of_dvd divides)
    · exact .inr (if_neg divides)

section Quotients

variable {first second : Word}

theorem toInt_ne_zero (nonzero : second ≠ 0) : second.toInt ≠ 0 := by
  intro zero
  exact nonzero (BitVec.toInt_inj.1 (zero.trans BitVec.toInt_zero.symm))

/-- The signed quotient and its remainder. There is one quotient that does not fit a word. -/
theorem roundsTowardZero_div_rem (nonzero : second ≠ 0)
    (fits : ¬ (first.toInt = -2 ^ 31 ∧ second.toInt = -1)) :
    RoundsTowardZero first.toInt second.toInt (RegOp.div.eval first second).toInt
      (RegOp.rem.eval first second).toInt := by
  have isWord : first ≠ BitVec.intMin 32 ∨ second ≠ -1#32 := by
    by_contra both
    obtain ⟨least, minusOne⟩ := not_or.1 both
    rw [not_not.1 least, not_not.1 minusOne] at fits
    exact fits (by decide)
  have quotient : RegOp.div.eval first second = first.sdiv second := if_neg nonzero
  have remainder : RegOp.rem.eval first second = first.srem second := if_neg nonzero
  rw [quotient, remainder, BitVec.toInt_sdiv_of_ne_or_ne _ _ isWord, BitVec.toInt_srem]
  exact roundsTowardZero_tdiv _ (toInt_ne_zero nonzero)

/-- The quotient that does not fit a word wraps round to the dividend. -/
theorem div_rem_of_least (least : first.toInt = -2 ^ 31) (minusOne : second.toInt = -1) :
    RegOp.div.eval first second = first ∧ RegOp.rem.eval first second = 0 := by
  obtain rfl : first = BitVec.intMin 32 := BitVec.toInt_inj.1 least
  obtain rfl : second = -1#32 := BitVec.toInt_inj.1 minusOne
  decide

/-- The unsigned quotient and its remainder. -/
theorem divu_remu (nonzero : second ≠ 0) :
    first.toNat = (RegOp.divu.eval first second).toNat * second.toNat +
        (RegOp.remu.eval first second).toNat ∧
      (RegOp.remu.eval first second).toNat < second.toNat := by
  have quotient : RegOp.divu.eval first second = first / second := if_neg nonzero
  have remainder : RegOp.remu.eval first second = first % second := if_neg nonzero
  have positive : 0 < second.toNat :=
    Nat.pos_of_ne_zero fun zero => nonzero (BitVec.eq_of_toNat_eq zero)
  rw [quotient, remainder, BitVec.toNat_udiv, BitVec.toNat_umod]
  exact ⟨(Nat.div_add_mod' ..).symm, Nat.mod_lt _ positive⟩

end Quotients

/-! ## The instructions -/

/-- Multiplication and division are those of integers. Each product with both of its halves is exact
and fits the 64 bits in which it is taken. Signed quotients round towards zero and unsigned ones
down; the quotient that does not fit a word is the dividend, and that by zero has all bits set. No
operands lead to a breach. -/
theorem RegOp.multiply_divide_exact (first second : Word) :
    (∀ op : RegOp, Checked.evalReg op first second = .ok (op.eval first second)) ∧
    ((RegOp.mulh.eval first second ++ RegOp.mul.eval first second).toInt =
        first.toInt * second.toInt ∧
      (RegOp.mulhsu.eval first second ++ RegOp.mul.eval first second).toInt =
        first.toInt * second.toNat ∧
      (RegOp.mulhu.eval first second ++ RegOp.mul.eval first second).toNat =
        first.toNat * second.toNat) ∧
    ((first.signExtend 64).smulOverflow (second.signExtend 64) = false ∧
      (first.signExtend 64).smulOverflow (second.setWidth 64) = false ∧
      (first.setWidth 64).umulOverflow (second.setWidth 64) = false) ∧
    (second ≠ 0 →
      (if first.toInt = -2 ^ 31 ∧ second.toInt = -1 then
        RegOp.div.eval first second = first ∧ RegOp.rem.eval first second = 0
      else
        RoundsTowardZero first.toInt second.toInt (RegOp.div.eval first second).toInt
          (RegOp.rem.eval first second).toInt) ∧
      first.toNat = (RegOp.divu.eval first second).toNat * second.toNat +
        (RegOp.remu.eval first second).toNat ∧
      (RegOp.remu.eval first second).toNat < second.toNat) ∧
    (second = 0 →
      RegOp.div.eval first second = BitVec.allOnes 32 ∧
      RegOp.divu.eval first second = BitVec.allOnes 32 ∧
      RegOp.rem.eval first second = first ∧ RegOp.remu.eval first second = first) := by
  refine ⟨fun op => Checked.evalReg_eq op first second,
    ⟨toInt_mulh_append_mul first second, toInt_mulhsu_append_mul first second,
      toNat_mulhu_append_mul first second⟩,
    ⟨not_smulOverflow_signed first second, not_smulOverflow_mixed first second,
      not_umulOverflow_unsigned first second⟩,
    fun nonzero => ⟨?_, divu_remu nonzero⟩, fun zero => ?_⟩
  · split
    · rename_i overflow
      exact div_rem_of_least overflow.1 overflow.2
    · rename_i fits
      exact roundsTowardZero_div_rem nonzero fits
  · exact ⟨if_pos zero, if_pos zero, if_pos zero, if_pos zero⟩

/-- The least dividend over minus three, where the quotient fits and the remainder is negative, and
over minus one, where it does not fit. -/
theorem RegOp.least_divided :
    ((-3 : Word) ≠ 0 ∧
      RoundsTowardZero (-2147483648) (-3) (RegOp.div.eval 0x80000000 (-3)).toInt
        (RegOp.rem.eval 0x80000000 (-3)).toInt) ∧
    ((-1 : Word) ≠ 0 ∧ RegOp.div.eval 0x80000000 (-1) = 0x80000000 ∧
      RegOp.rem.eval 0x80000000 (-1) = 0) := by
  have three : (-3 : Word) ≠ 0 := by decide
  have one : (-1 : Word) ≠ 0 := by decide
  obtain ⟨-, -, -, overThree, -⟩ := RegOp.multiply_divide_exact 0x80000000 (-3)
  obtain ⟨-, -, -, overOne, -⟩ := RegOp.multiply_divide_exact 0x80000000 (-1)
  refine ⟨⟨three, ?_⟩, one, ?_⟩
  · have signed := (overThree three).1
    rw [if_neg (by decide)] at signed
    exact signed
  · have signed := (overOne one).1
    rw [if_pos (by decide)] at signed
    exact signed

end Rv32
