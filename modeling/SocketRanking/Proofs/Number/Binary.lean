import SocketRanking.Proofs.Number.Nearest

/-!
# The content of a double, and its parts

The parts that are read from the bit pattern of a double are those that the arithmetic of
doubles works with (`unpack_eq`), and the fraction that they make up is the magnitude.
-/

namespace SocketRanking.Number

open Float.Model Float.Model.UnpackedFloat

theorem twoPow_eq (n : ℕ) : twoPow n = 2 ^ n :=
  rfl

theorem tenPow_eq (n : ℕ) : tenPow n = 10 ^ n :=
  rfl

namespace Binary

/-- The sign, as the arithmetic of doubles has it. -/
def sign (b : Binary) : Sign :=
  if b.negative then .negative else .positive

/-- The magnitude. -/
def value (b : Binary) : ℚ :=
  b.significand * 2 ^ b.exponent

theorem numerator_div_denominator (b : Binary) : (b.numerator : ℚ) / b.denominator = b.value := by
  have hplace : (2 : ℚ) ^ b.exponent = 2 ^ b.exponent.toNat / 2 ^ (-b.exponent).toNat := by
    rw [← zpow_natCast, ← zpow_natCast, ← zpow_sub₀ two_ne_zero]
    congr 1
    omega
  rw [numerator, denominator, twoPow_eq, twoPow_eq, value, hplace]
  push_cast
  ring

end Binary

variable {x : Float}

/-- A double at the least place has no more than its fraction. -/
theorem Binary.ofFloat_of_biased_eq_zero (hbiased : x.toBits.toNat / 2 ^ 52 % 2 ^ 11 = 0) :
    (ofFloat x).significand = x.toBits.toNat % 2 ^ 52 ∧ (ofFloat x).exponent = -1074 :=
  ⟨if_pos hbiased, if_pos hbiased⟩

/-- Other doubles have a leading bit that is not written. -/
theorem Binary.ofFloat_of_biased_ne_zero (hbiased : x.toBits.toNat / 2 ^ 52 % 2 ^ 11 ≠ 0) :
    (ofFloat x).significand = 2 ^ 52 + x.toBits.toNat % 2 ^ 52 ∧
      (ofFloat x).exponent = (x.toBits.toNat / 2 ^ 52 % 2 ^ 11 : ℕ) - 1075 :=
  ⟨if_neg hbiased, if_neg hbiased⟩

theorem unpackMantissa_toNat (x : Float) :
    (@unpackMantissa Format.binary64 x.toModel.toBits.toBitVec).toNat =
      x.toBits.toNat % 2 ^ 52 := by
  simp only [unpackMantissa, BitVec.toNat_cast, BitVec.extractLsb_toNat]
  rw [Nat.shiftRight_zero]
  rfl

theorem unpackExponent_toNat (x : Float) :
    (@unpackExponent Format.binary64 x.toModel.toBits.toBitVec).toNat =
      x.toBits.toNat / 2 ^ 52 % 2 ^ 11 := by
  simp only [unpackExponent, BitVec.toNat_cast, BitVec.extractLsb_toNat,
    Nat.shiftRight_eq_div_pow]
  rfl

theorem ofBitVec_unpackSign (x : Float) :
    Sign.ofBitVec (@unpackSign Format.binary64 x.toModel.toBits.toBitVec) =
      (Binary.ofFloat x).sign := by
  have hbits := x.toModel.toBits.toBitVec.isLt
  have hsign : (@unpackSign Format.binary64 x.toModel.toBits.toBitVec).toNat =
      x.toBits.toNat / 2 ^ 63 := by
    simp only [unpackSign, BitVec.toNat_cast, BitVec.extractLsb_toNat,
      Nat.shiftRight_eq_div_pow]
    change x.toBits.toNat / 2 ^ 63 % 2 = _
    change x.toBits.toNat < 2 ^ 64 at hbits
    omega
  rw [Binary.sign, Binary.ofFloat, twoPow_eq, ← hsign]
  rcases BitVec.eq_zero_or_eq_one (@unpackSign Format.binary64 x.toModel.toBits.toBitVec) with
    heq | heq <;> rw [heq] <;> rfl

/-- The parts of a finite double. -/
theorem unpack_eq (hfinite : x.isFinite = true) :
    x.toModel.unpack =
      if hm : (Binary.ofFloat x).significand = 0 then .zero (Binary.ofFloat x).sign
      else .finite (Binary.ofFloat x).sign (Binary.ofFloat x).significand
        (Binary.ofFloat x).exponent (Nat.pos_of_ne_zero hm) := by
  have hmantissa := unpackMantissa_toNat x
  have hexponent := unpackExponent_toNat x
  have hsign := ofBitVec_unpackSign x
  change (UnpackedFloat.unpack Format.binary64 x.toModel.toBits.toBitVec).isFinite = true at hfinite
  change UnpackedFloat.unpack Format.binary64 x.toModel.toBits.toBitVec = _
  unfold UnpackedFloat.unpack at hfinite ⊢
  simp only [exponentBias_eq, hsign] at hfinite ⊢
  split at hfinite
  · split at hfinite <;> cases hfinite
  next hbelow =>
    rw [if_neg hbelow]
    split
    next hleast =>
      have hbiased := hexponent.symm.trans (congrArg BitVec.toNat hleast)
      obtain ⟨hsignificand, hplace⟩ := Binary.ofFloat_of_biased_eq_zero hbiased
      rw [← hmantissa] at hsignificand
      split
      next hzero =>
        have hnone : (Binary.ofFloat x).significand = 0 :=
          hsignificand.trans (congrArg BitVec.toNat hzero)
        rw [dif_pos hnone]
      next hpositive =>
        have hnonzero : (Binary.ofFloat x).significand ≠ 0 := fun hzero =>
          hpositive (BitVec.eq_of_toNat_eq (hsignificand.symm.trans hzero))
        rw [dif_neg hnonzero]
        congr 1
        · exact hsignificand.symm
        · rw [hplace, hleast]
          rfl
    next hnormal =>
      have hbiased := mt (fun hzero => BitVec.eq_of_toNat_eq (hexponent.trans hzero)) hnormal
      obtain ⟨hsignificand, hplace⟩ := Binary.ofFloat_of_biased_ne_zero hbiased
      rw [← hmantissa] at hsignificand
      rw [← hexponent] at hplace
      have hnonzero : (Binary.ofFloat x).significand ≠ 0 := by omega
      rw [dif_neg hnonzero]
      congr 1
      · rw [hsignificand]
        exact toNat_append_one _
      · rw [hplace]
        omega

theorem unpack_eq_finite (hfinite : x.isFinite = true) (hm : 0 < (Binary.ofFloat x).significand) :
    x.toModel.unpack = .finite (Binary.ofFloat x).sign (Binary.ofFloat x).significand
      (Binary.ofFloat x).exponent hm := by
  rw [unpack_eq hfinite, dif_neg hm.ne']

/-- The significand has 53 bits, or fewer at the least place, and the place is that of a finite
double. -/
theorem Binary.bounds (hfinite : x.isFinite = true) (hm : 0 < (ofFloat x).significand) :
    (ofFloat x).significand < 2 ^ 53 ∧ -1074 ≤ (ofFloat x).exponent ∧
      (ofFloat x).exponent ≤ 971 ∧
      (2 ^ 52 ≤ (ofFloat x).significand ∨ (ofFloat x).exponent = -1074) :=
  finite_of_unpack (unpack_eq_finite hfinite hm)

end SocketRanking.Number
