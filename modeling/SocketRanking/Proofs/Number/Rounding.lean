import Mathlib

/-!
# Rounding of doubles

Each operation on doubles rounds an exact result.  Rounding never steps over a number that
a double can hold: `RoundsTo` says that the rounded result lies on the same side of every
such number as the exact one, and every operation of the double arithmetic ends in a
rounding of this kind (`roundWithAccuracy_roundsTo`, `normalize_roundsTo`).  Bounds on exact
results are therefore bounds on rounded ones, with nothing lost, as long as they are numbers
that a double can hold.
-/

namespace SocketRanking.Number

open Float.Model Float.Model.UnpackedFloat

/-! ## Numbers that doubles can hold -/

/-- A significand of 53 bits at a place that is not below the least one; the place may be too
high for a double. -/
def IsRepresentable (c : ℚ) : Prop :=
  ∃ (n : ℕ) (k : ℤ), n < 2 ^ 53 ∧ -1074 ≤ k ∧ c = n * 2 ^ k

theorem isRepresentable_two_zpow {k : ℤ} (hk : -1074 ≤ k) : IsRepresentable (2 ^ k) :=
  ⟨1, k, by norm_num, hk, by rw [Nat.cast_one, one_mul]⟩

/-- The absolute value of a finite double. -/
def magnitude : UnpackedFloat → ℚ
  | .finite _ m e _ => m * 2 ^ e
  | _ => 0

theorem magnitude_nonneg (u : UnpackedFloat) : 0 ≤ magnitude u := by
  cases u with
  | finite s m e hm =>
      change (0 : ℚ) ≤ m * 2 ^ e
      positivity
  | _ => exact le_refl 0

/-- The significand has 53 bits, or the exponent is the least one. -/
def IsCanonical : UnpackedFloat → Prop
  | .finite _ m e _ => m < 2 ^ 53 ∧ -1074 ≤ e ∧ (2 ^ 52 ≤ m ∨ e = -1074)
  | _ => True

/-! ## Rounding to whole numbers -/

/-- What the mantissa and the round bit stand for, a number of halves. -/
def halves (em : ExtendedMantissa) : ℚ :=
  em.mantissa + if em.roundBit then 1 / 2 else 0

/-- A number begins with these halves, and the sticky bit tells whether anything is left. -/
structure Represents (em : ExtendedMantissa) (x : ℚ) : Prop where
  halves_le : halves em ≤ x
  lt_halves : x < halves em + 1 / 2
  sticky_iff : em.stickyBit = true ↔ halves em < x

namespace Represents

variable {em : ExtendedMantissa} {x : ℚ}

theorem le (hem : Represents em x) : em.mantissa ≤ x := by
  refine le_trans ?_ hem.halves_le
  unfold halves
  split <;> norm_num

theorem lt (hem : Represents em x) : x < em.mantissa + 1 := by
  have hlt := hem.lt_halves
  unfold halves at hlt
  split at hlt <;> linarith

theorem half_le (hem : Represents em x) (hround : em.roundBit = true) :
    em.mantissa + 1 / 2 ≤ x := by
  have hle := hem.halves_le
  rwa [halves, if_pos hround] at hle

theorem exact (m : ℕ) : Represents (.ofMantissaAndAccuracy m .exact) m := by
  have hhalves : halves (.ofMantissaAndAccuracy m .exact) = m := add_zero _
  refine ⟨hhalves.le, ?_, iff_of_false Bool.false_ne_true (hhalves ▸ lt_irrefl _)⟩
  rw [hhalves]
  linarith

theorem mantissa_ofMantissaAndAccuracy (m : ℕ) (accuracy : Accuracy) :
    (ExtendedMantissa.ofMantissaAndAccuracy m accuracy).mantissa = m := by
  rcases accuracy with _ | (_ | _ | _) <;> rfl

/-- The whole part of a fraction, with the accuracy that the remainder leaves. -/
theorem ofFraction (num : ℕ) {den : ℕ} (hden : 0 < den) :
    Represents (.ofMantissaAndAccuracy (num / den) (accuracyOfFraction (num % den) den))
      (num / den) := by
  have hpos : (0 : ℚ) < den := Nat.cast_pos.mpr hden
  have hvalue : (num : ℚ) / den = (num / den : ℕ) + (num % den : ℕ) / den := by
    rw [div_eq_iff hpos.ne', add_mul, div_mul_cancel₀ _ hpos.ne']
    exact_mod_cast (Nat.div_add_mod' num den).symm
  have hrest : ((num % den : ℕ) : ℚ) / den < 1 := by
    rw [div_lt_one hpos]
    exact_mod_cast Nat.mod_lt num hden
  rw [hvalue]
  generalize num / den = whole
  generalize num % den = rest at hrest
  unfold accuracyOfFraction
  split
  next hnone =>
    rw [hnone, Nat.cast_zero, zero_div, add_zero]
    exact exact whole
  next hsome =>
    have hsome' : (0 : ℚ) < rest / den :=
      div_pos (Nat.cast_pos.mpr (Nat.pos_of_ne_zero hsome)) hpos
    rcases lt_trichotomy (2 * rest) den with hbelow | hequal | habove
    · have hhalves : halves (.ofMantissaAndAccuracy whole (.inexact .lt)) = whole := add_zero _
      have hlt : (rest : ℚ) / den < 1 / 2 := by
        have hcast : (2 : ℚ) * rest < den := by exact_mod_cast hbelow
        rw [div_lt_iff₀ hpos]
        linarith
      rw [Nat.compare_eq_lt.mpr hbelow]
      refine ⟨?_, ?_, iff_of_true rfl ?_⟩ <;> rw [hhalves] <;> linarith
    · have hhalves : halves (.ofMantissaAndAccuracy whole (.inexact .eq)) = whole + 1 / 2 := rfl
      have heq : (rest : ℚ) / den = 1 / 2 := by
        have hcast : (2 : ℚ) * rest = den := by exact_mod_cast hequal
        rw [div_eq_iff hpos.ne']
        linarith
      rw [Nat.compare_eq_eq.mpr hequal, heq]
      refine ⟨?_, ?_, iff_of_false Bool.false_ne_true ?_⟩ <;> rw [hhalves] <;> linarith
    · have hhalves : halves (.ofMantissaAndAccuracy whole (.inexact .gt)) = whole + 1 / 2 := rfl
      have hgt : 1 / 2 < (rest : ℚ) / den := by
        have hcast : (den : ℚ) < 2 * rest := by exact_mod_cast habove
        rw [lt_div_iff₀ hpos]
        linarith
      rw [Nat.compare_eq_gt.mpr habove]
      refine ⟨?_, ?_, iff_of_true rfl ?_⟩ <;> rw [hhalves] <;> linarith

theorem shiftRightOne (hem : Represents em x) : Represents em.shiftRightOne (x / 2) := by
  -- the last bit of the mantissa becomes the round bit, so the halves are halved exactly
  have hhalves : halves em.shiftRightOne = em.mantissa / 2 := by
    have hsplit : ((em.mantissa % 2 : ℕ) : ℚ) + 2 * (em.mantissa / 2 : ℕ) = em.mantissa := by
      exact_mod_cast Nat.mod_add_div em.mantissa 2
    change ((em.mantissa / 2 : ℕ) : ℚ) + (if (em.mantissa % 2 != 0) = true then 1 / 2 else 0) = _
    rcases Nat.mod_two_eq_zero_or_one em.mantissa with heven | hodd
    · rw [heven] at hsplit ⊢
      norm_num at hsplit ⊢
      linarith
    · rw [hodd] at hsplit ⊢
      norm_num at hsplit ⊢
      linarith
  have hrest : (em.roundBit || em.stickyBit) = true ↔ em.mantissa < x := by
    rw [Bool.or_eq_true, hem.sticky_iff, halves]
    by_cases hround : em.roundBit = true
    · have hhalf := hem.half_le hround
      exact iff_of_true (Or.inl hround) (by linarith)
    · rw [if_neg hround, add_zero, or_iff_right hround]
  refine ⟨?_, ?_, ?_⟩
  · linarith [hem.le]
  · linarith [hem.lt]
  · rw [hhalves, div_lt_div_iff_of_pos_right two_pos]
    exact hrest

theorem shiftRight (hem : Represents em x) (n : ℕ) : Represents (em >>> n) (x / 2 ^ n) := by
  induction n with
  | zero =>
      rw [pow_zero, div_one]
      exact hem
  | succ n ih =>
      rw [pow_succ, ← div_div]
      exact ih.shiftRightOne

/-- Rounding takes the whole part or the next number, the latter only if a half is left. -/
theorem roundedMantissa_cases (hem : Represents em x) :
    em.roundedMantissa = em.mantissa ∨
      em.roundedMantissa = em.mantissa + 1 ∧ em.mantissa + 1 / 2 ≤ x := by
  rcases em with ⟨m, _ | _, _ | _⟩
  · exact Or.inl rfl
  · exact Or.inl rfl
  · change m + m % 2 = m ∨ m + m % 2 = m + 1 ∧ _
    rcases Nat.mod_two_eq_zero_or_one m with heven | hodd
    · exact Or.inl (by rw [heven, Nat.add_zero])
    · exact Or.inr ⟨by rw [hodd], hem.half_le rfl⟩
  · exact Or.inr ⟨rfl, hem.half_le rfl⟩

theorem roundedMantissa_le_of_lt (hem : Represents em x) {n : ℕ} (hx : x < n + 1 / 2) :
    em.roundedMantissa ≤ n := by
  rcases hem.roundedMantissa_cases with hdown | ⟨hup, hhalf⟩
  · rw [hdown, ← Nat.lt_add_one_iff]
    have hlt : (em.mantissa : ℚ) < n + 1 := by linarith [hem.le]
    exact_mod_cast hlt
  · rw [hup, Nat.add_one_le_iff]
    have hlt : (em.mantissa : ℚ) < n := by linarith
    exact_mod_cast hlt

theorem roundedMantissa_le (hem : Represents em x) {n : ℕ} (hx : x ≤ n) :
    em.roundedMantissa ≤ n :=
  hem.roundedMantissa_le_of_lt (by linarith)

theorem le_roundedMantissa (hem : Represents em x) {n : ℕ} (hx : n ≤ x) :
    n ≤ em.roundedMantissa := by
  have hn : n ≤ em.mantissa := by
    have hlt : (n : ℚ) < em.mantissa + 1 := hx.trans_lt hem.lt
    exact Nat.lt_add_one_iff.mp (by exact_mod_cast hlt)
  rcases hem.roundedMantissa_cases with hdown | ⟨hup, -⟩
  · exact hdown ▸ hn
  · exact hup ▸ hn.trans (Nat.le_succ _)

end Represents

/-! ## Rounding to a double -/

/-- The double is finite and has this sign. -/
def HasSign (s : Sign) (u : UnpackedFloat) : Prop :=
  u = .zero s ∨ ∃ m e hm, u = .finite s m e hm

theorem isFinite_iff {u : UnpackedFloat} : u.isFinite = true ↔ ∃ s, HasSign s u := by
  constructor
  · intro hu
    cases u with
    | zero s => exact ⟨s, Or.inl rfl⟩
    | finite s m e hm => exact ⟨s, Or.inr ⟨m, e, hm, rfl⟩⟩
    | infinity s => cases hu
    | notANumber => cases hu
  · rintro ⟨s, rfl | ⟨m, e, hm, rfl⟩⟩
    · rfl
    · rfl

/-- The double has this sign, is finite, and stands where rounding puts the exact value.  What
exceeds a power of two by less than half the distance to the next double is rounded to it. -/
structure RoundsTo (s : Sign) (v : ℚ) (u : UnpackedFloat) : Prop where
  hasSign : HasSign s u
  canonical : IsCanonical u
  magnitude_le : ∀ c, IsRepresentable c → v ≤ c → magnitude u ≤ c
  le_magnitude : ∀ c, IsRepresentable c → c ≤ v → c ≤ magnitude u
  magnitude_le_two_pow : ∀ k : ℕ, v < 2 ^ k + 2 ^ k / 2 ^ 53 → magnitude u ≤ 2 ^ k

theorem targetExponent_eq_max (k : ℤ) :
    Format.binary64.targetExponent k = max (k - 53) (-1074) :=
  rfl

theorem targetExponent_eq (m : ℕ) (e : ℤ) :
    Format.binary64.targetExponent (totalExponent m e) = max (m.log2 + e - 52) (-1074) := by
  rw [targetExponent_eq_max, totalExponent]
  congr 1
  omega

theorem shiftToTargetExponent_of_le {m : ℕ} {e : ℤ} {accuracy : Accuracy} {t : ℤ}
    (ht : Format.binary64.targetExponent (totalExponent m e) = t) (het : e ≤ t) :
    shiftToTargetExponent Format.binary64 m e accuracy =
      (ExtendedMantissa.ofMantissaAndAccuracy m accuracy >>> (t - e).toNat, t) := by
  simp only [shiftToTargetExponent, shiftToExponent, ht]
  congr 1
  omega

/-- A significand that is not too long stays as it is. -/
theorem shiftToTargetExponent_of_lt {m : ℕ} {t : ℤ} (hm : m < 2 ^ 53) (ht : -1074 ≤ t) :
    shiftToTargetExponent Format.binary64 m t .exact = (⟨m, false, false⟩, t) := by
  have hlog : m.log2 ≤ 52 := by
    by_cases hzero : m = 0
    · rw [hzero]
      decide
    · exact Nat.lt_succ_iff.mp ((Nat.log2_lt hzero).mpr hm)
  have htarget : Format.binary64.targetExponent (totalExponent m t) ≤ t := by
    rw [targetExponent_eq]
    omega
  have hshift : (Format.binary64.targetExponent (totalExponent m t) - t).toNat = 0 := by omega
  simp only [shiftToTargetExponent, shiftToExponent, hshift]
  exact Prod.ext rfl (by simp)

/-- A significand that has become too long loses a zero. -/
theorem shiftToTargetExponent_two_pow {t : ℤ} (ht : -1074 ≤ t) :
    shiftToTargetExponent Format.binary64 (2 ^ 53) t .exact =
      (⟨2 ^ 52, false, false⟩, t + 1) := by
  have htarget : Format.binary64.targetExponent (totalExponent (2 ^ 53) t) = t + 1 := by
    rw [targetExponent_eq, Nat.log2_two_pow]
    omega
  rw [shiftToTargetExponent_of_le htarget (by omega)]
  have hshift : (t + 1 - t).toNat = 1 := by omega
  rw [hshift]
  rfl

theorem two_zpow_pos (e : ℤ) : (0 : ℚ) < 2 ^ e :=
  zpow_pos two_pos e

theorem two_zpow_eq {e t : ℤ} (het : e ≤ t) : (2 : ℚ) ^ t = 2 ^ (t - e).toNat * 2 ^ e := by
  have hsplit : t = ((t - e).toNat : ℤ) + e := by omega
  rw [← zpow_natCast, ← zpow_add₀ two_ne_zero, ← hsplit]

/-- Moving the place changes nothing. -/
theorem div_two_pow_mul {x : ℚ} {e t : ℤ} (het : e ≤ t) :
    x / 2 ^ (t - e).toNat * 2 ^ t = x * 2 ^ e := by
  rw [two_zpow_eq het]
  field_simp

/-- At the place of rounding the significand has 53 bits, or fewer at the least place. -/
theorem significand_bounds {m : ℕ} {e t : ℤ} {accuracy : Accuracy} {x : ℚ}
    (hx : Represents (.ofMantissaAndAccuracy m accuracy) x)
    (ht : Format.binary64.targetExponent (totalExponent m e) = t) (het : e ≤ t) :
    x / 2 ^ (t - e).toNat < 2 ^ 53 ∧ (2 ^ 52 ≤ x / 2 ^ (t - e).toNat ∨ t = -1074) := by
  rw [targetExponent_eq] at ht
  have hle : (m : ℚ) ≤ x := Represents.mantissa_ofMantissaAndAccuracy m accuracy ▸ hx.le
  have hlt : x < m + 1 := Represents.mantissa_ofMantissaAndAccuracy m accuracy ▸ hx.lt
  generalize hk : (t - e).toNat = k
  have hpos : (0 : ℚ) < 2 ^ k := by positivity
  constructor
  · have hm : m + 1 ≤ 2 ^ (53 + k) :=
      (Nat.lt_log2_self (n := m)).trans_le (Nat.pow_le_pow_right two_pos (by omega))
    have hm' : (m : ℚ) + 1 ≤ 2 ^ (53 + k) := by exact_mod_cast hm
    rw [div_lt_iff₀ hpos, ← pow_add]
    exact hlt.trans_le hm'
  · by_cases hleast : t = -1074
    · exact Or.inr hleast
    · have hzero : m ≠ 0 := by
        rintro rfl
        have hlog : Nat.log2 0 = 0 := by decide
        omega
      have hm : 2 ^ (52 + k) ≤ m :=
        (Nat.pow_le_pow_right two_pos (by omega)).trans (Nat.log2_self_le hzero)
      have hm' : (2 : ℚ) ^ (52 + k) ≤ m := by exact_mod_cast hm
      rw [le_div_iff₀ hpos, ← pow_add]
      exact Or.inl (hm'.trans hle)

/-- A number that a double can hold is a multiple of a power of two, or lies below the numbers
of 53 bits at that place. -/
theorem IsRepresentable.multiple_or_lt {c : ℚ} (hc : IsRepresentable c) (t : ℤ) :
    (∃ n : ℕ, c = n * 2 ^ t) ∨ t ≠ -1074 ∧ c < 2 ^ 52 * 2 ^ t := by
  obtain ⟨n, k, hn, hk, rfl⟩ := hc
  rcases le_or_gt t k with htk | hkt
  · refine Or.inl ⟨n * 2 ^ (k - t).toNat, ?_⟩
    rw [two_zpow_eq htk]
    push_cast
    ring
  · refine Or.inr ⟨by omega, ?_⟩
    have hn' : (n : ℚ) < 2 ^ 53 := by exact_mod_cast hn
    have hstep : (2 : ℚ) ^ (k + 1) ≤ 2 ^ t := zpow_le_zpow_right₀ one_le_two hkt
    rw [zpow_add_one₀ two_ne_zero] at hstep
    have hpos := two_zpow_pos k
    nlinarith

/-- A significand that exceeds a power of two, but by little, exceeds a whole number by less than
a half. -/
theorem exists_lt_add_half {y : ℚ} {t : ℤ} {k : ℕ} (hshort : y < 2 ^ 53)
    (hlong : 2 ^ 52 ≤ y ∨ t = -1074) (hlt : 2 ^ k < y * 2 ^ t)
    (hv : y * 2 ^ t < 2 ^ k + 2 ^ k / 2 ^ 53) :
    ∃ n : ℕ, (2 : ℚ) ^ k = n * 2 ^ t ∧ y < n + 1 / 2 := by
  have hpos := two_zpow_pos t
  -- above the power of two a significand of 53 bits would exceed it by far
  have hplace : t ≤ k := by
    by_contra hkt
    have hlong' : (2 : ℚ) ^ 52 ≤ y := hlong.resolve_right (by omega)
    have hstep : (2 : ℚ) ^ (k : ℤ) ≤ 2 ^ t := zpow_le_zpow_right₀ one_le_two (by omega)
    rw [zpow_natCast] at hstep
    have hlarge : (2 : ℚ) ^ 52 * 2 ^ t ≤ y * 2 ^ t := mul_le_mul_of_nonneg_right hlong' hpos.le
    linarith
  -- and far below it, the significand would have more than 53 bits
  have hnear : (2 : ℚ) ^ k ≤ 2 ^ 52 * 2 ^ t := by
    have hbelow : (2 : ℚ) ^ k < 2 ^ ((53 : ℕ) + t) := by
      rw [zpow_add₀ two_ne_zero, zpow_natCast]
      exact hlt.trans (mul_lt_mul_of_pos_right hshort hpos)
    rw [← zpow_natCast, zpow_lt_zpow_iff_right₀ one_lt_two] at hbelow
    rw [← zpow_natCast, ← zpow_natCast, ← zpow_add₀ two_ne_zero]
    exact zpow_le_zpow_right₀ one_le_two (by omega)
  have hwhole : (2 : ℚ) ^ k = (2 ^ (k - t).toNat : ℕ) * 2 ^ t := by
    rw [← zpow_natCast, two_zpow_eq hplace]
    push_cast
    rfl
  refine ⟨2 ^ (k - t).toNat, hwhole, ?_⟩
  refine lt_of_mul_lt_mul_right ?_ hpos.le
  linarith

theorem IsCanonical.magnitude_le_two_pow {u : UnpackedFloat} (hu : IsCanonical u) {k : ℕ}
    (hlt : magnitude u < 2 ^ k + 2 ^ k / 2 ^ 53) : magnitude u ≤ 2 ^ k := by
  cases u with
  | finite s m e hm =>
      obtain ⟨hshort, -, hlong⟩ := hu
      by_contra habove
      obtain ⟨n, hn, hhalf⟩ := exists_lt_add_half (by exact_mod_cast hshort)
        (hlong.imp_left fun hle => by exact_mod_cast hle) (not_le.mp habove) hlt
      have hmn : m ≤ n := by
        have hlt' : (m : ℚ) < n + 1 := by linarith
        exact Nat.lt_add_one_iff.mp (by exact_mod_cast hlt')
      rw [hn] at habove
      exact habove (mul_le_mul_of_nonneg_right (by exact_mod_cast hmn) (two_zpow_pos e).le)
  | _ => exact pow_nonneg zero_le_two k

/-- The last step of a rounding brings the significand into its canonical form. -/
theorem canonical_of_significand (s : Sign) {r : ℕ} {t : ℤ} (hr : r ≤ 2 ^ 53)
    (hlong : 2 ^ 52 ≤ r ∨ t = -1074) (ht : -1074 ≤ t) :
    let shifted := shiftToTargetExponent Format.binary64 r t .exact
    let u : UnpackedFloat :=
      if hzero : shifted.1.mantissa = 0 then .zero s
      else .finite s shifted.1.mantissa shifted.2 (Nat.pos_of_ne_zero hzero)
    HasSign s u ∧ IsCanonical u ∧ magnitude u = r * 2 ^ t := by
  rcases hr.lt_or_eq with hshort | rfl
  · rw [shiftToTargetExponent_of_lt hshort ht]
    dsimp only
    split
    next hzero => exact ⟨Or.inl rfl, trivial, by simp [magnitude, hzero]⟩
    next hzero =>
      exact ⟨Or.inr ⟨r, t, Nat.pos_of_ne_zero hzero, rfl⟩, ⟨hshort, ht, hlong⟩, rfl⟩
  · rw [shiftToTargetExponent_two_pow ht]
    dsimp only
    rw [dif_neg (by norm_num)]
    refine ⟨Or.inr ⟨_, _, _, rfl⟩, ⟨by norm_num, by omega, Or.inl (le_refl _)⟩, ?_⟩
    change ((2 ^ 52 : ℕ) : ℚ) * 2 ^ (t + 1) = ((2 ^ 53 : ℕ) : ℚ) * 2 ^ t
    rw [zpow_add_one₀ two_ne_zero]
    norm_num
    ring

/-- Rounding never steps over a number that a double can hold. -/
theorem roundWithAccuracy_roundsTo (s : Sign) {m : ℕ} {e : ℤ} {accuracy : Accuracy} {x : ℚ}
    (hx : Represents (.ofMantissaAndAccuracy m accuracy) x)
    (he : e ≤ Format.binary64.targetExponent (totalExponent m e)) :
    RoundsTo s (x * 2 ^ e) (roundWithAccuracy Format.binary64 s m e accuracy) := by
  generalize ht : Format.binary64.targetExponent (totalExponent m e) = t at he
  have hleast : -1074 ≤ t := by
    rw [← ht, targetExponent_eq]
    exact le_max_right _ _
  obtain ⟨hshort, hlong⟩ := significand_bounds hx ht he
  have hy := hx.shiftRight (t - e).toNat
  have hvalue : x / 2 ^ (t - e).toNat * 2 ^ t = x * 2 ^ e := div_two_pow_mul he
  generalize x / 2 ^ (t - e).toNat = y at hshort hlong hy hvalue
  unfold roundWithAccuracy
  rw [shiftToTargetExponent_of_le ht he]
  generalize ExtendedMantissa.ofMantissaAndAccuracy m accuracy >>> (t - e).toNat = em at hy
  have hr : em.roundedMantissa ≤ 2 ^ 53 := hy.roundedMantissa_le (by exact_mod_cast hshort.le)
  have hr' : 2 ^ 52 ≤ em.roundedMantissa ∨ t = -1074 :=
    hlong.imp_left fun hle => hy.le_roundedMantissa (by exact_mod_cast hle)
  obtain ⟨hsign, hcanonical, hmagnitude⟩ := canonical_of_significand s hr hr' hleast
  rw [← hvalue]
  have hupper : ∀ c, IsRepresentable c → y * 2 ^ t ≤ c → em.roundedMantissa * 2 ^ t ≤ c := by
    intro c hc hyc
    rcases hc.multiple_or_lt t with ⟨n, rfl⟩ | ⟨hplace, hsmall⟩
    · have hyn := le_of_mul_le_mul_right hyc (two_zpow_pos t)
      exact mul_le_mul_of_nonneg_right (by exact_mod_cast hy.roundedMantissa_le hyn)
        (two_zpow_pos t).le
    · have hsmall' := lt_of_mul_lt_mul_right (hyc.trans_lt hsmall) (two_zpow_pos t).le
      exact absurd (hlong.resolve_right hplace) (not_le.mpr hsmall')
  refine ⟨hsign, hcanonical, fun c hc hyc => hmagnitude.trans_le (hupper c hc hyc), ?_, ?_⟩
  · intro c hc hcv
    refine le_trans ?_ hmagnitude.ge
    rcases hc.multiple_or_lt t with ⟨n, rfl⟩ | ⟨hplace, hsmall⟩
    · have hny := le_of_mul_le_mul_right hcv (two_zpow_pos t)
      exact mul_le_mul_of_nonneg_right (by exact_mod_cast hy.le_roundedMantissa hny)
        (two_zpow_pos t).le
    · have hlarge : (2 : ℚ) ^ 52 ≤ em.roundedMantissa := by
        exact_mod_cast hr'.resolve_right hplace
      exact hsmall.le.trans (mul_le_mul_of_nonneg_right hlarge (two_zpow_pos t).le)
  · intro k hv
    refine hmagnitude.trans_le ?_
    rcases le_or_gt (y * 2 ^ t) (2 ^ k) with hbelow | habove
    · refine hupper (2 ^ k) ?_ hbelow
      rw [← zpow_natCast]
      exact isRepresentable_two_zpow (by omega)
    · obtain ⟨n, hn, hhalf⟩ := exists_lt_add_half hshort hlong habove hv
      rw [hn]
      exact mul_le_mul_of_nonneg_right (by exact_mod_cast hy.roundedMantissa_le_of_lt hhalf)
        (two_zpow_pos t).le

/-- The double comes from rounding this value to the places of a double. -/
def IsRounding (s : Sign) (v : ℚ) (u : UnpackedFloat) : Prop :=
  ∃ (m : ℕ) (e : ℤ) (accuracy : Accuracy) (x : ℚ),
    Represents (.ofMantissaAndAccuracy m accuracy) x ∧
      e ≤ Format.binary64.targetExponent (totalExponent m e) ∧ x * 2 ^ e = v ∧
      roundWithAccuracy Format.binary64 s m e accuracy = u

theorem IsRounding.roundsTo {s : Sign} {v : ℚ} {u : UnpackedFloat} (hu : IsRounding s v u) :
    RoundsTo s v u := by
  obtain ⟨m, e, accuracy, x, hx, he, rfl, rfl⟩ := hu
  exact roundWithAccuracy_roundsTo s hx he

theorem log2_shiftLeft {m : ℕ} (hm : m ≠ 0) (k : ℕ) : (m <<< k).log2 = m.log2 + k := by
  induction k with
  | zero => rfl
  | succ k ih =>
      have hshifted : m <<< k ≠ 0 := by
        rw [Nat.shiftLeft_eq]
        positivity
      rw [Nat.shiftLeft_succ, Nat.log2_two_mul hshifted, ih, Nat.add_assoc]

theorem decreaseExponent_of_le {m : ℕ} {e t : ℤ} (hte : t ≤ e) :
    decreaseExponent m e t = (m <<< (e - t).toNat, t) := by
  refine Prod.ext rfl ?_
  change e - ((e - t).toNat : ℤ) = t
  omega

theorem shiftLeft_mul {m : ℕ} {e t : ℤ} (hte : t ≤ e) :
    ((m <<< (e - t).toNat : ℕ) : ℚ) * 2 ^ t = m * 2 ^ e := by
  rw [Nat.shiftLeft_eq, two_zpow_eq hte]
  push_cast
  ring

theorem round_roundsTo (s : Sign) {m : ℕ} (hm : m ≠ 0) (e : ℤ) :
    RoundsTo s (m * 2 ^ e) (UnpackedFloat.round Format.binary64 s m e) := by
  unfold UnpackedFloat.round
  generalize ht : Format.binary64.targetExponent (totalExponent m e) = t
  rw [targetExponent_eq] at ht
  dsimp only
  rcases le_or_gt t e with hte | het
  · rw [decreaseExponent_of_le hte, ← shiftLeft_mul hte]
    refine roundWithAccuracy_roundsTo s (.exact _) ?_
    rw [targetExponent_eq, log2_shiftLeft hm]
    omega
  · have hshift : (e - t).toNat = 0 := by omega
    have hsame : decreaseExponent m e t = (m, e) := by
      simp [decreaseExponent, hshift]
    have htarget : e ≤ Format.binary64.targetExponent (totalExponent m e) := by
      rw [targetExponent_eq]
      omega
    rw [hsame]
    exact roundWithAccuracy_roundsTo s (.exact m) htarget

/-- A finite double in canonical form is rounded already. -/
theorem IsCanonical.roundsTo {u : UnpackedFloat} (hu : IsCanonical u) {s : Sign}
    (hsign : HasSign s u) : RoundsTo s (magnitude u) u :=
  ⟨hsign, hu, fun _ _ hc => hc, fun _ _ hc => hc, fun _ => hu.magnitude_le_two_pow⟩

theorem zero_roundsTo (s : Sign) : RoundsTo s 0 (.zero s) :=
  IsCanonical.roundsTo (u := .zero s) trivial (Or.inl rfl)

theorem normalize_roundsTo_of_pos {n : ℕ} (hn : 0 < n) (e : ℤ) (zeroSign : Sign) :
    RoundsTo .positive (n * 2 ^ e) (UnpackedFloat.normalize Format.binary64 n e zeroSign) := by
  unfold UnpackedFloat.normalize
  rw [Int.compare_eq_gt.mpr (Nat.cast_pos.mpr hn)]
  exact round_roundsTo .positive hn.ne' e

theorem normalize_roundsTo (n : ℤ) (e : ℤ) (zeroSign : Sign) :
    ∃ s, RoundsTo s (n.natAbs * 2 ^ e) (UnpackedFloat.normalize Format.binary64 n e zeroSign) := by
  rcases lt_trichotomy n 0 with hneg | rfl | hpos
  · have hcast : (-n).toNat = n.natAbs := by omega
    unfold UnpackedFloat.normalize
    rw [Int.compare_eq_lt.mpr hneg]
    dsimp only
    rw [hcast]
    exact ⟨_, round_roundsTo .negative (by omega) e⟩
  · refine ⟨zeroSign, ?_⟩
    rw [Int.natAbs_zero, Nat.cast_zero, zero_mul]
    exact zero_roundsTo zeroSign
  · obtain ⟨k, rfl⟩ := Int.eq_ofNat_of_zero_le hpos.le
    exact ⟨_, normalize_roundsTo_of_pos (Nat.cast_pos.mp hpos) e zeroSign⟩

/-! ## Bit patterns -/

theorem toNat_append_one (b : BitVec 52) : (1#1 ++ b).toNat = 2 ^ 52 + b.toNat := by
  rw [BitVec.toNat_append, ← Nat.shiftLeft_add_eq_or_of_lt b.isLt]
  rfl

theorem exponentBias_eq : Format.binary64.exponentBias = 1023 :=
  rfl

/-- What the fields of a bit pattern stand for. -/
theorem unpack_packComponents (s : Sign) {e : BitVec 11} (m : BitVec 52) (he : e ≠ -1#11) :
    UnpackedFloat.unpack Format.binary64 (packComponents Format.binary64 s e m) =
      if e = 0#11 then
        if hm : m = 0#52 then .zero s
        else .finite s m.toNat (-1074) (by simpa [BitVec.toNat_pos, BitVec.pos_iff_ne_zero])
      else .finite s (2 ^ 52 + m.toNat) ((e.toNat : ℤ) - 1075) (by omega) := by
  unfold UnpackedFloat.unpack
  simp only [unpackMantissa_packComponents, unpackExponent_packComponents,
    unpackSign_packComponents, Sign.ofBitVec_toBitVec, exponentBias_eq, he, if_false]
  split
  next hzero =>
    subst hzero
    split
    · rfl
    · rfl
  next hnormal =>
    congr 1
    exact toNat_append_one m

theorem finite_of_unpack {b : BitVec 64} {s : Sign} {m : ℕ} {e : ℤ} {hm : 0 < m}
    (hb : UnpackedFloat.unpack Format.binary64 b = .finite s m e hm) :
    m < 2 ^ 53 ∧ -1074 ≤ e ∧ e ≤ 971 ∧ (2 ^ 52 ≤ m ∨ e = -1074) := by
  unfold UnpackedFloat.unpack at hb
  have hmantissa : (@unpackMantissa Format.binary64 b).toNat < 2 ^ 52 := BitVec.isLt _
  have hexponent : (@unpackExponent Format.binary64 b).toNat < 2 ^ 11 := BitVec.isLt _
  simp only [exponentBias_eq] at hb
  split at hb
  · split at hb <;> cases hb
  next hbelow =>
    split at hb
    next hzero =>
      split at hb
      · cases hb
      · cases hb
        rw [hzero]
        refine ⟨by omega, ?_, ?_, Or.inr ?_⟩
        all_goals decide
    next hnormal =>
      cases hb
      have hmax : (@unpackExponent Format.binary64 b).toNat ≠ 2047 := fun heq =>
        hbelow (BitVec.eq_of_toNat_eq heq)
      have hmin : (@unpackExponent Format.binary64 b).toNat ≠ 0 := fun heq =>
        hnormal (BitVec.eq_of_toNat_eq heq)
      rw [toNat_append_one]
      change _ ∧ -1074 ≤ ((@unpackExponent Format.binary64 b).toNat : ℤ) - 1075 ∧
        ((@unpackExponent Format.binary64 b).toNat : ℤ) - 1075 ≤ 971 ∧ _
      exact ⟨by omega, by omega, by omega, Or.inl (by omega)⟩

theorem isCanonical_unpack (x : Float.Model) : IsCanonical x.unpack := by
  cases hx : x.unpack with
  | finite s m e hm =>
      obtain ⟨hshort, hleast, -, hlong⟩ := finite_of_unpack hx
      exact ⟨hshort, hleast, hlong⟩
  | _ => trivial

theorem biased_eq (e : ℤ) :
    (e + (Format.binary64.exponentBias : ℤ) + ((52 : ℕ) : ℤ)).toNat = (e + 1075).toNat := by
  rw [exponentBias_eq]
  omega

/-- A canonical double that is not too large survives in its bit pattern. -/
theorem unpack_pack_finite {s : Sign} {m : ℕ} {e : ℤ} {hm : 0 < m}
    (hcanonical : IsCanonical (.finite s m e hm)) (he : e ≤ 971) :
    (Float.Model.pack (.finite s m e hm)).unpack = .finite s m e hm := by
  obtain ⟨hshort, hleast, hlong⟩ := hcanonical
  change UnpackedFloat.unpack Format.binary64
    (UnpackedFloat.pack Format.binary64 (.finite s m e hm)) = _
  rw [UnpackedFloat.pack]
  simp only [biased_eq]
  rw [if_neg (by omega)]
  by_cases hnormal : 2 ^ 52 ≤ m
  · have hlog : m.log2 + 1 = Format.binary64.mantissaBits := by
      rw [(Nat.log2_eq_iff (by omega)).mpr ⟨hnormal, hshort⟩]
      rfl
    have hexponent : (BitVec.ofNat 11 (e + 1075).toNat).toNat = (e + 1075).toNat := by
      rw [BitVec.toNat_ofNat, Nat.mod_eq_of_lt (by omega)]
    have hzero : BitVec.ofNat 11 (e + 1075).toNat ≠ 0#11 := by
      intro heq
      rw [heq] at hexponent
      change 0 = _ at hexponent
      omega
    have hall : BitVec.ofNat 11 (e + 1075).toNat ≠ -1#11 := by
      intro heq
      rw [heq] at hexponent
      change 2047 = _ at hexponent
      omega
    rw [if_pos hlog, unpack_packComponents s _ hall, if_neg hzero]
    congr 1
    · rw [BitVec.toNat_ofNat]
      omega
    · rw [hexponent]
      omega
  · have hlog : m.log2 + 1 ≠ Format.binary64.mantissaBits := by
      have hlt : m.log2 < 52 := (Nat.log2_lt (by omega)).mpr (by omega)
      change m.log2 + 1 ≠ 53
      omega
    have hmantissa : (BitVec.ofNat 52 m).toNat = m := by
      rw [BitVec.toNat_ofNat, Nat.mod_eq_of_lt (by omega)]
    have hzero : BitVec.ofNat 52 m ≠ 0#52 := by
      intro heq
      rw [heq] at hmantissa
      exact hm.ne hmantissa
    rw [if_neg hlog, unpack_packComponents s _ (by decide), if_pos rfl, dif_neg hzero]
    congr 1
    exact (hlong.resolve_left hnormal).symm

/-- A double that is too large becomes an infinity. -/
theorem unpack_pack_of_lt {s : Sign} {m : ℕ} {e : ℤ} {hm : 0 < m} (he : 971 < e) :
    (Float.Model.pack (.finite s m e hm)).unpack = .infinity s := by
  change UnpackedFloat.unpack Format.binary64
    (UnpackedFloat.pack Format.binary64 (.finite s m e hm)) = _
  rw [UnpackedFloat.pack]
  simp only [biased_eq]
  rw [if_pos (by omega)]
  cases s <;> rfl

theorem unpack_pack_zero (s : Sign) : (Float.Model.pack (.zero s)).unpack = .zero s := by
  cases s <;> rfl

theorem exponent_le_of_magnitude_lt {s : Sign} {m : ℕ} {e : ℤ} {hm : 0 < m}
    (hcanonical : IsCanonical (.finite s m e hm))
    (hlt : magnitude (.finite s m e hm) < 2 ^ 1024) : e ≤ 971 := by
  by_contra hlarge
  have hlong : 2 ^ 52 ≤ m := hcanonical.2.2.resolve_right (by omega)
  have hlong' : (2 : ℚ) ^ 52 ≤ m := by exact_mod_cast hlong
  have hplace : (2 : ℚ) ^ (972 : ℤ) ≤ 2 ^ e := zpow_le_zpow_right₀ one_le_two (by omega)
  have hproduct : (2 : ℚ) ^ 52 * 2 ^ (972 : ℤ) ≤ m * 2 ^ e :=
    mul_le_mul hlong' hplace (two_zpow_pos _).le (Nat.cast_nonneg m)
  have htop : (2 : ℚ) ^ 52 * 2 ^ (972 : ℤ) = 2 ^ 1024 := by
    rw [show (972 : ℤ) = ((972 : ℕ) : ℤ) from rfl, zpow_natCast, ← pow_add]
  exact absurd hlt (not_lt.mpr (htop ▸ hproduct))

/-- A result that is not too large is not changed by packing it. -/
theorem RoundsTo.unpack_pack {s : Sign} {v : ℚ} {u : UnpackedFloat} (hu : RoundsTo s v u)
    (hlt : magnitude u < 2 ^ 1024) : (Float.Model.pack u).unpack = u := by
  rcases hu.hasSign with rfl | ⟨m, e, hm, rfl⟩
  · exact unpack_pack_zero s
  · exact unpack_pack_finite hu.canonical (exponent_le_of_magnitude_lt hu.canonical hlt)

end SocketRanking.Number
