import SocketRanking.Proofs.Number.Magnitude

/-!
# What rounds to a double

Around every double lies an interval of numbers that round to it.  It reaches half a step
to either side, but only a quarter of a step below a power of two, where the steps become
smaller; its ends belong to it if the significand is even (`IsNear`).  Whatever is rounded
in this interval becomes the double (`IsRounding.eq_of_isNear`).
-/

namespace SocketRanking.Number

open Float.Model Float.Model.UnpackedFloat

/-! ## The nearest whole number -/

/-- A whole number next to another number; an odd one is not chosen at a tie. -/
structure IsNearest (n : ℕ) (y : ℚ) : Prop where
  sub_le : n - 1 / 2 ≤ y
  le_add : y ≤ n + 1 / 2
  strict : n % 2 = 1 → n - 1 / 2 < y ∧ y < n + 1 / 2

/-- Rounding goes up from a half on, but from the half itself only to an even number. -/
theorem Represents.roundedMantissa_eq {em : ExtendedMantissa} {y : ℚ} (hem : Represents em y)
    {n : ℕ} (hn : IsNearest n y) : em.roundedMantissa = n := by
  obtain ⟨m, round, sticky⟩ := em
  obtain ⟨hle, hlt, hsticky⟩ := hem
  obtain ⟨hbelow, habove, hstrict⟩ := hn
  cases round with
  | false =>
      have hhalves : halves ⟨m, false, sticky⟩ = m := add_zero _
      rw [hhalves] at hle hlt
      have hmn : m = n := by
        have hlow : (m : ℚ) < n + 1 := by linarith
        have hhigh : (n : ℚ) < m + 1 := by linarith
        exact le_antisymm (Nat.lt_add_one_iff.mp (by exact_mod_cast hlow))
          (Nat.lt_add_one_iff.mp (by exact_mod_cast hhigh))
      cases sticky <;> exact hmn
  | true =>
      have hhalves : halves ⟨m, true, sticky⟩ = m + 1 / 2 := rfl
      rw [hhalves] at hle hlt hsticky
      have hmn : n = m ∨ n = m + 1 := by
        have hlow : (n : ℚ) < m + 2 := by linarith
        have hhigh : (m : ℚ) ≤ n := by linarith
        have hlow' : n < m + 2 := by exact_mod_cast hlow
        have hhigh' : m ≤ n := by exact_mod_cast hhigh
        omega
      cases sticky with
      | false =>
          -- nothing is left beside the half, so that this is a tie
          have htie : y = m + 1 / 2 := le_antisymm (not_lt.mp fun h => by cases hsticky.mpr h) hle
          change m + m % 2 = n
          rcases hmn with rfl | rfl
          · have heven : n % 2 ≠ 1 := fun hodd => absurd (hstrict hodd).2 (by linarith)
            omega
          · have heven : (m + 1) % 2 ≠ 1 := by
              intro hodd
              have hlow := (hstrict hodd).1
              push_cast at hlow
              linarith
            omega
      | true =>
          have hover : (m : ℚ) + 1 / 2 < y := hsticky.mp rfl
          change m + 1 = n
          rcases hmn with rfl | rfl
          · linarith
          · rfl

/-! ## The interval of a double -/

/-- How far the interval of a double reaches down, in steps. -/
def reachBelow (m : ℕ) (e : ℤ) : ℚ :=
  if m = 2 ^ 52 ∧ -1074 < e then 1 / 4 else 1 / 2

theorem reachBelow_le (m : ℕ) (e : ℤ) : reachBelow m e ≤ 1 / 2 := by
  unfold reachBelow
  split <;> norm_num

/-- A number in the interval of a double. -/
structure IsNear (m : ℕ) (e : ℤ) (v : ℚ) : Prop where
  low_le : (m - reachBelow m e) * 2 ^ e ≤ v
  le_high : v ≤ (m + 1 / 2) * 2 ^ e
  strict : m % 2 = 1 → (m - reachBelow m e) * 2 ^ e < v ∧ v < (m + 1 / 2) * 2 ^ e

variable {m : ℕ} {e t : ℤ} {y : ℚ}

/-- A number in the interval of a double has its place; only below a power of two the place
may be the next smaller one. -/
theorem IsNear.place_cases (hnear : IsNear m e (y * 2 ^ t)) (hm : m < 2 ^ 53)
    (he : -1074 ≤ e) (hlong : 2 ^ 52 ≤ m ∨ e = -1074) (hy : y < 2 ^ 53) (ht : -1074 ≤ t)
    (hylong : 2 ^ 52 ≤ y ∨ t = -1074) : t = e ∨ t = e - 1 ∧ m = 2 ^ 52 := by
  have hpos := two_zpow_pos e
  have hpos' := two_zpow_pos t
  rcases lt_trichotomy t e with hbelow | hequal | habove
  · have hm' : 2 ^ 52 ≤ m := hlong.resolve_right (by omega)
    have hlow := hnear.low_le
    have hreach := reachBelow_le m e
    have hv : y * 2 ^ t < 2 ^ 53 * 2 ^ t := mul_lt_mul_of_pos_right hy hpos'
    have hstep : (2 : ℚ) ^ t * 2 ≤ 2 ^ e := by
      rw [← zpow_add_one₀ two_ne_zero]
      exact zpow_le_zpow_right₀ one_le_two hbelow
    have hpower : m = 2 ^ 52 := by
      by_contra hne
      have hlarge : (2 : ℚ) ^ 52 + 1 ≤ m := by
        have hlarge' : 2 ^ 52 + 1 ≤ m := by omega
        exact_mod_cast hlarge'
      nlinarith
    refine Or.inr ⟨?_, hpower⟩
    by_contra hne
    have hstep' : (2 : ℚ) ^ t * 4 ≤ 2 ^ e := by
      have hsum : (2 : ℚ) ^ t * 4 = 2 ^ (t + 2) := by
        rw [zpow_add₀ two_ne_zero]
        norm_num
      rw [hsum]
      exact zpow_le_zpow_right₀ one_le_two (by omega)
    have hm'' : (2 : ℚ) ^ 52 ≤ m := by exact_mod_cast hm'
    nlinarith
  · exact Or.inl hequal
  · have hy' : 2 ^ 52 ≤ y := hylong.resolve_right (by omega)
    have hhigh := hnear.le_high
    have hm' : (m : ℚ) ≤ 2 ^ 53 - 1 := by
      have hshort : (m : ℚ) + 1 ≤ 2 ^ 53 := by exact_mod_cast hm
      linarith
    have hstep : (2 : ℚ) ^ e * 2 ≤ 2 ^ t := by
      rw [← zpow_add_one₀ two_ne_zero]
      exact zpow_le_zpow_right₀ one_le_two habove
    nlinarith

/-- At the place of the double, its significand is the nearest one. -/
theorem IsNear.isNearest (hnear : IsNear m e (y * 2 ^ e)) : IsNearest m y := by
  have hpos := two_zpow_pos e
  have hreach := reachBelow_le m e
  refine ⟨?_, le_of_mul_le_mul_right hnear.le_high hpos, fun hodd => ⟨?_, ?_⟩⟩
  · linarith [le_of_mul_le_mul_right hnear.low_le hpos]
  · linarith [lt_of_mul_lt_mul_right (hnear.strict hodd).1 hpos.le]
  · exact lt_of_mul_lt_mul_right (hnear.strict hodd).2 hpos.le

/-- Below a power of two, at the next smaller place, it is the power of two. -/
theorem IsNear.isNearest_below (hnear : IsNear (2 ^ 52) e (y * 2 ^ (e - 1))) (he : -1074 < e)
    (hy : y < 2 ^ 53) : IsNearest (2 ^ 53) y := by
  have hlow := hnear.low_le
  have hstep : (2 : ℚ) ^ e = 2 * 2 ^ (e - 1) := by
    rw [zpow_sub_one₀ two_ne_zero]
    ring
  rw [reachBelow, if_pos ⟨rfl, he⟩, hstep, ← mul_assoc] at hlow
  have hlow' := le_of_mul_le_mul_right hlow (two_zpow_pos (e - 1))
  push_cast at hlow'
  refine ⟨?_, ?_, fun hodd => absurd hodd (by decide)⟩ <;> push_cast <;> linarith

/-- Rounding takes a number to the double in whose interval it lies. -/
theorem IsRounding.eq_of_isNear {s : Sign} {v : ℚ} {u : UnpackedFloat} (hu : IsRounding s v u)
    {hm : 0 < m} (hcanonical : IsCanonical (.finite s m e hm)) (hnear : IsNear m e v) :
    u = .finite s m e hm := by
  obtain ⟨m', e', accuracy, x, hx, he', rfl, rfl⟩ := hu
  obtain ⟨hshort, hleast, hlong⟩ := hcanonical
  generalize ht : Format.binary64.targetExponent (totalExponent m' e') = t at he'
  have htleast : -1074 ≤ t := by
    rw [← ht, targetExponent_eq]
    exact le_max_right _ _
  obtain ⟨hy, hylong⟩ := significand_bounds hx ht he'
  have hem := hx.shiftRight (t - e').toNat
  rw [← div_two_pow_mul he'] at hnear
  generalize x / 2 ^ (t - e').toNat = y at hy hylong hem hnear
  unfold roundWithAccuracy
  rw [shiftToTargetExponent_of_le ht he']
  dsimp only
  rcases hnear.place_cases hshort hleast hlong hy htleast hylong with rfl | ⟨rfl, rfl⟩
  · rw [hem.roundedMantissa_eq hnear.isNearest, shiftToTargetExponent_of_lt hshort hleast]
    exact dif_neg hm.ne'
  · rw [hem.roundedMantissa_eq (hnear.isNearest_below (by omega) hy),
      shiftToTargetExponent_two_pow htleast]
    rw [sub_add_cancel]
    exact dif_neg hm.ne'

end SocketRanking.Number
