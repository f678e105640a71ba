import SocketRanking.Proofs.Number.Binary
import SocketRanking.Proofs.Number.Digits

/-!
# The shortest digits of a double

The digits that are found for a double other than zero denote a number that rounds to it.
The search goes through finer and finer grids, and it ends: on a grid of seventeen digits
the steps are so small that one of the two neighbours of the double rounds to it.
-/

namespace SocketRanking.Number

/-- Digits of which the first is not zero. -/
structure Digits.IsProper (d : Digits) : Prop where
  allDigits : AllDigits d.digits
  ne_nil : d.digits ≠ []
  head_ne : d.digits.head? ≠ some '0'

/-- The number that digits denote. -/
def Digits.value (d : Digits) : ℚ :=
  digitsValue d.digits * 10 ^ (d.point - d.digits.length)

theorem ten_zpow_eq (n : ℤ) : (10 : ℚ) ^ n = tenPow n.toNat / tenPow (-n).toNat := by
  rw [tenPow_eq, tenPow_eq, Nat.cast_pow, Nat.cast_pow, Nat.cast_ofNat, ← zpow_natCast,
    ← zpow_natCast, ← zpow_sub₀ (by norm_num)]
  congr 1
  omega

theorem ten_zpow_pos (n : ℤ) : (0 : ℚ) < 10 ^ n :=
  zpow_pos (by norm_num) n

namespace Shortest

variable {b : Binary}

/-! ## The interval of a double -/

/-- A fraction is compared with a number of quarter steps in whole numbers. -/
theorem scaled_le_iff (k num : ℕ) {den : ℕ} (hden : 0 < den) (e : ℤ) :
    (k * den * twoPow (e - 2).toNat ≤ num * twoPow (-(e - 2)).toNat ↔
        (k / 4 : ℚ) * 2 ^ e ≤ num / den) ∧
      (num * twoPow (-(e - 2)).toNat ≤ k * den * twoPow (e - 2).toNat ↔
        (num / den : ℚ) ≤ k / 4 * 2 ^ e) := by
  have hden' : (den : ℚ) ≠ 0 := Nat.cast_ne_zero.mpr hden.ne'
  have hscale : (0 : ℚ) < (den * twoPow (-(e - 2)).toNat : ℕ) :=
    Nat.cast_pos.mpr (Nat.mul_pos hden (twoPow_pos _))
  have hnum : ((num * twoPow (-(e - 2)).toNat : ℕ) : ℚ) =
      num / den * (den * twoPow (-(e - 2)).toNat : ℕ) := by
    push_cast
    field_simp
  have hk : ((k * den * twoPow (e - 2).toNat : ℕ) : ℚ) =
      k / 4 * 2 ^ e * (den * twoPow (-(e - 2)).toNat : ℕ) := by
    have hsplit : (2 : ℚ) ^ (e - 2).toNat * 4 = 2 ^ e * 2 ^ (-(e - 2)).toNat := by
      have hfour : (4 : ℚ) = 2 ^ (2 : ℤ) := by norm_num
      rw [← zpow_natCast, ← zpow_natCast, hfour, ← zpow_add₀ two_ne_zero,
        ← zpow_add₀ two_ne_zero]
      congr 1
      omega
    rw [twoPow_eq, twoPow_eq]
    push_cast
    linear_combination (k * den / 4 : ℚ) * hsplit
  rw [← Nat.cast_le (α := ℚ), ← Nat.cast_le (α := ℚ), hk, hnum,
    mul_le_mul_iff_of_pos_right hscale, mul_le_mul_iff_of_pos_right hscale]
  exact ⟨Iff.rfl, Iff.rfl⟩

theorem roundsTo_iff (hm : 0 < b.significand) (num : ℕ) {den : ℕ} (hden : 0 < den) :
    roundsTo b num den = true ↔ IsNear b.significand b.exponent (num / den) := by
  -- the ends of the interval in quarter steps
  have hlow : ∃ k : ℕ, (k / 4 : ℚ) = b.significand - reachBelow b.significand b.exponent ∧
      k = if decide (b.significand = twoPow 52 ∧ -1074 < b.exponent) then 4 * b.significand - 1
        else 4 * b.significand - 2 := by
    refine ⟨_, ?_, rfl⟩
    rw [reachBelow, twoPow_eq]
    by_cases hnarrow : b.significand = 2 ^ 52 ∧ -1074 < b.exponent
    · rw [if_pos hnarrow, if_pos (decide_eq_true hnarrow), Nat.cast_sub (by omega)]
      push_cast
      ring
    · rw [if_neg hnarrow, if_neg (mt of_decide_eq_true hnarrow), Nat.cast_sub (by omega)]
      push_cast
      ring
  have hhigh : (((4 * b.significand + 2 : ℕ) : ℚ) / 4) = b.significand + 1 / 2 := by
    push_cast
    ring
  obtain ⟨k, hk, hkeq⟩ := hlow
  obtain ⟨hle, hge⟩ := scaled_le_iff k num hden b.exponent
  obtain ⟨hle', hge'⟩ := scaled_le_iff (4 * b.significand + 2) num hden b.exponent
  rw [hk] at hle hge
  rw [hhigh] at hle' hge'
  simp only [roundsTo, ← hkeq]
  split
  next heven =>
    rw [decide_eq_true_iff, hle, hge']
    constructor
    · rintro ⟨hlow, hhigh⟩
      exact ⟨hlow, hhigh, fun hodd => by omega⟩
    · intro hnear
      exact ⟨hnear.low_le, hnear.le_high⟩
  next hodd =>
    rw [decide_eq_true_iff, ← not_le, ← not_le, hge, hle', not_le, not_le]
    constructor
    · rintro ⟨hlow, hhigh⟩
      exact ⟨hlow.le, hhigh.le, fun _ => ⟨hlow, hhigh⟩⟩
    · intro hnear
      exact hnear.strict (by omega)

/-! ## The grids -/

/-- A point of a grid that rounds to the double. -/
def IsHit (b : Binary) (places : ℤ) (n : ℕ) : Prop :=
  0 < n ∧ IsNear b.significand b.exponent (n * 10 ^ (-places))

theorem hit_iff (hm : 0 < b.significand) (places : ℤ) (n : ℕ) :
    (decide (0 < n) && roundsTo b (n * tenPow (-places).toNat) (tenPow places.toNat)) = true ↔
      IsHit b places n := by
  have hvalue : ((n * tenPow (-places).toNat : ℕ) : ℚ) / (tenPow places.toNat : ℕ) =
      n * 10 ^ (-places) := by
    rw [ten_zpow_eq, neg_neg, Nat.cast_mul, mul_div_assoc]
  rw [Bool.and_eq_true, decide_eq_true_iff, roundsTo_iff hm _ (tenPow_pos _), hvalue]
  rfl

theorem roundHalfEven_cases (num den : ℕ) :
    roundHalfEven num den = num / den ∨ roundHalfEven num den = num / den + 1 := by
  unfold roundHalfEven
  rcases Nat.mod_two_eq_zero_or_one (num / den) with heven | hodd
  · grind
  · grind

theorem isHit_of_onGrid? (hm : 0 < b.significand) {places : ℤ} {n : ℕ}
    (hn : onGrid? b places = some n) : IsHit b places n := by
  unfold onGrid? at hn
  simp only at hn
  split at hn
  next hbelow habove =>
    rw [hit_iff hm] at hbelow habove
    rcases roundHalfEven_cases (b.numerator * tenPow places.toNat)
      (b.denominator * tenPow (-places).toNat) with hround | hround
    · exact Option.some.inj hn ▸ hround ▸ hbelow
    · exact Option.some.inj hn ▸ hround ▸ habove
  next hbelow _ =>
    rw [hit_iff hm] at hbelow
    exact Option.some.inj hn ▸ hbelow
  next _ habove =>
    rw [hit_iff hm] at habove
    exact Option.some.inj hn ▸ habove
  next => cases hn

/-- On a grid of seventeen digits half a step stays inside the interval of a double. -/
theorem half_lt_reach {m : ℕ} {e : ℤ} {step : ℚ} (hshort : m < 2 ^ 53)
    (hfine : 10 ^ 16 ≤ m * step) : 1 < step ∧ 1 / 2 < reachBelow m e * step := by
  have hshort' : (m : ℚ) ≤ 2 ^ 53 := by exact_mod_cast hshort.le
  have hstep : 1 < step := by
    by_contra hsmall
    have hle : (m : ℚ) * step ≤ m := mul_le_of_le_one_right (Nat.cast_nonneg m) (not_lt.mp hsmall)
    linarith
  refine ⟨hstep, ?_⟩
  unfold reachBelow
  split
  next hnarrow =>
    rw [hnarrow.1] at hfine
    push_cast at hfine
    linarith
  next => linarith

theorem isHit_of_le_half (hshort : b.significand < 2 ^ 53) {places : ℤ} {n : ℕ} (hn : 0 < n)
    (hfine : 10 ^ 16 ≤ b.value * 10 ^ places) (hbelow : b.value * 10 ^ places - 1 / 2 ≤ n)
    (habove : n ≤ b.value * 10 ^ places + 1 / 2) : IsHit b places n := by
  have hten := ten_zpow_pos places
  have hstep : b.value * 10 ^ places = b.significand * (2 ^ b.exponent * 10 ^ places) :=
    mul_assoc _ _ _
  rw [hstep] at hfine hbelow habove
  obtain ⟨hone, hreach⟩ := half_lt_reach (e := b.exponent) hshort hfine
  have hlow : (b.significand - reachBelow b.significand b.exponent) * 2 ^ b.exponent <
      n * 10 ^ (-places) := by
    rw [zpow_neg, ← div_eq_mul_inv, lt_div_iff₀ hten]
    linarith
  have hhigh : (n : ℚ) * 10 ^ (-places) < (b.significand + 1 / 2) * 2 ^ b.exponent := by
    rw [zpow_neg, ← div_eq_mul_inv, div_lt_iff₀ hten]
    linarith
  exact ⟨hn, hlow.le, hhigh.le, fun _ => ⟨hlow, hhigh⟩⟩

theorem onGrid?_ne_none (hm : 0 < b.significand) (hshort : b.significand < 2 ^ 53) {places : ℤ}
    (hfine : 10 ^ 16 ≤ b.value * 10 ^ places) : onGrid? b places ≠ none := by
  have hden : 0 < b.denominator * tenPow (-places).toNat :=
    Nat.mul_pos b.denominator_pos (tenPow_pos _)
  have hden' : (0 : ℚ) < (b.denominator * tenPow (-places).toNat : ℕ) := Nat.cast_pos.mpr hden
  have hvalue : ((b.numerator * tenPow places.toNat : ℕ) : ℚ) /
      (b.denominator * tenPow (-places).toNat : ℕ) = b.value * 10 ^ places := by
    rw [← b.numerator_div_denominator, ten_zpow_eq]
    push_cast
    exact mul_div_mul_comm _ _ _ _
  unfold onGrid?
  simp only
  generalize b.numerator * tenPow places.toNat = num at hvalue
  generalize b.denominator * tenPow (-places).toNat = den at hden hden' hvalue
  have hfloor : ((num / den : ℕ) : ℚ) ≤ b.value * 10 ^ places := by
    rw [← hvalue, le_div_iff₀ hden']
    exact_mod_cast Nat.div_mul_le_self num den
  have hceil : b.value * 10 ^ places < (num / den : ℕ) + 1 := by
    rw [← hvalue, div_lt_iff₀' hden']
    exact_mod_cast Nat.lt_mul_div_succ num hden
  have hpos : 0 < num / den := by
    by_contra hzero
    rw [Nat.eq_zero_of_not_pos hzero] at hceil
    norm_num at hceil
    linarith
  by_cases hnear : b.value * 10 ^ places - 1 / 2 ≤ (num / den : ℕ)
  · have hhit : IsHit b places (num / den) := isHit_of_le_half hshort hpos hfine hnear (by linarith)
    rw [(hit_iff hm places _).mpr hhit]
    split <;> simp_all
  · have hhit : IsHit b places (num / den + 1) := by
      refine isHit_of_le_half hshort (Nat.succ_pos _) hfine ?_ ?_ <;> push_cast <;> linarith
    rw [(hit_iff hm places _).mpr hhit]
    split <;> simp_all

/-! ## The search -/

theorem ten_pow_length_bounds {n : ℕ} (hn : 0 < n) :
    (10 : ℚ) ^ ((Nat.toDigits 10 n).length - 1 : ℤ) ≤ n ∧
      (n : ℚ) < 10 ^ ((Nat.toDigits 10 n).length : ℤ) := by
  have hlength : 0 < (Nat.toDigits 10 n).length := Nat.length_toDigits_pos
  constructor
  · obtain ⟨k, hk⟩ := Nat.exists_eq_succ_of_ne_zero hlength.ne'
    have hlow : 10 ^ k ≤ n := by
      rcases Nat.eq_zero_or_pos k with rfl | hpos
      · exact hn
      · by_contra hsmall
        have hshort := (Nat.length_toDigits_le_iff (by decide) hpos).mpr (not_le.mp hsmall)
        omega
    rw [hk, Nat.succ_eq_add_one, Nat.cast_add_one, add_sub_cancel_right, zpow_natCast]
    exact_mod_cast hlow
  · have hhigh : n < 10 ^ (Nat.toDigits 10 n).length :=
      (Nat.length_toDigits_le_iff (by decide) hlength).mp le_rfl
    rw [zpow_natCast]
    exact_mod_cast hhigh

/-- The first digit of a fraction is not before this place. -/
theorem ten_zpow_magnitude_le {num den : ℕ} (hnum : 0 < num) (hden : 0 < den) :
    (10 : ℚ) ^ (magnitude num den - 1) ≤ num / den := by
  have hden' : (0 : ℚ) < den := Nat.cast_pos.mpr hden
  obtain ⟨hnumlow, -⟩ := ten_pow_length_bounds hnum
  obtain ⟨-, hdenhigh⟩ := ten_pow_length_bounds hden
  unfold magnitude
  simp only
  generalize ((Nat.toDigits 10 num).length : ℤ) = a at hnumlow
  generalize ((Nat.toDigits 10 den).length : ℤ) = c at hdenhigh
  split
  next =>
    rw [le_div_iff₀ hden']
    calc (10 : ℚ) ^ (a - c - 1) * den ≤ 10 ^ (a - c - 1) * 10 ^ c :=
          mul_le_mul_of_nonneg_left hdenhigh.le (ten_zpow_pos _).le
      _ = 10 ^ (a - 1) := by
          rw [← zpow_add₀ (by norm_num)]
          congr 1
          omega
      _ ≤ num := hnumlow
  next hlarge =>
    rw [not_lt] at hlarge
    have hlarge' : (den * tenPow (a - c).toNat : ℚ) ≤ num * tenPow (-(a - c)).toNat := by
      exact_mod_cast hlarge
    have hten : (0 : ℚ) < tenPow (-(a - c)).toNat := Nat.cast_pos.mpr (tenPow_pos _)
    rw [add_sub_cancel_right, ten_zpow_eq, div_le_div_iff₀ hten hden']
    linarith

/-- If there is a hit on one of the grids that are tried, the search ends with a hit. -/
theorem exists_hit_of_search (hm : 0 < b.significand) {point : ℤ} {fuel tried k : ℕ}
    (htried : tried < k) (hk : k ≤ tried + fuel) (hgrid : onGrid? b (k - point) ≠ none) :
    ∃ (n : ℕ) (places : ℤ), IsHit b places n ∧
      search b point fuel tried =
        ⟨Nat.toDigits 10 n, (Nat.toDigits 10 n).length - places⟩ := by
  induction fuel generalizing tried with
  | zero => omega
  | succ fuel ih =>
      rw [search]
      simp only
      cases hnext : onGrid? b (tried + 1 - point) with
      | some n => exact ⟨n, _, isHit_of_onGrid? hm hnext, rfl⟩
      | none =>
          refine ih (lt_of_le_of_ne htried ?_) (by omega)
          rintro rfl
          exact hgrid (by exact_mod_cast hnext)

/-! ## The digits -/

theorem exists_trimZeros_append (digits : List Char) :
    ∃ n, trimZeros digits ++ zeros n = digits := by
  refine ⟨(digits.reverse.takeWhile (· = '0')).length, ?_⟩
  have hzeros : zeros (digits.reverse.takeWhile (· = '0')).length =
      (digits.reverse.takeWhile (· = '0')).reverse := by
    rw [zeros, ← List.length_reverse, eq_comm, List.eq_replicate_length]
    intro c hc
    have hzero := List.mem_takeWhile_imp (List.mem_reverse.mp hc)
    exact of_decide_eq_true hzero
  rw [hzeros, trimZeros, ← List.reverse_append, List.takeWhile_append_dropWhile,
    List.reverse_reverse]

/-- Without the zeros at its end, a run of digits that does not begin with a zero denotes the
same number. -/
theorem trimZeros_spec {d : Digits} (hproper : d.IsProper) :
    ({ d with digits := trimZeros d.digits } : Digits).IsProper ∧
      ({ d with digits := trimZeros d.digits } : Digits).value = d.value := by
  obtain ⟨n, hn⟩ := exists_trimZeros_append d.digits
  have hnonempty : trimZeros d.digits ≠ [] := by
    intro hnone
    rw [hnone, List.nil_append] at hn
    have hhead := hproper.head_ne
    have hne := hproper.ne_nil
    rw [← hn] at hhead hne
    cases n with
    | zero => exact hne rfl
    | succ n => exact hhead rfl
  refine ⟨⟨fun c hc => ?_, hnonempty, fun hhead => ?_⟩, ?_⟩
  · exact hproper.allDigits c (hn ▸ List.mem_append_left _ hc)
  · refine hproper.head_ne ?_
    rw [← hn, List.head?_append_of_ne_nil _ hnonempty]
    exact hhead
  · have hlength := congrArg (fun digits => (List.length digits : ℤ)) hn
    simp only [List.length_append, zeros, List.length_replicate, Nat.cast_add] at hlength
    have hvalue := digitsValue_append_zeros (trimZeros d.digits) n
    rw [hn] at hvalue
    simp only [Digits.value]
    rw [hvalue, ← hlength, ← sub_sub, zpow_sub₀ (by norm_num : (10 : ℚ) ≠ 0) _ (n : ℤ),
      zpow_natCast]
    push_cast
    field_simp

/-- The shortest digits of a double are digits indeed, and what they denote rounds to the
double. -/
theorem ofFloat_spec {x : Float} (hfinite : x.isFinite = true)
    (hm : 0 < (Binary.ofFloat x).significand) :
    (ofFloat x).IsProper ∧ IsNear (Binary.ofFloat x).significand (Binary.ofFloat x).exponent
      (ofFloat x).value := by
  obtain ⟨hshort, -⟩ := Binary.bounds hfinite hm
  unfold ofFloat
  simp only
  generalize Binary.ofFloat x = b at hm hshort
  have hnum : 0 < b.numerator := Nat.mul_pos hm (twoPow_pos _)
  have hlow := ten_zpow_magnitude_le hnum b.denominator_pos
  rw [b.numerator_div_denominator] at hlow
  generalize magnitude b.numerator b.denominator = point at hlow
  have hfine : 10 ^ 16 ≤ b.value * 10 ^ (((17 : ℕ) : ℤ) - point) := by
    have hten := ten_zpow_pos (((17 : ℕ) : ℤ) - point)
    have hscaled := mul_le_mul_of_nonneg_right hlow hten.le
    rw [← zpow_add₀ (by norm_num)] at hscaled
    refine le_trans (le_of_eq ?_) hscaled
    rw [← zpow_natCast]
    congr 1
    push_cast
    ring
  obtain ⟨n, places, hhit, hsearch⟩ : ∃ n places, IsHit b places n ∧ search b point 17 0 = _ :=
    exists_hit_of_search hm (by norm_num) le_rfl (onGrid?_ne_none hm hshort hfine)
  rw [hsearch]
  have hproper : Digits.IsProper
      ⟨Nat.toDigits 10 n, (Nat.toDigits 10 n).length - places⟩ :=
    ⟨allDigits_toDigits n, Nat.toDigits_ne_nil, head?_toDigits_ne hhit.1⟩
  obtain ⟨htrimmed, hvalue⟩ := trimZeros_spec hproper
  refine ⟨htrimmed, ?_⟩
  rw [hvalue, Digits.value, digitsValue_toDigits, sub_sub_cancel_left]
  exact hhit.2

end Shortest

end SocketRanking.Number
