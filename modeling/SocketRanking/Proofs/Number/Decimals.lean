import SocketRanking.Proofs.Number.Binary
import SocketRanking.Proofs.Number.Shortest
import SocketRanking.Proofs.Number.SignedZero

/-!
# Decimals that round to a double

A decimal in the interval of a double is read as the double (`toFloat_eq_of_isNear`).  The
reader has two ways: a short significand and a small power of ten are doubles themselves,
and one product or quotient of them is rounded once; other decimals are rounded from whole
numbers.  Either way there is a single rounding.
-/

namespace SocketRanking.Number

open Float.Model Float.Model.UnpackedFloat

/-! ## Significands and powers of ten as doubles -/

/-- A positive double that is this number. -/
def IsExactly (y : Float) (v : ℚ) : Prop :=
  ∃ (m : ℕ) (e : ℤ) (hm : 0 < m), y.toModel.unpack = .finite .positive m e hm ∧ m * 2 ^ e = v

theorem isExactly_toFloat {n : ℕ} (hpos : 0 < n) (hn : n < 2 ^ 53) :
    IsExactly n.toUInt64.toFloat n := by
  have hround := normalize_roundsTo_of_pos hpos 0 .positive
  rw [zpow_zero, mul_one] at hround
  rw [toFloat_toUInt64 hn]
  generalize UnpackedFloat.normalize Format.binary64 n 0 .positive = u at hround
  have hn' : IsRepresentable n := ⟨n, 0, hn, by norm_num, by rw [zpow_zero, mul_one]⟩
  have hmagnitude : magnitude u = n :=
    le_antisymm (hround.magnitude_le n hn' le_rfl) (hround.le_magnitude n hn' le_rfl)
  have hlt : magnitude u < 2 ^ 1024 := by
    have hn'' : (n : ℚ) < 2 ^ 53 := by exact_mod_cast hn
    rw [hmagnitude]
    exact hn''.trans_le (pow_le_pow_right₀ one_le_two (by norm_num))
  have hunpack := hround.unpack_pack hlt
  rcases hround.hasSign with rfl | ⟨m, e, hm, rfl⟩
  · have hzero : (0 : ℚ) = n := hmagnitude
    exact absurd (Nat.cast_eq_zero.mp hzero.symm) hpos.ne'
  · exact ⟨m, e, hm, hunpack, hmagnitude⟩

theorem isExactly_of_content {y : Float} {n : ℕ} (hfinite : y.isFinite = true)
    (hsign : (Binary.ofFloat y).negative = false) (hn : 0 < n)
    (hvalue : (Binary.ofFloat y).numerator = n * (Binary.ofFloat y).denominator) :
    IsExactly y n := by
  have hden : ((Binary.ofFloat y).denominator : ℚ) ≠ 0 :=
    Nat.cast_ne_zero.mpr (Binary.ofFloat y).denominator_pos.ne'
  have hm : 0 < (Binary.ofFloat y).significand := by
    by_contra hnone
    have hzero : (Binary.ofFloat y).numerator = 0 := by
      rw [Binary.numerator, Nat.eq_zero_of_not_pos hnone, Nat.zero_mul]
    exact (Nat.mul_pos hn (Binary.ofFloat y).denominator_pos).ne' (hvalue.symm.trans hzero)
  refine ⟨_, (Binary.ofFloat y).exponent, hm, ?_, ?_⟩
  · rw [unpack_eq_finite hfinite hm, Binary.sign, hsign]
    rfl
  · have hcontent := (Binary.ofFloat y).numerator_div_denominator
    rw [hvalue, Nat.cast_mul, mul_div_cancel_right₀ _ hden] at hcontent
    exact hcontent.symm

theorem powersOfTen_content (k : Fin Float.exactlyRepresentablePowersOfTen.size) :
    let y := Float.exactlyRepresentablePowersOfTen[k]
    y.isFinite = true ∧ (Binary.ofFloat y).negative = false ∧
      (Binary.ofFloat y).numerator = 10 ^ k.val * (Binary.ofFloat y).denominator := by
  revert k
  decide +kernel

theorem isExactly_power {k : ℕ} (hk : k < Float.exactlyRepresentablePowersOfTen.size) :
    IsExactly Float.exactlyRepresentablePowersOfTen[k] (10 ^ k : ℕ) := by
  obtain ⟨hfinite, hsign, hvalue⟩ := powersOfTen_content ⟨k, hk⟩
  exact isExactly_of_content hfinite hsign (Nat.pow_pos (by decide)) hvalue

theorem IsExactly.mul {x y : Float} {a b : ℚ} (hx : IsExactly x a) (hy : IsExactly y b) :
    ∃ u, IsRounding .positive (a * b) u ∧ x * y = .ofModel (.pack u) := by
  obtain ⟨m, e, hm, hxu, rfl⟩ := hx
  obtain ⟨n, f, hn, hyu, rfl⟩ := hy
  have hcx := isCanonical_unpack x.toModel
  have hcy := isCanonical_unpack y.toModel
  rw [hxu] at hcx
  rw [hyu] at hcy
  refine ⟨_, mul_isRounding .positive .positive hm hn (exponent_mul_le hcx hcy), ?_⟩
  change Float.ofModel (.pack (UnpackedFloat.mul Format.binary64 _ _)) = _
  rw [hxu, hyu]

theorem IsExactly.div {x y : Float} {a b : ℚ} (hx : IsExactly x a) (hy : IsExactly y b) :
    ∃ u, IsRounding .positive (a / b) u ∧ x / y = .ofModel (.pack u) := by
  obtain ⟨m, e, hm, hxu, rfl⟩ := hx
  obtain ⟨n, f, hn, hyu, rfl⟩ := hy
  refine ⟨_, div_isRounding .positive .positive hm hn, ?_⟩
  change Float.ofModel (.pack (UnpackedFloat.div Format.binary64 _ _)) = _
  rw [hxu, hyu]

/-! ## The two ways of the reader -/

/-- Zeros behind the significand make the product long enough to be rounded. -/
theorem mul_shifted_isRounding {s : ℕ} (hs : 0 < s) (k : ℕ) (hlong : 0 < s <<< 53)
    (hten : 0 < 10 ^ k) :
    IsRounding .positive (s * 10 ^ k) (UnpackedFloat.mul Format.binary64
      (.finite .positive (s <<< 53) (-53) hlong) (.finite .positive (10 ^ k) 0 hten)) := by
  have hlog : 52 ≤ (s <<< 53 * 10 ^ k).log2 := by
    rw [Nat.le_log2 (Nat.mul_pos hlong hten).ne', Nat.shiftLeft_eq]
    calc 2 ^ 52 ≤ 1 * 2 ^ 53 * 1 := by decide
      _ ≤ s * 2 ^ 53 * 10 ^ k := Nat.mul_le_mul (Nat.mul_le_mul_right _ hs) hten
  have hround := mul_isRounding .positive .positive (e := -53) (f := 0) hlong hten (by
    rw [targetExponent_eq]
    omega)
  have hvalue : ((s <<< 53 : ℕ) : ℚ) * 2 ^ (-53 : ℤ) * ((10 ^ k : ℕ) * 2 ^ (0 : ℤ)) =
      s * 10 ^ k := by
    rw [Nat.shiftLeft_eq]
    push_cast
    norm_num
    ring
  rw [hvalue] at hround
  exact hround

/-- A significand is scaled up by a power of ten. -/
theorem ofScientific_isRounding {s : ℕ} (hs : 0 < s) {k : ℕ} (hk : k ≤ 2 ^ 11) :
    ∃ u, IsRounding .positive (s * 10 ^ k) u ∧
      Float.ofScientific s false k = .ofModel (.pack u) := by
  unfold Float.ofScientific
  split
  next hfast =>
    obtain ⟨u, hu, hproduct⟩ :=
      (isExactly_toFloat hs hfast.1).mul (isExactly_power (Nat.lt_succ_of_le hfast.2))
    rw [Nat.cast_pow, Nat.cast_ofNat] at hu
    exact ⟨u, hu, hproduct⟩
  next =>
    change ∃ u, _ ∧ Float.ofModel (.pack (UnpackedFloat.ofScientific Format.binary64 s k)) = _
    unfold UnpackedFloat.ofScientific
    have hbelow : ¬(k : ℤ) > 2 ^ Format.binary64.exponentBits := by
      change ¬(k : ℤ) > 2 ^ 11
      omega
    have habove : ¬(k : ℤ) < -(2 ^ Format.binary64.exponentBits + s.log2) := by
      change ¬(k : ℤ) < -(2 ^ 11 + s.log2)
      omega
    rw [dif_neg hs.ne', if_neg hbelow, if_neg habove, if_pos (Int.natCast_nonneg k)]
    exact ⟨_, mul_shifted_isRounding hs k (Nat.shiftLeft_pos_iff.mpr hs)
      (Nat.pow_pos (by decide)), rfl⟩

theorem ofScientific_isRounding_neg {s : ℕ} (hs : 0 < s) {k : ℕ} (hpos : 0 < k)
    (hk : k ≤ 2 ^ 11 + s.log2) :
    ∃ u, IsRounding .positive (s / 10 ^ k) u ∧
      Float.ofScientific s true k = .ofModel (.pack u) := by
  unfold Float.ofScientific
  split
  next hfast =>
    obtain ⟨u, hu, hquotient⟩ :=
      (isExactly_toFloat hs hfast.1).div (isExactly_power (Nat.lt_succ_of_le hfast.2))
    rw [Nat.cast_pow, Nat.cast_ofNat] at hu
    exact ⟨u, hu, hquotient⟩
  next =>
    change ∃ u, _ ∧
      Float.ofModel (.pack (UnpackedFloat.ofScientific Format.binary64 s (Int.negOfNat k))) = _
    rw [Int.negOfNat_eq, Int.ofNat_eq_natCast]
    unfold UnpackedFloat.ofScientific
    have hbelow : ¬-(k : ℤ) > 2 ^ Format.binary64.exponentBits := by
      change ¬-(k : ℤ) > 2 ^ 11
      omega
    have habove : ¬-(k : ℤ) < -(2 ^ Format.binary64.exponentBits + s.log2) := by
      change ¬-(k : ℤ) < -(2 ^ 11 + s.log2)
      omega
    have hneg : ¬0 ≤ -(k : ℤ) := by omega
    rw [dif_neg hs.ne', if_neg hbelow, if_neg habove, if_neg hneg]
    have hround := div_isRounding .positive .positive (e := 0) (f := 0) hs
      (Nat.pow_pos (n := (- -(k : ℤ)).toNat) (by decide : 0 < 10))
    have hvalue : (s : ℚ) * 2 ^ (0 : ℤ) / ((10 ^ (- -(k : ℤ)).toNat : ℕ) * 2 ^ (0 : ℤ)) =
        s / 10 ^ k := by
      rw [neg_neg, Int.toNat_natCast]
      push_cast
      norm_num
    rw [hvalue] at hround
    exact ⟨_, hround, rfl⟩

/-! ## Decimals near a double -/

variable {m : ℕ} {e : ℤ} {v : ℚ}

theorem IsNear.two_zpow_le (hnear : IsNear m e v) (hm : 0 < m) : (2 : ℚ) ^ (e - 1) ≤ v := by
  have hone : (1 : ℚ) ≤ m := by exact_mod_cast hm
  have hreach := reachBelow_le m e
  have hlow := hnear.low_le
  have hpos := two_zpow_pos e
  rw [zpow_sub_one₀ two_ne_zero]
  nlinarith

theorem IsNear.lt_two_zpow (hnear : IsNear m e v) (hshort : m < 2 ^ 53) :
    v < (2 : ℚ) ^ (e + 53) := by
  have hshort' : (m : ℚ) + 1 ≤ 2 ^ 53 := by exact_mod_cast hshort
  have hhigh := hnear.le_high
  have hpos := two_zpow_pos e
  have hsplit : (2 : ℚ) ^ (e + 53) = 2 ^ 53 * 2 ^ e := by
    rw [zpow_add₀ two_ne_zero, mul_comm]
    rfl
  rw [hsplit]
  nlinarith

/-- The numbers near finite doubles are not too large and not too small. -/
theorem IsNear.bounds (hnear : IsNear m e v) (hm : 0 < m) (hshort : m < 2 ^ 53)
    (hleast : -1074 ≤ e) (hmost : e ≤ 971) :
    (10 : ℚ) ^ (-330 : ℤ) < v ∧ v < 10 ^ (309 : ℤ) := by
  constructor
  · have hplace : (2 : ℚ) ^ (-1075 : ℤ) ≤ 2 ^ (e - 1) :=
      zpow_le_zpow_right₀ one_le_two (by omega)
    have hsmall : (10 : ℚ) ^ (-330 : ℤ) < 2 ^ (-1075 : ℤ) := by
      have hpowers : 2 ^ 1075 < 10 ^ 330 := by decide +kernel
      rw [zpow_neg, zpow_neg]
      exact inv_strictAnti₀ (by positivity) (by exact_mod_cast hpowers)
    exact hsmall.trans_le (hplace.trans (hnear.two_zpow_le hm))
  · have hplace : (2 : ℚ) ^ (e + 53) ≤ 2 ^ (1024 : ℤ) :=
      zpow_le_zpow_right₀ one_le_two (by omega)
    have hlarge : (2 : ℚ) ^ (1024 : ℤ) < 10 ^ (309 : ℤ) := by
      have hpowers : 2 ^ 1024 < 10 ^ 309 := by decide +kernel
      exact_mod_cast hpowers
    exact (hnear.lt_two_zpow hshort).trans (hplace.trans_lt hlarge)

/-! ## Reading -/

theorem length_toDigits_le_log2 (s : ℕ) : (Nat.toDigits 10 s).length ≤ s.log2 + 1 := by
  rw [Nat.length_toDigits_le_iff (by decide) (Nat.succ_pos _)]
  exact Nat.lt_log2_self.trans_le (Nat.pow_le_pow_left (by decide) _)

/-- A positive decimal of moderate size is rounded once. -/
theorem toFloat_isRounding {d : Decimal} (hs : 0 < d.significand)
    (hlow : -330 ≤ (Nat.toDigits 10 d.significand).length + d.exponent)
    (hhigh : (Nat.toDigits 10 d.significand).length + d.exponent ≤ 310) :
    ∃ u, IsRounding .positive (d.significand * 10 ^ d.exponent) u ∧
      d.toFloat = if d.negative then -.ofModel (.pack u) else .ofModel (.pack u) := by
  have hmagnitude : ∃ u, IsRounding .positive (d.significand * 10 ^ d.exponent) u ∧
      (if d.exponent < 0 then Float.ofScientific d.significand true (-d.exponent).toNat
        else Float.ofScientific d.significand false d.exponent.toNat) = .ofModel (.pack u) := by
    split
    next hneg =>
      have hlog := length_toDigits_le_log2 d.significand
      obtain ⟨u, hu, heq⟩ := ofScientific_isRounding_neg hs (k := (-d.exponent).toNat)
        (by omega) (by omega)
      rw [← zpow_natCast, Int.toNat_of_nonneg (by omega), zpow_neg, div_inv_eq_mul] at hu
      exact ⟨u, hu, heq⟩
    next hnonneg =>
      obtain ⟨u, hu, heq⟩ := ofScientific_isRounding hs (k := d.exponent.toNat) (by omega)
      rw [← zpow_natCast, Int.toNat_of_nonneg (by omega)] at hu
      exact ⟨u, hu, heq⟩
  obtain ⟨u, hu, heq⟩ := hmagnitude
  refine ⟨u, hu, ?_⟩
  have hsmall : ¬(decide (d.significand = 0) ||
      decide (((Nat.toDigits 10 d.significand).length : ℤ) + d.exponent < -330)) = true := by
    rw [Bool.or_eq_true, decide_eq_true_iff, decide_eq_true_iff]
    omega
  rw [Decimal.toFloat, if_neg hsmall, if_neg (not_lt.mpr hhigh), heq]

theorem IsNear.size_bounds {s : ℕ} {k : ℤ} (hnear : IsNear m e (s * 10 ^ k)) (hm : 0 < m)
    (hshort : m < 2 ^ 53) (hleast : -1074 ≤ e) (hmost : e ≤ 971) :
    0 < s ∧ -330 ≤ (Nat.toDigits 10 s).length + k ∧ (Nat.toDigits 10 s).length + k ≤ 310 := by
  obtain ⟨hlow, hhigh⟩ := hnear.bounds hm hshort hleast hmost
  have hten := ten_zpow_pos k
  have hs : 0 < s := by
    by_contra hzero
    rw [Nat.eq_zero_of_not_pos hzero, Nat.cast_zero, zero_mul] at hlow
    exact absurd hlow (not_lt.mpr (ten_zpow_pos _).le)
  obtain ⟨hslow, hshigh⟩ := Shortest.ten_pow_length_bounds hs
  have hbelow : (10 : ℚ) ^ (-330 : ℤ) < 10 ^ ((Nat.toDigits 10 s).length + k) := by
    rw [zpow_add₀ (by norm_num)]
    exact hlow.trans (mul_lt_mul_of_pos_right hshigh hten)
  have habove : (10 : ℚ) ^ ((Nat.toDigits 10 s).length - 1 + k) < 10 ^ (309 : ℤ) := by
    rw [zpow_add₀ (by norm_num)]
    exact (mul_le_mul_of_nonneg_right hslow hten.le).trans_lt hhigh
  rw [zpow_lt_zpow_iff_right₀ (by norm_num)] at hbelow habove
  exact ⟨hs, by omega, by omega⟩

theorem neg_ofModel_pack {s : Sign} {hm : 0 < m} (hcanonical : IsCanonical (.finite s m e hm))
    (he : e ≤ 971) : -Float.ofModel (.pack (.finite s m e hm)) =
      .ofModel (.pack (.finite (-s) m e hm)) := by
  change Float.ofModel (.pack (UnpackedFloat.neg (Float.Model.pack _).unpack)) = _
  rw [unpack_pack_finite hcanonical he]
  rfl

/-- A decimal in the interval of a double is read as the double, if the signs agree. -/
theorem toFloat_eq_of_isNear {d : Decimal} {x : Float} (hfinite : x.isFinite = true)
    (hm : 0 < (Binary.ofFloat x).significand) (hsign : d.negative = (Binary.ofFloat x).negative)
    (hnear : IsNear (Binary.ofFloat x).significand (Binary.ofFloat x).exponent
      (d.significand * 10 ^ d.exponent)) : d.toFloat = x := by
  obtain ⟨hshort, hleast, hmost, hlong⟩ := Binary.bounds hfinite hm
  obtain ⟨hs, hlow, hhigh⟩ := hnear.size_bounds hm hshort hleast hmost
  obtain ⟨u, hu, hread⟩ := toFloat_isRounding hs hlow hhigh
  have hcanonical : IsCanonical (.finite .positive _ _ hm) := ⟨hshort, hleast, hlong⟩
  have hx := ofModel_pack_unpack x
  rw [unpack_eq_finite hfinite hm, Binary.sign, ← hsign] at hx
  rw [hread, hu.eq_of_isNear hcanonical hnear]
  cases hnegative : d.negative with
  | false => rwa [hnegative] at hx
  | true =>
      rw [hnegative] at hx
      exact (neg_ofModel_pack hcanonical hmost).trans hx

theorem toFloat_eq_of_zero {d : Decimal} {x : Float} (hfinite : x.isFinite = true)
    (hm : (Binary.ofFloat x).significand = 0) (hsign : d.negative = (Binary.ofFloat x).negative)
    (hzero : d.significand = 0) : d.toFloat = x := by
  have hx := ofModel_pack_unpack x
  rw [unpack_eq hfinite, dif_pos hm, Binary.sign, ← hsign] at hx
  have hnone : (decide (d.significand = 0) ||
      decide (((Nat.toDigits 10 d.significand).length : ℤ) + d.exponent < -330)) = true :=
    Bool.or_eq_true_iff.mpr (Or.inl (decide_eq_true hzero))
  have hminus : -(0.0 : Float) = .ofModel (.pack (.zero .negative)) := by decide +kernel
  rw [← hx, Decimal.toFloat, if_pos hnone]
  cases d.negative with
  | false => rfl
  | true => exact hminus

end SocketRanking.Number
