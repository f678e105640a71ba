import SocketRanking.Proofs.Number.Comparison
import SocketRanking.Proofs.Number.Rounding

/-!
# Magnitudes of doubles

A double is within a bound if it is finite and its absolute value is not above the bound, and
above one if it is positive and not below it; what is above a bound may be infinite.  A bound
on an exact sum, product or quotient bounds the double that is computed, as long as the bound
is itself a finite double (`IsBound`).
-/

namespace SocketRanking.Number

open Float.Model Float.Model.UnpackedFloat

/-! ## Exact results of the operations -/

theorem RoundsTo.isFinite {s : Sign} {v : ℚ} {u : UnpackedFloat} (hu : RoundsTo s v u) :
    u.isFinite = true :=
  isFinite_iff.mpr ⟨s, hu.hasSign⟩

theorem natAbs_apply_add_le (s t : Sign) (m n : ℕ) : (s.apply m + t.apply n).natAbs ≤ m + n := by
  cases s <;> cases t <;> simp only [Sign.apply] <;> omega

theorem natAbs_apply_sub_le (s t : Sign) (m n : ℕ) : (s.apply m - t.apply n).natAbs ≤ m + n := by
  cases s <;> cases t <;> simp only [Sign.apply] <;> omega

/-- Significands at a common place add up to the sum of the numbers. -/
theorem aligned_sum (m n : ℕ) (e f : ℤ) :
    ((m <<< (e - min e f).toNat + n <<< (f - min e f).toNat : ℕ) : ℚ) * 2 ^ min e f =
      m * 2 ^ e + n * 2 ^ f := by
  rw [Nat.cast_add, add_mul, shiftLeft_mul (min_le_left e f), shiftLeft_mul (min_le_right e f)]

theorem normalize_aligned {k : ℤ} {m n : ℕ} {e f : ℤ}
    (hk : k.natAbs ≤ m <<< (e - min e f).toNat + n <<< (f - min e f).toNat) :
    ∃ (s : Sign) (v : ℚ), v ≤ m * 2 ^ e + n * 2 ^ f ∧
      RoundsTo s v (UnpackedFloat.normalize Format.binary64 k (min e f) .positive) := by
  obtain ⟨s, hs⟩ := normalize_roundsTo k (min e f) .positive
  refine ⟨s, _, ?_, hs⟩
  rw [← aligned_sum]
  exact mul_le_mul_of_nonneg_right (Nat.cast_le.mpr hk) (two_zpow_pos (min e f)).le

/-- The significands of two canonical doubles have a product that is long enough. -/
theorem exponent_mul_le {s t : Sign} {m n : ℕ} {e f : ℤ} {hm : 0 < m} {hn : 0 < n}
    (hcm : IsCanonical (.finite s m e hm)) (hcn : IsCanonical (.finite t n f hn)) :
    e + f ≤ Format.binary64.targetExponent (totalExponent (m * n) (e + f)) := by
  rw [targetExponent_eq]
  -- one long significand is enough, and two short ones stand at the least place
  have hlog : ∀ k, 2 ^ 52 ≤ k → k ≤ m * n → 52 ≤ (m * n).log2 := fun k hk hle =>
    (Nat.le_log2 (Nat.mul_pos hm hn).ne').mpr (hk.trans hle)
  rcases hcm.2.2 with hlong | hleast
  · have := hlog m hlong (Nat.le_mul_of_pos_right m hn)
    omega
  · rcases hcn.2.2 with hlong' | hleast'
    · have := hlog n hlong' (Nat.le_mul_of_pos_left n hm)
      omega
    · omega

theorem mul_isRounding (s t : Sign) {m n : ℕ} {e f : ℤ} (hm : 0 < m) (hn : 0 < n)
    (hle : e + f ≤ Format.binary64.targetExponent (totalExponent (m * n) (e + f))) :
    IsRounding (s * t) (m * 2 ^ e * (n * 2 ^ f))
      (UnpackedFloat.mul Format.binary64 (.finite s m e hm) (.finite t n f hn)) := by
  refine ⟨m * n, e + f, .exact, (m * n : ℕ), .exact (m * n), hle, ?_, rfl⟩
  rw [zpow_add₀ two_ne_zero]
  push_cast
  ring

section

variable {a b : UnpackedFloat} (ha : a.isFinite = true) (hb : b.isFinite = true)
  (hca : IsCanonical a) (hcb : IsCanonical b)

include ha hb hca hcb

theorem add_roundsTo : ∃ (s : Sign) (v : ℚ), v ≤ magnitude a + magnitude b ∧
    RoundsTo s v (UnpackedFloat.add Format.binary64 a b) := by
  obtain ⟨s, rfl | ⟨m, e, hm, rfl⟩⟩ := isFinite_iff.mp ha <;>
    obtain ⟨t, rfl | ⟨n, f, hn, rfl⟩⟩ := isFinite_iff.mp hb
  -- a zero leaves the other number as it is, which is rounded already
  · simp only [UnpackedFloat.add]
    split
    · exact ⟨_, 0, le_of_eq (add_zero 0).symm, zero_roundsTo _⟩
    · exact ⟨_, 0, le_of_eq (add_zero 0).symm, zero_roundsTo _⟩
  · exact ⟨t, _, le_of_eq (zero_add _).symm, hcb.roundsTo (Or.inr ⟨n, f, hn, rfl⟩)⟩
  · exact ⟨s, _, le_of_eq (add_zero _).symm, hca.roundsTo (Or.inr ⟨m, e, hm, rfl⟩)⟩
  · simp only [UnpackedFloat.add, decreaseExponent_of_le (min_le_left e f),
      decreaseExponent_of_le (min_le_right e f)]
    exact normalize_aligned (natAbs_apply_add_le s t _ _)

theorem sub_roundsTo : ∃ (s : Sign) (v : ℚ), v ≤ magnitude a + magnitude b ∧
    RoundsTo s v (UnpackedFloat.sub Format.binary64 a b) := by
  obtain ⟨s, rfl | ⟨m, e, hm, rfl⟩⟩ := isFinite_iff.mp ha <;>
    obtain ⟨t, rfl | ⟨n, f, hn, rfl⟩⟩ := isFinite_iff.mp hb
  · simp only [UnpackedFloat.sub]
    split
    · exact ⟨_, 0, le_of_eq (add_zero 0).symm, zero_roundsTo _⟩
    · exact ⟨_, 0, le_of_eq (add_zero 0).symm, zero_roundsTo _⟩
  · have hneg : IsCanonical (.finite (-t) n f hn) := hcb
    exact ⟨-t, _, le_of_eq (zero_add _).symm, hneg.roundsTo (Or.inr ⟨n, f, hn, rfl⟩)⟩
  · exact ⟨s, _, le_of_eq (add_zero _).symm, hca.roundsTo (Or.inr ⟨m, e, hm, rfl⟩)⟩
  · simp only [UnpackedFloat.sub, decreaseExponent_of_le (min_le_left e f),
      decreaseExponent_of_le (min_le_right e f)]
    exact normalize_aligned (natAbs_apply_sub_le s t _ _)

theorem mul_roundsTo : ∃ s, RoundsTo s (magnitude a * magnitude b)
    (UnpackedFloat.mul Format.binary64 a b) := by
  obtain ⟨s, rfl | ⟨m, e, hm, rfl⟩⟩ := isFinite_iff.mp ha <;>
    obtain ⟨t, rfl | ⟨n, f, hn, rfl⟩⟩ := isFinite_iff.mp hb
  · exact ⟨s * t, (mul_zero (0 : ℚ)).symm ▸ zero_roundsTo (s * t)⟩
  · exact ⟨s * t, (zero_mul (magnitude (.finite t n f hn))).symm ▸ zero_roundsTo (s * t)⟩
  · exact ⟨s * t, (mul_zero (magnitude (.finite s m e hm))).symm ▸ zero_roundsTo (s * t)⟩
  · exact ⟨s * t, (mul_isRounding s t hm hn (exponent_mul_le hca hcb)).roundsTo⟩

end

/-- The quotient of two significands, taken to enough places, is long enough. -/
theorem exponent_div_le {m n : ℕ} (hm : 0 < m) (hn : 0 < n) {e f t : ℤ}
    (ht : t ≤ Format.binary64.targetExponent (totalExponent m e - totalExponent n f))
    (hle : t ≤ e - f) :
    t ≤ Format.binary64.targetExponent (totalExponent (m <<< (e - f - t).toNat / n) t) := by
  rw [targetExponent_eq_max, totalExponent, totalExponent] at ht
  rw [targetExponent_eq]
  generalize hk : (e - f - t).toNat = k
  by_cases hleast : t ≤ -1074
  · exact hleast.trans (le_max_right _ _)
  · have hlong : 2 ^ 52 * n ≤ m * 2 ^ k :=
      calc 2 ^ 52 * n ≤ 2 ^ 52 * 2 ^ (n.log2 + 1) := Nat.mul_le_mul_left _ Nat.lt_log2_self.le
        _ = 2 ^ (52 + (n.log2 + 1)) := (pow_add 2 52 _).symm
        _ ≤ 2 ^ (m.log2 + k) := Nat.pow_le_pow_right two_pos (by omega)
        _ = 2 ^ m.log2 * 2 ^ k := pow_add 2 _ k
        _ ≤ m * 2 ^ k := Nat.mul_le_mul_right _ (Nat.log2_self_le hm.ne')
    have hquotient : 2 ^ 52 ≤ m <<< k / n := by
      rw [Nat.shiftLeft_eq, Nat.le_div_iff_mul_le hn]
      exact hlong
    have hlog : 52 ≤ (m <<< k / n).log2 :=
      (Nat.le_log2 (Nat.pos_of_ne_zero (by omega)).ne').mpr hquotient
    omega

theorem div_isRounding (s t : Sign) {m n : ℕ} {e f : ℤ} (hm : 0 < m) (hn : 0 < n) :
    IsRounding (s / t) (m * 2 ^ e / (n * 2 ^ f))
      (UnpackedFloat.div Format.binary64 (.finite s m e hm) (.finite t n f hn)) := by
  simp only [UnpackedFloat.div, divCore]
  generalize hplace : min (e - f)
    (Format.binary64.targetExponent (totalExponent m e - totalExponent n f)) = place
  have hle : place ≤ e - f := hplace ▸ min_le_left _ _
  have ht : place ≤ Format.binary64.targetExponent (totalExponent m e - totalExponent n f) :=
    hplace ▸ min_le_right _ _
  refine ⟨_, _, _, _, .ofFraction (m <<< (e - f - place).toNat) hn,
    exponent_div_le hm hn ht hle, ?_, rfl⟩
  rw [div_mul_eq_mul_div, shiftLeft_mul hle, zpow_sub₀ two_ne_zero, mul_div_assoc',
    div_div, mul_comm (2 ^ f) (n : ℚ)]

/-! ## Bounds -/

/-- A finite double is a bound. -/
structure IsBound (c : ℚ) : Prop where
  isRepresentable : IsRepresentable c
  lt : c < 2 ^ 1024

theorem isBound_two_pow {k : ℕ} (hk : k < 1024) : IsBound (2 ^ k) where
  isRepresentable := by
    rw [← zpow_natCast]
    exact isRepresentable_two_zpow (by omega)
  lt := pow_lt_pow_right₀ one_lt_two hk

theorem two_pow_lt_two_pow_div {j k : ℕ} (hjk : j + 53 < k) : (2 : ℚ) ^ j < 2 ^ k / 2 ^ 53 := by
  rw [lt_div_iff₀ (by positivity), ← pow_add]
  exact pow_lt_pow_right₀ one_lt_two hjk

/-- The double is finite, and its absolute value is not above the bound. -/
def IsWithin (c : ℚ) (x : Float) : Prop :=
  x.isFinite = true ∧ magnitude x.toModel.unpack ≤ c

instance (c : ℚ) (x : Float) : Decidable (IsWithin c x) :=
  inferInstanceAs (Decidable (_ ∧ _))

/-- The double is positive and not below the bound. -/
def IsAbove (c : ℚ) (x : Float) : Prop :=
  x.toModel.unpack = .infinity .positive ∨
    ∃ m e hm, x.toModel.unpack = .finite .positive m e hm ∧ c ≤ m * 2 ^ e

variable {a b c d : ℚ} {x y : Float}

theorem IsWithin.mono (hx : IsWithin a x) (hab : a ≤ b) : IsWithin b x :=
  ⟨hx.1, hx.2.trans hab⟩

theorem IsWithin.nonneg (hx : IsWithin a x) : 0 ≤ a :=
  (magnitude_nonneg _).trans hx.2

theorem RoundsTo.isWithin_of_magnitude_le {s : Sign} {v : ℚ} {u : UnpackedFloat}
    (hu : RoundsTo s v u) (hc : IsBound c) (hmagnitude : magnitude u ≤ c) :
    IsWithin c (.ofModel (.pack u)) := by
  have hpacked : (Float.Model.pack u).unpack = u := hu.unpack_pack (hmagnitude.trans_lt hc.lt)
  constructor
  · change (Float.Model.pack u).unpack.isFinite = true
    rw [hpacked]
    exact hu.isFinite
  · change magnitude (Float.Model.pack u).unpack ≤ c
    rwa [hpacked]

theorem RoundsTo.isWithin {s : Sign} {v : ℚ} {u : UnpackedFloat} (hu : RoundsTo s v u)
    (hc : IsBound c) (hle : v ≤ c) : IsWithin c (.ofModel (.pack u)) :=
  hu.isWithin_of_magnitude_le hc (hu.magnitude_le c hc.isRepresentable hle)

/-- What exceeds a power of two by little is rounded to it. -/
theorem RoundsTo.isWithin_two_pow {s : Sign} {v : ℚ} {u : UnpackedFloat} (hu : RoundsTo s v u)
    {k : ℕ} (hk : k < 1024) (hlt : v < 2 ^ k + 2 ^ k / 2 ^ 53) :
    IsWithin (2 ^ k) (.ofModel (.pack u)) :=
  hu.isWithin_of_magnitude_le (isBound_two_pow hk) (hu.magnitude_le_two_pow k hlt)

theorem RoundsTo.isAbove {v : ℚ} {u : UnpackedFloat} (hu : RoundsTo .positive v u)
    (hd : IsRepresentable d) (hpos : 0 < d) (hle : d ≤ v) : IsAbove d (.ofModel (.pack u)) := by
  have hmagnitude : d ≤ magnitude u := hu.le_magnitude d hd hle
  rcases hu.hasSign with rfl | ⟨m, e, hm, rfl⟩
  · exact absurd hmagnitude (not_le.mpr hpos)
  · rcases le_or_gt e 971 with hsmall | hlarge
    · exact Or.inr ⟨m, e, hm, unpack_pack_finite hu.canonical hsmall, hmagnitude⟩
    · exact Or.inl (unpack_pack_of_lt hlarge)

theorem isAbove_infinity : IsAbove d (.ofModel (.pack (.infinity .positive))) :=
  Or.inl rfl

namespace IsWithin

theorem add (hx : IsWithin a x) (hy : IsWithin b y) (hc : IsBound c) (hle : a + b ≤ c) :
    IsWithin c (x + y) := by
  obtain ⟨s, v, hv, hround⟩ :=
    add_roundsTo hx.1 hy.1 (isCanonical_unpack x.toModel) (isCanonical_unpack y.toModel)
  exact hround.isWithin hc (hv.trans ((add_le_add hx.2 hy.2).trans hle))

theorem sub (hx : IsWithin a x) (hy : IsWithin b y) (hc : IsBound c) (hle : a + b ≤ c) :
    IsWithin c (x - y) := by
  obtain ⟨s, v, hv, hround⟩ :=
    sub_roundsTo hx.1 hy.1 (isCanonical_unpack x.toModel) (isCanonical_unpack y.toModel)
  exact hround.isWithin hc (hv.trans ((add_le_add hx.2 hy.2).trans hle))

/-- However often a number is raised by small amounts, it does not pass the bound. -/
theorem add_small {k : ℕ} (hx : IsWithin (2 ^ k) x) (hy : IsWithin b y) (hk : k < 1024)
    (hb : b < 2 ^ k / 2 ^ 53) : IsWithin (2 ^ k) (x + y) := by
  obtain ⟨s, v, hv, hround⟩ :=
    add_roundsTo hx.1 hy.1 (isCanonical_unpack x.toModel) (isCanonical_unpack y.toModel)
  exact hround.isWithin_two_pow hk (hv.trans_lt (add_lt_add_of_le_of_lt hx.2 (hy.2.trans_lt hb)))

/-- However often a number is lowered by small amounts, it does not pass the bound. -/
theorem sub_small {k : ℕ} (hx : IsWithin (2 ^ k) x) (hy : IsWithin b y) (hk : k < 1024)
    (hb : b < 2 ^ k / 2 ^ 53) : IsWithin (2 ^ k) (x - y) := by
  obtain ⟨s, v, hv, hround⟩ :=
    sub_roundsTo hx.1 hy.1 (isCanonical_unpack x.toModel) (isCanonical_unpack y.toModel)
  exact hround.isWithin_two_pow hk (hv.trans_lt (add_lt_add_of_le_of_lt hx.2 (hy.2.trans_lt hb)))

theorem mul (hx : IsWithin a x) (hy : IsWithin b y) (hc : IsBound c) (hle : a * b ≤ c) :
    IsWithin c (x * y) := by
  obtain ⟨s, hround⟩ :=
    mul_roundsTo hx.1 hy.1 (isCanonical_unpack x.toModel) (isCanonical_unpack y.toModel)
  exact hround.isWithin hc
    ((mul_le_mul hx.2 hy.2 (magnitude_nonneg _) hx.nonneg).trans hle)

theorem div (hx : IsWithin a x) (hy : IsAbove b y) (hb : 0 < b) (hc : IsBound c)
    (hle : a / b ≤ c) : IsWithin c (x / y) := by
  have hzero : ∀ s, IsWithin c (.ofModel (.pack (.zero s))) := fun s =>
    (zero_roundsTo s).isWithin hc ((div_nonneg hx.nonneg hb.le).trans hle)
  change IsWithin c (.ofModel (.pack (UnpackedFloat.div Format.binary64 _ _)))
  obtain ⟨s, hsign⟩ := isFinite_iff.mp hx.1
  rcases hy with hinfinite | ⟨n, f, hn, hfinite, hbelow⟩
  · rcases hsign with hx0 | ⟨m, e, hm, hx1⟩
    · rw [hx0, hinfinite]
      exact hzero _
    · rw [hx1, hinfinite]
      exact hzero _
  · rcases hsign with hx0 | ⟨m, e, hm, hx1⟩
    · rw [hx0, hfinite]
      exact hzero _
    · have hmagnitude : (m : ℚ) * 2 ^ e ≤ a := by
        have hle' := hx.2
        rwa [hx1] at hle'
      rw [hx1, hfinite]
      refine (div_isRounding s .positive hm hn).roundsTo.isWithin hc (le_trans ?_ hle)
      exact div_le_div₀ hx.nonneg hmagnitude hb hbelow

end IsWithin

namespace IsAbove

theorem mono (hx : IsAbove b x) (hab : a ≤ b) : IsAbove a x := by
  rcases hx with hinfinite | ⟨m, e, hm, hfinite, hle⟩
  · exact Or.inl hinfinite
  · exact Or.inr ⟨m, e, hm, hfinite, hab.trans hle⟩

theorem add (hx : IsAbove a x) (hy : IsAbove b y) (hd : IsRepresentable d) (hpos : 0 < d)
    (hle : d ≤ a + b) : IsAbove d (x + y) := by
  change IsAbove d (.ofModel (.pack (UnpackedFloat.add Format.binary64 _ _)))
  rcases hx with hx | ⟨m, e, hm, hx, hxa⟩ <;> rcases hy with hy | ⟨n, f, hn, hy, hyb⟩ <;>
    rw [hx, hy]
  · exact isAbove_infinity
  · exact isAbove_infinity
  · exact isAbove_infinity
  · simp only [UnpackedFloat.add, decreaseExponent_of_le (min_le_left e f),
      decreaseExponent_of_le (min_le_right e f)]
    have hlong : 0 < m <<< (e - min e f).toNat + n <<< (f - min e f).toNat :=
      Nat.add_pos_left (Nat.shiftLeft_pos_iff.mpr hm) _
    have hround := normalize_roundsTo_of_pos hlong (min e f) .positive
    rw [aligned_sum] at hround
    exact hround.isAbove hd hpos (hle.trans (add_le_add hxa hyb))

theorem mul (hx : IsAbove a x) (hy : IsAbove b y) (hb : 0 ≤ b) (hd : IsRepresentable d)
    (hpos : 0 < d) (hle : d ≤ a * b) : IsAbove d (x * y) := by
  have hcx := isCanonical_unpack x.toModel
  have hcy := isCanonical_unpack y.toModel
  change IsAbove d (.ofModel (.pack (UnpackedFloat.mul Format.binary64 _ _)))
  rcases hx with hx | ⟨m, e, hm, hx, hxa⟩ <;> rcases hy with hy | ⟨n, f, hn, hy, hyb⟩ <;>
    rw [hx, hy]
  · exact isAbove_infinity
  · exact isAbove_infinity
  · exact isAbove_infinity
  · rw [hx] at hcx
    rw [hy] at hcy
    have hround : RoundsTo .positive (m * 2 ^ e * (n * 2 ^ f)) _ :=
      (mul_isRounding .positive .positive hm hn (exponent_mul_le hcx hcy)).roundsTo
    refine hround.isAbove hd hpos (hle.trans ?_)
    exact mul_le_mul hxa hyb hb (mul_nonneg (Nat.cast_nonneg m) (two_zpow_pos e).le)

theorem div (hx : IsAbove a x) {n : ℕ} {f : ℤ} {hn : 0 < n}
    (hy : y.toModel.unpack = .finite .positive n f hn) (hd : IsRepresentable d) (hpos : 0 < d)
    (hle : d * (n * 2 ^ f) ≤ a) : IsAbove d (x / y) := by
  change IsAbove d (.ofModel (.pack (UnpackedFloat.div Format.binary64 _ _)))
  rw [hy]
  rcases hx with hx | ⟨m, e, hm, hx, hxa⟩
  · rw [hx]
    exact isAbove_infinity
  · rw [hx]
    have hround : RoundsTo .positive (m * 2 ^ e / (n * 2 ^ f)) _ :=
      (div_isRounding .positive .positive hm hn).roundsTo
    refine hround.isAbove hd hpos ?_
    rw [le_div_iff₀ (mul_pos (Nat.cast_pos.mpr hn) (two_zpow_pos f))]
    exact hle.trans hxa

end IsAbove

/-! ## Counts and constants -/

theorem unpack_one : (1.0 : Float).toModel.unpack = .finite .positive (2 ^ 52) (-52) (by decide) :=
  rfl

theorem isWithin_one : IsWithin 1 1.0 := by
  decide +kernel

theorem isAbove_one : IsAbove 1 1.0 :=
  Or.inr ⟨_, _, _, unpack_one, by norm_num⟩

theorem isRepresentable_one : IsRepresentable 1 :=
  ⟨1, 0, by norm_num, by norm_num, by norm_num⟩

theorem ofNat_of_lt {n : ℕ} (hn : n < 2 ^ 53) :
    Float.ofNat n = n.toUInt64.toFloat * Float.ofBits 0x3FF0000000000000 := by
  unfold Float.ofNat
  change Float.ofScientific n false 0 = _
  unfold Float.ofScientific
  rw [dif_pos ⟨hn, by decide⟩]
  rfl

theorem toFloat_toUInt64 {n : ℕ} (hn : n < 2 ^ 53) :
    n.toUInt64.toFloat =
      .ofModel (.pack (UnpackedFloat.normalize Format.binary64 n 0 .positive)) := by
  have hcount : n.toUInt64.toNat = n := by
    rw [Nat.toUInt64_eq, UInt64.toNat_ofNat', Nat.mod_eq_of_lt (by omega)]
  change Float.ofModel
    (.pack (UnpackedFloat.normalize Format.binary64 n.toUInt64.toNat 0 .positive)) = _
  rw [hcount]

/-- From `2 ^ 53` on a count is the product of its significand and a power of ten, which is one. -/
theorem ofNat_roundsTo_of_ge {n : ℕ} (hn : 2 ^ 53 ≤ n) :
    ∃ u, RoundsTo .positive n u ∧ Float.ofNat n = .ofModel (.pack u) := by
  have hpos : n ≠ 0 := by omega
  have htarget : (-53 : ℤ) ≤ Format.binary64.targetExponent
      (totalExponent (n <<< 53 * 10 ^ 0) (-53)) := by
    rw [targetExponent_eq, pow_zero, mul_one, log2_shiftLeft hpos]
    omega
  have hvalue : ((n <<< 53 * 10 ^ 0 : ℕ) : ℚ) * 2 ^ (-53 : ℤ) = n := by
    rw [Nat.shiftLeft_eq]
    push_cast
    norm_num
    ring
  have hround := roundWithAccuracy_roundsTo .positive (.exact _) htarget
  rw [hvalue] at hround
  refine ⟨_, hround, ?_⟩
  unfold Float.ofNat
  change Float.ofScientific n false 0 = _
  unfold Float.ofScientific
  rw [dif_neg (fun hfast => absurd hfast.1 (not_lt.mpr hn))]
  change Float.ofModel (.pack (UnpackedFloat.ofScientific Format.binary64 n 0)) = _
  unfold UnpackedFloat.ofScientific
  have hnot : ¬(0 : ℤ) < -((2 ^ 11 : ℤ) + n.log2) := by omega
  rw [dif_neg hpos, if_neg (by decide), if_neg hnot, if_pos (le_refl 0)]
  rfl

theorem isWithin_ofNat {n k : ℕ} (hn : n ≤ 2 ^ k) (hk : k < 1024) :
    IsWithin (2 ^ k) (Float.ofNat n) := by
  have hn' : (n : ℚ) ≤ 2 ^ k := by exact_mod_cast hn
  rcases lt_or_ge n (2 ^ 53) with hsmall | hlarge
  · have hword : IsWithin (2 ^ k) n.toUInt64.toFloat := by
      obtain ⟨s, hs⟩ := normalize_roundsTo n 0 .positive
      rw [Int.natAbs_natCast, zpow_zero, mul_one] at hs
      rw [toFloat_toUInt64 hsmall]
      exact hs.isWithin (isBound_two_pow hk) hn'
    have hfactor : IsWithin 1 (Float.ofBits 0x3FF0000000000000) := by decide +kernel
    rw [ofNat_of_lt hsmall]
    exact hword.mul hfactor (isBound_two_pow hk) (mul_one _).le
  · obtain ⟨u, hu, heq⟩ := ofNat_roundsTo_of_ge hlarge
    rw [heq]
    exact hu.isWithin (isBound_two_pow hk) hn'

/-- A count of at least one is not rounded below one, however large it is. -/
theorem isAbove_ofNat {n : ℕ} (hn : 0 < n) : IsAbove 1 (Float.ofNat n) := by
  have hn' : (1 : ℚ) ≤ n := by exact_mod_cast hn
  rcases lt_or_ge n (2 ^ 53) with hsmall | hlarge
  · have hword : IsAbove 1 n.toUInt64.toFloat := by
      have hs := normalize_roundsTo_of_pos hn 0 .positive
      rw [zpow_zero, mul_one] at hs
      rw [toFloat_toUInt64 hsmall]
      exact hs.isAbove isRepresentable_one one_pos hn'
    have hfactor : IsAbove 1 (Float.ofBits 0x3FF0000000000000) :=
      Or.inr ⟨2 ^ 52, -52, by decide, rfl, by norm_num⟩
    rw [ofNat_of_lt hsmall]
    exact hword.mul hfactor zero_le_one isRepresentable_one one_pos (mul_one 1).ge
  · obtain ⟨u, hu, heq⟩ := ofNat_roundsTo_of_ge hlarge
    rw [heq]
    exact hu.isAbove isRepresentable_one one_pos hn'

theorem unpack_floor :
    (1e-8 : Float).toModel.unpack = .finite .positive 6044629098073146 (-79) (by decide) :=
  rfl

/-- What lies above the floor of a divisor is no smaller than the power of two below it. -/
theorem isAbove_of_floor_lt (hx : 1e-8 < x) : IsAbove (2 ^ (-27 : ℤ)) x := by
  obtain ⟨p, hp, q, hq, hpq⟩ := float_lt_iff.mp hx
  rw [unpack_floor] at hp
  obtain rfl := Option.mem_some_iff.mp hp
  have hcanonical := isCanonical_unpack x.toModel
  cases hunpack : x.toModel.unpack with
  | notANumber =>
      rw [hunpack] at hq
      cases hq
  | zero s =>
      rw [hunpack] at hq
      obtain rfl := Option.mem_some_iff.mp hq
      simp [Prod.Lex.toLex_lt_toLex] at hpq
  | infinity s =>
      cases s with
      | positive => exact Or.inl hunpack
      | negative =>
          rw [hunpack] at hq
          obtain rfl := Option.mem_some_iff.mp hq
          simp [Prod.Lex.toLex_lt_toLex] at hpq
  | finite s m e hm =>
      cases s with
      | negative =>
          rw [hunpack] at hq
          obtain rfl := Option.mem_some_iff.mp hq
          simp [Prod.Lex.toLex_lt_toLex] at hpq
      | positive =>
          rw [hunpack] at hq hcanonical
          obtain rfl := Option.mem_some_iff.mp hq
          have hplace : -79 ≤ e := by
            simp only [Prod.Lex.toLex_lt_toLex, lt_self_iff_false, true_and, false_or] at hpq
            rcases hpq with hlt | ⟨heq, -⟩
            · exact hlt.le
            · exact heq.le
          have hlong : 2 ^ 52 ≤ m := hcanonical.2.2.resolve_right (by omega)
          have hlong' : (2 : ℚ) ^ 52 ≤ m := by exact_mod_cast hlong
          refine Or.inr ⟨m, e, hm, hunpack, ?_⟩
          calc (2 : ℚ) ^ (-27 : ℤ) = 2 ^ 52 * 2 ^ (-79 : ℤ) := by norm_num
            _ ≤ m * 2 ^ e := mul_le_mul hlong' (zpow_le_zpow_right₀ one_le_two hplace)
              (two_zpow_pos _).le (Nat.cast_nonneg m)

theorem isAbove_atLeast (x : Float) : IsAbove (2 ^ (-27 : ℤ)) (Scalar.atLeast 1e-8 x) := by
  unfold Scalar.atLeast
  split
  next hlt => exact isAbove_of_floor_lt hlt
  next => exact Or.inr ⟨_, _, _, unpack_floor, by norm_num⟩

theorem IsWithin.atLeast (hx : IsWithin c x) (hy : IsWithin c y) :
    IsWithin c (Scalar.atLeast y x) := by
  unfold Scalar.atLeast
  split
  · exact hx
  · exact hy

/-! ## Sums -/

/-- A running sum stops growing where its terms are small beside it, so that no number of terms
takes it past the bound. -/
theorem isWithin_foldl_add {k : ℕ} {xs : List Float} (hxs : ∀ x ∈ xs, IsWithin (2 ^ k) x)
    (hk : k + 54 < 1024) {total : Float} (htotal : IsWithin (2 ^ (k + 54)) total) :
    IsWithin (2 ^ (k + 54)) (xs.foldl (· + ·) total) := by
  induction xs generalizing total with
  | nil => exact htotal
  | cons x rest ih =>
      obtain ⟨hx, hrest⟩ := List.forall_mem_cons.mp hxs
      exact ih hrest (htotal.add_small hx hk (two_pow_lt_two_pow_div (by omega)))

theorem isWithin_sum {k : ℕ} {xs : List Float} (hxs : ∀ x ∈ xs, IsWithin (2 ^ k) x)
    (hk : k + 54 < 1024) : IsWithin (2 ^ (k + 54)) (Scalar.sum xs) := by
  have hzero : IsWithin 0 0.0 := by decide +kernel
  exact isWithin_foldl_add hxs hk (hzero.mono (by positivity))

end SocketRanking.Number
