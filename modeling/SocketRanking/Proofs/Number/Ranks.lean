import SocketRanking.Proofs.Number.Binary

/-!
# Ranks and quantities

Hosts are ranked by the bit patterns of their scores.  Without its sign, a pattern holds the
exponent above the fraction, so that it grows with the magnitude; what stands lower among
the quantities therefore has the lower rank (`rank_lt_rank`).
-/

namespace SocketRanking

/-- The ranking order agrees with the strict comparison. -/
class RankedScalar (α : Type) [Scalar α] : Prop extends LawfulScalar α where
  not_rankLE_of_lt {a b : α} : a < b → ¬Scalar.rankLE b a = true

namespace Number

/-! ## Places of ranks -/

/-- The exponent of the double with a bit pattern, without regard to its sign. -/
def patternExponent (p : ℤ) : ℤ :=
  if p / 2 ^ 52 = 0 then -1074 else p / 2 ^ 52 - 1075

def patternSignificand (p : ℤ) : ℤ :=
  if p / 2 ^ 52 = 0 then p % 2 ^ 52 else 2 ^ 52 + p % 2 ^ 52

/-- The sign of the double with a rank, doubled for the infinities. -/
def kind (r : ℤ) : ℤ :=
  if r < -(2047 * 2 ^ 52) then -2
  else if r < -1 then -1
  else if r < 1 then 0
  else if r < 2047 * 2 ^ 52 then 1
  else 2

/-- Where the double with a rank stands among those of its kind. -/
def placeInKind (r : ℤ) : ℤ ×ₗ ℤ :=
  if kind r = 1 then toLex (patternExponent r, patternSignificand r)
  else if kind r = -1 then
    toLex (-patternExponent (-r - 1), -patternSignificand (-r - 1))
  else toLex (0, 0)

/-- Where the double with a rank stands. -/
def place (r : ℤ) : ℤ ×ₗ ℤ ×ₗ ℤ :=
  toLex (kind r, placeInKind r)

theorem pattern_mono {p q : ℤ} (hpq : p ≤ q) :
    patternExponent p < patternExponent q ∨
      patternExponent p = patternExponent q ∧ patternSignificand p ≤ patternSignificand q := by
  unfold patternExponent patternSignificand
  split_ifs <;> omega

theorem kind_mono {r s : ℤ} (hrs : r ≤ s) : kind r ≤ kind s := by
  grind [kind]

theorem place_mono : Monotone place := by
  intro r s hrs
  rw [place, place, Prod.Lex.toLex_le_toLex]
  rcases (kind_mono hrs).lt_or_eq with hlt | heq
  · exact Or.inl hlt
  · refine Or.inr ⟨heq, ?_⟩
    rw [placeInKind, placeInKind, heq]
    split
    · exact Prod.Lex.toLex_le_toLex.mpr (pattern_mono hrs)
    · split
      · have hpattern := pattern_mono (sub_le_sub_right (neg_le_neg hrs) 1)
        refine Prod.Lex.toLex_le_toLex.mpr (hpattern.imp neg_lt_neg ?_)
        rintro ⟨hexponent, hsignificand⟩
        exact ⟨congrArg Neg.neg hexponent.symm, neg_le_neg hsignificand⟩
      · exact le_rfl

theorem place_of_pos {r : ℤ} (hpos : 0 < r) (hlt : r < 2047 * 2 ^ 52) :
    place r = toLex (1, toLex (patternExponent r, patternSignificand r)) := by
  have hkind : kind r = 1 := by grind [kind]
  rw [place, placeInKind, hkind, if_pos rfl]

theorem place_of_neg {r : ℤ} (hneg : r < -1) (hle : -(2047 * 2 ^ 52) ≤ r) :
    place r =
      toLex (-1, toLex (-patternExponent (-r - 1), -patternSignificand (-r - 1))) := by
  have hkind : kind r = -1 := by grind [kind]
  rw [place, placeInKind, hkind, if_neg (by decide), if_pos rfl]

/-! ## Places of doubles -/

open Float.Model Float.Model.UnpackedFloat

variable {x y : Float}

theorem bits_lt (x : Float) : x.toBits.toNat < 2 ^ 64 :=
  x.toModel.toBits.toBitVec.isLt

/-- The parts of a double are those of its pattern, without its sign. -/
theorem parts_eq_pattern (x : Float) :
    (Binary.ofFloat x).exponent = patternExponent (x.toBits.toNat % 2 ^ 63 : ℕ) ∧
      ((Binary.ofFloat x).significand : ℤ) =
        patternSignificand (x.toBits.toNat % 2 ^ 63 : ℕ) := by
  rw [patternExponent, patternSignificand]
  by_cases hbiased : x.toBits.toNat / 2 ^ 52 % 2 ^ 11 = 0
  · obtain ⟨hsignificand, hexponent⟩ := Binary.ofFloat_of_biased_eq_zero hbiased
    rw [hsignificand, hexponent, if_pos (by omega), if_pos (by omega)]
    omega
  · obtain ⟨hsignificand, hexponent⟩ := Binary.ofFloat_of_biased_ne_zero hbiased
    rw [hsignificand, hexponent, if_neg (by omega), if_neg (by omega)]
    omega

theorem rank_of_lt (hnan : x.isNaN = false) (hbits : x.toBits.toNat < 2 ^ 63) :
    rank x = x.toBits.toNat := by
  rw [rank, hnan, if_neg Bool.false_ne_true]
  exact if_pos hbits

theorem rank_of_le (hnan : x.isNaN = false) (hbits : 2 ^ 63 ≤ x.toBits.toNat) :
    rank x = -(x.toBits.toNat - 2 ^ 63 : ℕ) - 1 := by
  rw [rank, hnan, if_neg Bool.false_ne_true]
  exact if_neg (Nat.not_lt.mpr hbits)

theorem sign_of_lt (hbits : x.toBits.toNat < 2 ^ 63) : (Binary.ofFloat x).sign = .positive := by
  have htop : x.toBits.toNat / 2 ^ 63 ≠ 1 := by omega
  exact if_neg (mt of_decide_eq_true htop)

theorem sign_of_le (hbits : 2 ^ 63 ≤ x.toBits.toNat) :
    (Binary.ofFloat x).sign = .negative := by
  have htop : x.toBits.toNat / 2 ^ 63 = 1 := by
    have hlt := bits_lt x
    omega
  exact if_pos (decide_eq_true htop)

theorem pattern_eq_zero_iff (x : Float) :
    x.toBits.toNat % 2 ^ 63 = 0 ↔ (Binary.ofFloat x).significand = 0 := by
  have hpattern := (parts_eq_pattern x).2
  rw [patternSignificand] at hpattern
  split_ifs at hpattern <;> omega

/-- The pattern of a finite double, without its sign, lies below that of infinity. -/
theorem pattern_lt_of_isFinite (hfinite : x.isFinite = true) :
    x.toBits.toNat % 2 ^ 63 < 2047 * 2 ^ 52 := by
  by_cases hm : (Binary.ofFloat x).significand = 0
  · rw [(pattern_eq_zero_iff x).mpr hm]
    decide
  · obtain ⟨-, -, hle, -⟩ := Binary.bounds hfinite (Nat.pos_of_ne_zero hm)
    rw [(parts_eq_pattern x).1, patternExponent] at hle
    split_ifs at hle <;> omega

theorem standing_of_isFinite (hfinite : x.isFinite = true) (hnan : x.isNaN = false) :
    standing x.toModel.unpack = some (place (rank x)) := by
  obtain ⟨hexponent, hsignificand⟩ := parts_eq_pattern x
  have hbits := bits_lt x
  have hpattern := pattern_lt_of_isFinite hfinite
  have hzero := pattern_eq_zero_iff x
  rw [unpack_eq hfinite]
  rcases Nat.lt_or_ge x.toBits.toNat (2 ^ 63) with hpositive | hnegative
  · rw [Nat.mod_eq_of_lt hpositive] at hexponent hsignificand hpattern hzero
    rw [rank_of_lt hnan hpositive]
    split
    next hm =>
      rw [hzero.mpr hm]
      rfl
    next hm =>
      have hpos := Nat.pos_of_ne_zero (mt hzero.mp hm)
      rw [sign_of_lt hpositive, place_of_pos (by omega) (by omega), ← hexponent, ← hsignificand]
      rfl
  · have hmod : x.toBits.toNat % 2 ^ 63 = x.toBits.toNat - 2 ^ 63 := by omega
    rw [hmod] at hexponent hsignificand hpattern hzero
    rw [rank_of_le hnan hnegative]
    split
    next hm =>
      rw [hzero.mpr hm]
      rfl
    next hm =>
      have hpos := Nat.pos_of_ne_zero (mt hzero.mp hm)
      rw [sign_of_le hnegative, place_of_neg (by omega) (by omega), neg_sub, sub_neg_eq_add,
        add_sub_cancel_left, ← hexponent, ← hsignificand]
      rfl

theorem parts_of_infinity {s : Sign} (hinfinity : x.toModel.unpack = .infinity s) :
    x.toBits.toNat % 2 ^ 63 = 2047 * 2 ^ 52 ∧ s = (Binary.ofFloat x).sign := by
  have hmantissa := unpackMantissa_toNat x
  have hexponent := unpackExponent_toNat x
  change UnpackedFloat.unpack Format.binary64 x.toModel.toBits.toBitVec = _ at hinfinity
  unfold UnpackedFloat.unpack at hinfinity
  simp only [ofBitVec_unpackSign x] at hinfinity
  split at hinfinity
  next htop =>
    rw [htop] at hexponent
    change 2047 = _ at hexponent
    split at hinfinity
    next hzero =>
      rw [hzero] at hmantissa
      change 0 = _ at hmantissa
      exact ⟨by omega, (infinity.inj hinfinity).symm⟩
    next => cases hinfinity
  next =>
    split at hinfinity
    · split at hinfinity <;> cases hinfinity
    · cases hinfinity

theorem standing_of_infinity {s : Sign} (hinfinity : x.toModel.unpack = .infinity s)
    (hnan : x.isNaN = false) : standing x.toModel.unpack = some (place (rank x)) := by
  obtain ⟨hpattern, hsign⟩ := parts_of_infinity hinfinity
  have hbits := bits_lt x
  rw [hinfinity, hsign]
  rcases Nat.lt_or_ge x.toBits.toNat (2 ^ 63) with hpositive | hnegative
  · have htop : x.toBits.toNat = 2047 * 2 ^ 52 := by omega
    rw [sign_of_lt hpositive, rank_of_lt hnan hpositive, htop]
    rfl
  · have htop : x.toBits.toNat - 2 ^ 63 = 2047 * 2 ^ 52 := by omega
    rw [sign_of_le hnegative, rank_of_le hnan hnegative, htop]
    rfl

/-- The rank of a double that is a number says where it stands. -/
theorem standing_eq_place (hnan : x.isNaN = false) :
    standing x.toModel.unpack = some (place (rank x)) := by
  cases hunpack : x.toModel.unpack with
  | notANumber =>
      have hnumber : x.toModel.unpack.isNaN = false := hnan
      rw [hunpack] at hnumber
      cases hnumber
  | infinity s => rw [← hunpack, standing_of_infinity hunpack hnan]
  | zero s =>
      have hfinite : x.toModel.unpack.isFinite = true := by rw [hunpack]; rfl
      rw [← hunpack, standing_of_isFinite hfinite hnan]
  | finite s m e hm =>
      have hfinite : x.toModel.unpack.isFinite = true := by rw [hunpack]; rfl
      rw [← hunpack, standing_of_isFinite hfinite hnan]

theorem isNaN_of_mem_standing {p : ℤ ×ₗ ℤ ×ₗ ℤ} (hp : p ∈ standing x.toModel.unpack) :
    x.isNaN = false := by
  change x.toModel.unpack.isNaN = false
  cases hunpack : x.toModel.unpack with
  | notANumber =>
      rw [hunpack] at hp
      cases hp
  | infinity s | zero s | finite s m e hm => rfl

/-- The smaller of two doubles has the lower rank. -/
theorem rank_lt_rank (hxy : x < y) : rank x < rank y := by
  obtain ⟨p, hp, q, hq, hpq⟩ := float_lt_iff.mp hxy
  have hx := standing_eq_place (isNaN_of_mem_standing hp)
  have hy := standing_eq_place (isNaN_of_mem_standing hq)
  obtain rfl := Option.some.inj (hx.symm.trans hp)
  obtain rfl := Option.some.inj (hy.symm.trans hq)
  exact place_mono.reflect_lt hpq

end Number

open Number

instance : RankedScalar Float where
  not_rankLE_of_lt hab := mt of_decide_eq_true (not_le.mpr (rank_lt_rank hab))

instance : RankedScalar Rat where
  not_rankLE_of_lt hab := mt of_decide_eq_true (not_le.mpr hab)

end SocketRanking
