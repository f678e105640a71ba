import SocketRanking.Proofs.Number.Magnitude

/-!
# Signed zeros

Zero is the only number with two doubles.  Operations may answer with one of them or with the
other depending on the zeros that they are given, but otherwise their results are the same,
so that the sign of a zero never makes a difference in number (`SameNumber`).  Adding zero to
a double gives the double back, bit by bit, unless it is the negative zero.
-/

namespace SocketRanking.Number

open Float.Model Float.Model.UnpackedFloat

/-- The double is one of the two zeros. -/
def IsZero (x : Float) : Prop :=
  x = 0.0 ∨ x = -0.0

/-- The doubles are the same, but for the sign of a zero. -/
def SameNumber (x y : Float) : Prop :=
  x = y ∨ IsZero x ∧ IsZero y

/-! ## Reading a bit pattern -/

theorem toBitVec_ofBitVec (v : BitVec 1) : (Sign.ofBitVec v).toBitVec = v := by
  rcases BitVec.eq_zero_or_eq_one v with rfl | rfl <;> rfl

/-- A bit pattern is made up of its fields. -/
theorem packComponents_fields (b : BitVec 64) :
    packComponents Format.binary64 (Sign.ofBitVec (@unpackSign Format.binary64 b))
      (@unpackExponent Format.binary64 b) (@unpackMantissa Format.binary64 b) = b := by
  have hexponent : b.toNat / 2 ^ 52 % 2 ^ 11 < 2 ^ 11 := Nat.mod_lt _ (by decide)
  have hmantissa : b.toNat % 2 ^ 52 < 2 ^ 52 := Nat.mod_lt _ (by decide)
  have hb := b.isLt
  apply BitVec.eq_of_toNat_eq
  simp only [packComponents, toBitVec_ofBitVec, BitVec.toNat_append, unpackSign, unpackExponent,
    unpackMantissa, BitVec.toNat_cast, BitVec.extractLsb_toNat, Nat.shiftRight_eq_div_pow]
  change ((b.toNat / 2 ^ 63 % 2) <<< 11 ||| b.toNat / 2 ^ 52 % 2 ^ 11) <<< 52 |||
    b.toNat / 1 % 2 ^ 52 = b.toNat
  rw [Nat.div_one, ← Nat.shiftLeft_add_eq_or_of_lt hexponent,
    ← Nat.shiftLeft_add_eq_or_of_lt hmantissa, Nat.shiftLeft_eq, Nat.shiftLeft_eq]
  omega

/-- Nothing is lost when a bit pattern is read, as there is only one that is no number. -/
theorem pack_unpack_bits {b : BitVec 64} (hb : Format.binary64.Valid b) :
    UnpackedFloat.pack Format.binary64 (UnpackedFloat.unpack Format.binary64 b) = b := by
  have hfields := packComponents_fields b
  have hmantissa : (@unpackMantissa Format.binary64 b).toNat < 2 ^ 52 := BitVec.isLt _
  have hexponent : (@unpackExponent Format.binary64 b).toNat < 2 ^ 11 := BitVec.isLt _
  unfold UnpackedFloat.unpack
  simp only [exponentBias_eq]
  split
  next hall =>
    split
    next hinfinite => rwa [hall, hinfinite] at hfields
    next hnumber => exact (hb.eq_packedNaN hall hnumber).symm
  next hbelow =>
    have hmax : (@unpackExponent Format.binary64 b).toNat ≠ 2047 := fun heq =>
      hbelow (BitVec.eq_of_toNat_eq heq)
    split
    next hleast =>
      split
      next hzero => rwa [hleast, hzero] at hfields
      next hpositive =>
        have hlog : (@unpackMantissa Format.binary64 b).toNat.log2 < 52 :=
          (Nat.log2_lt fun hzero => hpositive (BitVec.eq_of_toNat_eq hzero)).mpr hmantissa
        rw [hleast] at hfields ⊢
        rw [UnpackedFloat.pack, if_neg (by decide), if_neg, BitVec.ofNat_toNat, BitVec.setWidth_eq]
        · exact hfields
        · change _ + 1 ≠ 53
          omega
    next hnormal =>
      have hlog : (2 ^ 52 + (@unpackMantissa Format.binary64 b).toNat).log2 = 52 :=
        (Nat.log2_eq_iff (by omega)).mpr ⟨by omega, by omega⟩
      have hbiased : BitVec.ofNat 11 (((@unpackExponent Format.binary64 b).toNat : ℤ) -
          (((1023 : ℕ) : ℤ) + ((52 : ℕ) : ℤ)) + 1075).toNat =
          @unpackExponent Format.binary64 b := by
        apply BitVec.eq_of_toNat_eq
        rw [BitVec.toNat_ofNat]
        omega
      have hfraction : BitVec.ofNat 52 (2 ^ 52 + (@unpackMantissa Format.binary64 b).toNat) =
          @unpackMantissa Format.binary64 b := by
        apply BitVec.eq_of_toNat_eq
        rw [BitVec.toNat_ofNat]
        omega
      rw [UnpackedFloat.pack]
      simp only [toNat_append_one, biased_eq, hlog]
      rw [if_neg (by omega), hbiased, hfraction]
      exact hfields

theorem pack_unpack (x : Float.Model) : Float.Model.pack x.unpack = x := by
  have hbits : UnpackedFloat.pack Format.binary64 x.unpack = x.toBits.toBitVec :=
    pack_unpack_bits x.valid
  cases x
  simp only [Float.Model.pack, hbits]

theorem ofModel_pack_unpack (x : Float) : Float.ofModel (.pack x.toModel.unpack) = x := by
  rw [pack_unpack]

/-- Only zeros share their place in the order. -/
theorem eq_of_standing_eq {a b : UnpackedFloat} (hsame : standing a = standing b)
    (hnumber : standing a ≠ none) (hnonzero : standing a ≠ some (toLex (0, toLex (0, 0)))) :
    a = b := by
  rcases a with (_ | _) | _ | (_ | _) | ⟨_ | _, m, e, hm⟩ <;>
    rcases b with (_ | _) | _ | (_ | _) | ⟨_ | _, m', e', hm'⟩ <;>
    simp_all [standing]

instance : SeparatedOrder Float where
  eq_of_not_lt {a b} ha hb hab hba := by
    obtain ⟨z, hz, x, hx, hzx⟩ := float_lt_iff.mp ha
    obtain ⟨-, -, y, hy, -⟩ := float_lt_iff.mp hb
    have hsame : x = y := by
      refine le_antisymm (not_lt.mp fun hyx => ?_) (not_lt.mp fun hxy => ?_)
      · exact hba (float_lt_iff.mpr ⟨y, hy, x, hx, hyx⟩)
      · exact hab (float_lt_iff.mpr ⟨x, hx, y, hy, hxy⟩)
    have hzero : z = toLex (0, toLex (0, 0)) := Option.mem_unique hz rfl
    have hunpack : a.toModel.unpack = b.toModel.unpack := by
      apply eq_of_standing_eq
      · rw [hx, hy, hsame]
      · rw [hx]
        exact Option.some_ne_none x
      · rw [hx, ne_eq, Option.some.injEq, ← hzero]
        exact hzx.ne'
    rw [← ofModel_pack_unpack a, hunpack, ofModel_pack_unpack]

/-! ## Results that differ in the sign of a zero -/

/-- The same, but for the sign of a zero. -/
inductive Alike : UnpackedFloat → UnpackedFloat → Prop
  | refl (a : UnpackedFloat) : Alike a a
  | zeros (s t : Sign) : Alike (.zero s) (.zero t)

namespace Alike

variable {a a' b b' : UnpackedFloat}

theorem trans {c : UnpackedFloat} (hab : Alike a b) (hbc : Alike b c) : Alike a c := by
  cases hab with
  | refl => exact hbc
  | zeros s t =>
      cases hbc with
      | refl => exact .zeros s t
      | zeros _ r => exact .zeros s r

/-- An operation answers alike if it does so for the zeros on either side. -/
theorem of_zeros {op : UnpackedFloat → UnpackedFloat → UnpackedFloat}
    (hleft : ∀ s t b, Alike (op (.zero s) b) (op (.zero t) b))
    (hright : ∀ a s t, Alike (op a (.zero s)) (op a (.zero t)))
    (ha : Alike a a') (hb : Alike b b') : Alike (op a b) (op a' b') := by
  have hfirst : Alike (op a b) (op a' b) := by
    cases ha with
    | refl => exact .refl _
    | zeros s t => exact hleft s t b
  have hsecond : Alike (op a' b) (op a' b') := by
    cases hb with
    | refl => exact .refl _
    | zeros s t => exact hright a' s t
  exact hfirst.trans hsecond

theorem add (ha : Alike a a') (hb : Alike b b') :
    Alike (UnpackedFloat.add Format.binary64 a b) (UnpackedFloat.add Format.binary64 a' b') := by
  refine of_zeros (fun s t b => ?_) (fun a s t => ?_) ha hb
  · cases b with
    | zero r => cases r <;> cases s <;> cases t <;> exact .zeros _ _
    | _ => exact .refl _
  · cases a with
    | zero r => cases r <;> cases s <;> cases t <;> exact .zeros _ _
    | _ => exact .refl _

theorem sub (ha : Alike a a') (hb : Alike b b') :
    Alike (UnpackedFloat.sub Format.binary64 a b) (UnpackedFloat.sub Format.binary64 a' b') := by
  refine of_zeros (fun s t b => ?_) (fun a s t => ?_) ha hb
  · cases b with
    | zero r => cases r <;> cases s <;> cases t <;> exact .zeros _ _
    | _ => exact .refl _
  · cases a with
    | zero r => cases r <;> cases s <;> cases t <;> exact .zeros _ _
    | _ => exact .refl _

theorem mul_right (ha : Alike a a') (b : UnpackedFloat) :
    Alike (UnpackedFloat.mul Format.binary64 a b) (UnpackedFloat.mul Format.binary64 a' b) := by
  cases ha with
  | refl => exact .refl _
  | zeros s t => cases b <;> first | exact .refl _ | exact .zeros _ _

theorem div_right (ha : Alike a a') (b : UnpackedFloat) :
    Alike (UnpackedFloat.div Format.binary64 a b) (UnpackedFloat.div Format.binary64 a' b) := by
  cases ha with
  | refl => exact .refl _
  | zeros s t => cases b <;> first | exact .refl _ | exact .zeros _ _

/-- Doubles with bit patterns of results that differ in the sign of a zero. -/
theorem sameNumber (ha : Alike a a') :
    SameNumber (.ofModel (.pack a)) (.ofModel (.pack a')) := by
  cases ha with
  | refl => exact Or.inl rfl
  | zeros s t =>
      have hzero : ∀ r : Sign, IsZero (.ofModel (.pack (.zero r)))
        | .positive => Or.inl rfl
        | .negative => Or.inr rfl
      exact Or.inr ⟨hzero s, hzero t⟩

end Alike

theorem IsZero.exists_unpack {x : Float} (hx : IsZero x) : ∃ s, x.toModel.unpack = .zero s := by
  rcases hx with rfl | rfl
  · exact ⟨.positive, rfl⟩
  · exact ⟨.negative, rfl⟩

namespace SameNumber

variable {x x' y y' : Float}

theorem refl (x : Float) : SameNumber x x :=
  Or.inl rfl

theorem alike (hx : SameNumber x x') : Alike x.toModel.unpack x'.toModel.unpack := by
  rcases hx with rfl | ⟨hzero, hzero'⟩
  · exact .refl _
  · obtain ⟨s, hs⟩ := hzero.exists_unpack
    obtain ⟨t, ht⟩ := hzero'.exists_unpack
    rw [hs, ht]
    exact .zeros s t

theorem add (hx : SameNumber x x') (hy : SameNumber y y') : SameNumber (x + y) (x' + y') :=
  (hx.alike.add hy.alike).sameNumber

theorem sub (hx : SameNumber x x') (hy : SameNumber y y') : SameNumber (x - y) (x' - y') :=
  (hx.alike.sub hy.alike).sameNumber

theorem mul_right (hx : SameNumber x x') (w : Float) : SameNumber (x * w) (x' * w) :=
  (hx.alike.mul_right _).sameNumber

theorem div_right (hx : SameNumber x x') (w : Float) : SameNumber (x / w) (x' / w) :=
  (hx.alike.div_right _).sameNumber

end SameNumber

/-! ## Arithmetic with zero -/

variable {x : Float}

theorem sub_self_of_isFinite (hx : x.isFinite = true) : x - x = 0.0 := by
  change Float.ofModel (.pack (UnpackedFloat.sub Format.binary64 x.toModel.unpack _)) = 0.0
  obtain ⟨s, hzero | ⟨m, e, hm, hfinite⟩⟩ := isFinite_iff.mp hx
  · rw [hzero]
    cases s <;> rfl
  · rw [hfinite]
    simp only [UnpackedFloat.sub, sub_self]
    rfl

theorem zero_div_ofNat {n : ℕ} (hn : 0 < n) : 0.0 / Float.ofNat n = 0.0 := by
  change Float.ofModel (.pack (UnpackedFloat.div Format.binary64 (.zero .positive) _)) = 0.0
  rcases isAbove_ofNat hn with hinfinite | ⟨m, e, hm, hfinite, -⟩
  · rw [hinfinite]
    rfl
  · rw [hfinite]
    rfl

/-- Adding zero gives a double back, unless it is the negative zero. -/
theorem add_zero_cases (x : Float) : x + 0.0 = x ∨ x = -0.0 ∧ x + 0.0 = 0.0 := by
  have hx := ofModel_pack_unpack x
  cases hunpack : x.toModel.unpack with
  | zero s =>
      rw [hunpack] at hx
      subst hx
      cases s with
      | positive => exact Or.inl rfl
      | negative => exact Or.inr ⟨rfl, rfl⟩
  | _ =>
      left
      change Float.ofModel (.pack (UnpackedFloat.add Format.binary64 _ (.zero .positive))) = x
      rw [hunpack] at hx ⊢
      exact hx

theorem add_zero_of_ne (hx : x ≠ -0.0) : x + 0.0 = x :=
  (add_zero_cases x).resolve_right fun hnegative => hx hnegative.1

theorem sameNumber_add_zero (x : Float) : SameNumber (x + 0.0) x := by
  rcases add_zero_cases x with hback | ⟨hnegative, hzero⟩
  · exact Or.inl hback
  · exact Or.inr ⟨Or.inl hzero, Or.inr hnegative⟩

end SocketRanking.Number
