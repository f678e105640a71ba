import Mathlib.Algebra.Order.Group.Int
import Mathlib.Algebra.Order.Ring.Rat
import Mathlib.Data.Prod.Lex
import Mathlib.Tactic.NormNum
import SocketRanking.Number.Scalar

/-!
# Laws of comparison

`Scalar` gives the scoring rules their operations and promises nothing about
them.  The theory of the cache and of the ranking needs a few laws of
comparison, collected in `LawfulScalar`.  Bounds from below need two more, in
`LawfulOrder`, the choice of a winner needs comparisons that chain, in
`TransitiveOrder`, and that its score does not depend on the order of the sockets
needs comparisons that tell positive quantities apart, in `SeparatedOrder`.
Doubles satisfy them although a quantity that is no number is not even equal to
itself, and so do the rationals.

For doubles every law is read off `Number.standing`, which places the doubles
that are numbers in a linear order.
-/

namespace SocketRanking

/-- Laws of comparison for scalars. -/
class LawfulScalar (α : Type) [Scalar α] : Prop where
  lt_asymm {a b : α} : a < b → ¬b < a
  lt_of_lt_of_beq {a b c : α} : a < b → (b == c) = true → a < c
  /-- What lies below something is a number, and equal to itself. -/
  beq_self_of_lt {a b : α} : a < b → (a == a) = true
  minusOne_lt_floor : (-1.0 : α) < 1e-8
  rankLE_total (a b : α) : Scalar.rankLE a b = true ∨ Scalar.rankLE b a = true
  rankLE_trans {a b c : α} :
    Scalar.rankLE a b = true → Scalar.rankLE b c = true → Scalar.rankLE a c = true

/-- Laws that tie the weak comparison to the strict one. -/
class LawfulOrder (α : Type) [Scalar α] : Prop extends LawfulScalar α where
  le_of_lt {a b : α} : a < b → a ≤ b
  /-- What lies above something is a number, and not above itself. -/
  le_self_of_lt {a b : α} : a < b → b ≤ b

/-- Laws by which comparisons follow from one another. -/
class TransitiveOrder (α : Type) [Scalar α] : Prop extends LawfulOrder α where
  lt_trans {a b c : α} : a < b → b < c → a < c
  lt_of_lt_of_le {a b c : α} : a < b → b ≤ c → a < c

/-- Positive quantities of which neither lies below the other are the same. -/
class SeparatedOrder (α : Type) [Scalar α] : Prop extends TransitiveOrder α where
  eq_of_not_lt {a b : α} : 0.0 < a → 0.0 < b → ¬a < b → ¬b < a → a = b

/-! ## Doubles -/

namespace Number

open Float.Model Float.Model.UnpackedFloat

/-- Where a double stands in the order of quantities: by sign and kind, then by
magnitude.  What is no number stands nowhere. -/
def standing : UnpackedFloat → Option (Int ×ₗ Int ×ₗ Int)
  | .notANumber => none
  | .infinity .negative => some (toLex (-2, toLex (0, 0)))
  | .finite .negative m e _ => some (toLex (-1, toLex (-e, -m)))
  | .zero _ => some (toLex (0, toLex (0, 0)))
  | .finite .positive m e _ => some (toLex (1, toLex (e, m)))
  | .infinity .positive => some (toLex (2, toLex (0, 0)))

theorem lt_iff_standing (a b : UnpackedFloat) :
    a.lt b = true ↔ ∃ x ∈ standing a, ∃ y ∈ standing b, x < y := by
  change (a.compare b == some .lt) = true ↔ _
  rcases a with (_ | _) | _ | (_ | _) | ⟨_ | _, m, e, hm⟩ <;>
    rcases b with (_ | _) | _ | (_ | _) | ⟨_ | _, m', e', hm'⟩ <;>
    dsimp only [UnpackedFloat.compare, standing] <;>
    simp [Prod.Lex.toLex_lt_toLex, Ordering.then_eq_lt]
  -- What `simp` leaves: opposite infinities, and two finite doubles of one sign.
  · rfl
  · rw [Ordering.then_eq_gt, Int.compare_eq_gt, compare_eq_iff_eq, Nat.compare_eq_gt]
  · rw [Int.compare_eq_lt, Nat.compare_eq_lt]

theorem beq_iff_standing (a b : UnpackedFloat) :
    a.beq b = true ↔ ∃ x ∈ standing a, x ∈ standing b := by
  change (a.compare b == some .eq) = true ↔ _
  rcases a with (_ | _) | _ | (_ | _) | ⟨_ | _, m, e, hm⟩ <;>
    rcases b with (_ | _) | _ | (_ | _) | ⟨_ | _, m', e', hm'⟩ <;>
    dsimp only [UnpackedFloat.compare, standing] <;> simp
  · rfl
  · rfl
  · rw [eq_comm, @eq_comm ℕ]
  · rw [eq_comm, @eq_comm ℕ]

theorem le_iff_lt_or_beq (a b : UnpackedFloat) :
    a.le b = true ↔ a.lt b = true ∨ a.beq b = true := by
  change (a.compare b).any Ordering.isLE = true ↔
    (a.compare b == some .lt) = true ∨ (a.compare b == some .eq) = true
  rcases a.compare b with _ | ⟨_ | _ | _⟩ <;> simp

end Number

open Number

theorem float_lt_iff {a b : Float} :
    a < b ↔ ∃ x ∈ standing a.toModel.unpack, ∃ y ∈ standing b.toModel.unpack,
      x < y := by
  have hlt : a < b ↔ a.toModel.unpack.lt b.toModel.unpack = true := by
    change decide (a.toModel < b.toModel) = true ↔ _
    exact decide_eq_true_iff
  exact hlt.trans (lt_iff_standing _ _)

theorem float_beq_iff {a b : Float} :
    (a == b) = true ↔ ∃ x ∈ standing a.toModel.unpack,
      x ∈ standing b.toModel.unpack :=
  beq_iff_standing a.toModel.unpack b.toModel.unpack

theorem float_le_iff {a b : Float} : a ≤ b ↔ a < b ∨ (a == b) = true := by
  have hle : a ≤ b ↔ a.toModel.unpack.le b.toModel.unpack = true := by
    change decide (a.toModel ≤ b.toModel) = true ↔ _
    exact decide_eq_true_iff
  rw [hle, le_iff_lt_or_beq, float_lt_iff, float_beq_iff, lt_iff_standing, beq_iff_standing]

instance : LawfulScalar Float where
  lt_asymm {a b} hab hba := by
    obtain ⟨x, hx, y, hy, hxy⟩ := float_lt_iff.mp hab
    obtain ⟨y', hy', x', hx', hyx⟩ := float_lt_iff.mp hba
    obtain rfl := Option.mem_unique hx hx'
    obtain rfl := Option.mem_unique hy hy'
    exact lt_asymm hxy hyx
  lt_of_lt_of_beq {a b c} hab hbc := by
    obtain ⟨x, hx, y, hy, hxy⟩ := float_lt_iff.mp hab
    obtain ⟨y', hy', hc⟩ := float_beq_iff.mp hbc
    obtain rfl := Option.mem_unique hy hy'
    exact float_lt_iff.mpr ⟨x, hx, y, hc, hxy⟩
  beq_self_of_lt {a b} hab := by
    obtain ⟨x, hx, -⟩ := float_lt_iff.mp hab
    exact float_beq_iff.mpr ⟨x, hx, hx⟩
  minusOne_lt_floor := by decide
  rankLE_total a b := by
    rcases le_total (rank a) (rank b) with hab | hba
    · exact Or.inl (decide_eq_true hab)
    · exact Or.inr (decide_eq_true hba)
  rankLE_trans hab hbc :=
    decide_eq_true (le_trans (of_decide_eq_true hab) (of_decide_eq_true hbc))

instance : LawfulOrder Float where
  le_of_lt hab := float_le_iff.mpr (Or.inl hab)
  le_self_of_lt {a b} hab := by
    obtain ⟨x, hx, y, hy, hxy⟩ := float_lt_iff.mp hab
    exact float_le_iff.mpr (Or.inr (float_beq_iff.mpr ⟨y, hy, hy⟩))

theorem float_lt_trans {a b c : Float} (hab : a < b) (hbc : b < c) : a < c := by
  obtain ⟨x, hx, y, hy, hxy⟩ := float_lt_iff.mp hab
  obtain ⟨y', hy', z, hz, hyz⟩ := float_lt_iff.mp hbc
  obtain rfl := Option.mem_unique hy hy'
  exact float_lt_iff.mpr ⟨x, hx, z, hz, hxy.trans hyz⟩

instance : TransitiveOrder Float where
  lt_trans := float_lt_trans
  lt_of_lt_of_le {a b c} hab hbc := by
    rcases float_le_iff.mp hbc with hlt | hbeq
    · exact float_lt_trans hab hlt
    · exact LawfulScalar.lt_of_lt_of_beq hab hbeq

/-! ## Rationals -/

instance : LawfulScalar Rat where
  lt_asymm hab := Rat.not_lt.mpr (le_of_lt hab)
  lt_of_lt_of_beq hab hbc := by
    obtain rfl := eq_of_beq hbc
    exact hab
  beq_self_of_lt _ := beq_self_eq_true _
  minusOne_lt_floor := by
    change (-1.0 : ℚ) < 1e-8
    norm_num
  rankLE_total a b := by
    rcases le_total a b with hab | hba
    · exact Or.inl (decide_eq_true hab)
    · exact Or.inr (decide_eq_true hba)
  rankLE_trans hab hbc :=
    decide_eq_true (le_trans (of_decide_eq_true hab) (of_decide_eq_true hbc))

instance : LawfulOrder Rat where
  le_of_lt hab := Rat.le_of_lt hab
  le_self_of_lt _ := Rat.le_refl

instance : TransitiveOrder Rat where
  lt_trans hab hbc := hab.trans hbc
  lt_of_lt_of_le hab hbc := lt_of_lt_of_le hab hbc

instance : SeparatedOrder Rat where
  eq_of_not_lt _ _ hab hba := le_antisymm (not_lt.mp hba) (not_lt.mp hab)

end SocketRanking
