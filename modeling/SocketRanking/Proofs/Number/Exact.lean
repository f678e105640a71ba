import Mathlib.Algebra.BigOperators.Group.List.Basic
import Mathlib.Algebra.Order.Ring.Rat
import Mathlib.Tactic.NormNum
import SocketRanking.Number.Scalar

/-!
# Exact arithmetic

Over the rationals the operations of `Scalar` are the usual ones, so that the rules
of ordered fields apply to what the scoring rules compute.
-/

namespace SocketRanking.Scalar

@[simp] theorem atLeast_eq_max (floor x : ℚ) : atLeast floor x = max floor x := by
  unfold atLeast
  split
  · next hlt => exact (max_eq_right (le_of_lt hlt)).symm
  · next hge => exact (max_eq_left (not_lt.mp hge)).symm

@[simp] theorem sum_eq (xs : List ℚ) : sum xs = xs.sum := by
  unfold sum
  rw [List.sum_eq_foldl]
  norm_num

@[simp] theorem ofCount_eq (n : ℕ) : (ofCount n : ℚ) = n :=
  rfl

end SocketRanking.Scalar
