import Mathlib.Algebra.BigOperators.Fin
import SocketRanking.Proofs.Telemetry.Averages

/-!
# The recency-weighted mean

The mean is computed from deviations of the values from the newest one.  In exact
arithmetic it is the weighted mean in which the newest of `n` values weighs `n` and the
oldest one.  The laws of a weighted mean rest on two facts about the weighted sum:
what another value in one place does to it, and how it follows an affine change of
scale.
-/

namespace SocketRanking.Aggregate

variable {values : List ℚ}

/-- What makes a number the mean of values, newest first, that weigh the less the older
they are. -/
structure IsRecencyMean (values : List ℚ) (hvalues : values ≠ []) (mean : ℚ) : Prop where
  eq_sum : mean = (∑ j : Fin values.length, values[j] * (values.length - j)) /
    (values.length * (values.length + 1) / 2)
  min_le : values.min hvalues ≤ mean
  le_max : mean ≤ values.max hvalues
  constant : ∀ v, (∀ w ∈ values, w = v) → mean = v
  monotone : ∀ j (hj : j < values.length) v, values[j] ≤ v →
    ∃ raised, recencyWeighted (values.set j v) = some raised ∧ mean ≤ raised
  add_constant : ∀ c, recencyWeighted (values.map (· + c)) = some (mean + c)
  scale : ∀ c, recencyWeighted (values.map (c * ·)) = some (c * mean)
  newer_counts_more : ∀ i j (hij : i < j) (hj : j < values.length) d, 0 < d →
    ∃ newer older, recencyWeighted (values.set i (values[i] + d)) = some newer ∧
      recencyWeighted (values.set j (values[j] + d)) = some older ∧
      older - mean < newer - mean

/-! ## The weighted sum -/

theorem weightedSum_eq_sum (values : List ℚ) :
    weightedSum values = ∑ j : Fin values.length, values[j] * (values.length - j) := by
  induction values with
  | nil => rfl
  | cons v rest ih =>
      rw [weightedSum, ih]
      change _ = ∑ j : Fin (rest.length + 1), _
      rw [Fin.sum_univ_succ]
      simp
      ring

/-- Another value in one place moves the sum by the weight of the place. -/
theorem weightedSum_set {j : ℕ} (hj : j < values.length) (v : ℚ) :
    weightedSum (values.set j v) =
      weightedSum values + (v - values[j]) * (values.length - j) := by
  induction values generalizing j with
  | nil => simp at hj
  | cons first rest ih =>
      cases j with
      | zero =>
          rw [List.set_cons_zero, weightedSum, weightedSum]
          simp
          ring
      | succ j =>
          rw [List.set_cons_succ, weightedSum, weightedSum, ih (Nat.lt_of_succ_lt_succ hj)]
          simp
          ring

theorem weightedSum_map_affine (a b : ℚ) (values : List ℚ) :
    weightedSum (values.map fun v => a * v + b) =
      a * weightedSum values + b * totalWeight values.length := by
  induction values with
  | nil => simp [weightedSum, totalWeight]
  | cons v rest ih =>
      rw [List.map_cons, weightedSum, ih, weightedSum, List.length_cons, totalWeight_succ,
        List.length_map]
      ring

/-! ## The mean -/

theorem totalWeight_length_pos (hvalues : values ≠ []) : 0 < totalWeight values.length :=
  totalWeight_pos (List.length_pos_iff.mpr hvalues)

/-- Another value in one place moves the mean by its share of the total weight. -/
theorem recencyWeighted_set {j : ℕ} (hj : j < values.length) (v : ℚ) :
    recencyWeighted (values.set j v) =
      some (weightedSum values / totalWeight values.length +
        (v - values[j]) * (values.length - j) / totalWeight values.length) := by
  have hset : values.set j v ≠ [] := by
    rw [← List.length_pos_iff, List.length_set]
    exact Nat.zero_lt_of_lt hj
  rw [recencyWeighted_eq hset, weightedSum_set hj, List.length_set, add_div]

theorem recencyWeighted_map_affine (a b : ℚ) (hvalues : values ≠ []) :
    recencyWeighted (values.map fun v => a * v + b) =
      some (a * (weightedSum values / totalWeight values.length) + b) := by
  have hpos := totalWeight_length_pos hvalues
  rw [recencyWeighted_eq (List.map_eq_nil_iff.not.mpr hvalues), weightedSum_map_affine,
    List.length_map, add_div, mul_div_assoc, mul_div_cancel_right₀ b hpos.ne']

/-- In exact arithmetic values that are not empty have a recency-weighted mean: it is the
specified weighted sum, and it keeps the laws of a mean. -/
theorem recencyWeighted_isRecencyMean (values : List ℚ) (hvalues : values ≠ []) :
    ∃ mean, recencyWeighted values = some mean ∧ IsRecencyMean values hvalues mean := by
  have hpos := totalWeight_length_pos hvalues
  have hmean := recencyWeighted_eq hvalues
  have hlower : ∀ a, (∀ w ∈ values, a ≤ w) → a ≤ weightedSum values / totalWeight values.length :=
    fun a => (inheritedByAverages_ge a).recencyWeighted hmean
  have hupper : ∀ b, (∀ w ∈ values, w ≤ b) → weightedSum values / totalWeight values.length ≤ b :=
    fun b => (inheritedByAverages_le b).recencyWeighted hmean
  refine ⟨_, hmean, ?_⟩
  constructor
  case eq_sum => rw [weightedSum_eq_sum, totalWeight]
  case min_le => exact hlower _ fun w hw => List.min_le_of_mem hw
  case le_max => exact hupper _ fun w hw => List.le_max_of_mem hw
  case constant =>
    intro v hconstant
    exact le_antisymm (hupper v fun w hw => (hconstant w hw).le)
      (hlower v fun w hw => (hconstant w hw).ge)
  case monotone =>
    intro j hj v hv
    refine ⟨_, recencyWeighted_set hj v, le_add_of_nonneg_right ?_⟩
    have hweight : (j : ℚ) ≤ values.length := Nat.cast_le.mpr hj.le
    exact div_nonneg (mul_nonneg (sub_nonneg.mpr hv) (sub_nonneg.mpr hweight)) hpos.le
  case add_constant =>
    intro c
    simpa using recencyWeighted_map_affine 1 c hvalues
  case scale =>
    intro c
    simpa using recencyWeighted_map_affine c 0 hvalues
  case newer_counts_more =>
    intro i j hij hj d hd
    refine ⟨_, _, recencyWeighted_set (hij.trans hj) _, recencyWeighted_set hj _, ?_⟩
    have hweights : ((values.length : ℚ) - j) < values.length - i :=
      sub_lt_sub_left (Nat.cast_lt.mpr hij) _
    rw [add_sub_cancel_left, add_sub_cancel_left, add_sub_cancel_left, add_sub_cancel_left]
    exact (div_lt_div_iff_of_pos_right hpos).mpr (mul_lt_mul_of_pos_left hweights hd)

/-- Weights three, two and one over six. -/
theorem recencyWeighted_isRecencyMean_bench :
    recencyWeighted [6, 0, 3] = some (7 / 2 : ℚ) ∧
      IsRecencyMean [6, 0, 3] (List.cons_ne_nil _ _) (7 / 2) := by
  obtain ⟨mean, hmean, hlaws⟩ :=
    recencyWeighted_isRecencyMean [6, 0, 3] (List.cons_ne_nil _ _)
  have hvalue : recencyWeighted [6, 0, 3] = some (7 / 2 : ℚ) := by decide +kernel
  obtain rfl := Option.some.inj (hmean.symm.trans hvalue)
  exact ⟨hvalue, hlaws⟩

end SocketRanking.Aggregate
