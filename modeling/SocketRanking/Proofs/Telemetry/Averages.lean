import Mathlib.Algebra.Order.BigOperators.Group.List
import Mathlib.Tactic.FieldSimp
import Mathlib.Tactic.Linarith
import Mathlib.Tactic.Positivity
import Mathlib.Tactic.Ring
import SocketRanking.Proofs.Number.Exact
import SocketRanking.Proofs.Telemetry.Readings
import SocketRanking.Proofs.Telemetry.Slots
import SocketRanking.Scoring.Visit

/-!
# Averages of telemetry

What a visit measures is an average of readings, or an average of such averages over
time slots.  A property that averages inherit from the numbers that they are taken
of therefore passes from the readings of the store to what is measured.  In exact
arithmetic bounds are such properties: `recencyWeighted_eq` and `mean_eq` give the
two averages as weighted sums with positive weights.
-/

namespace SocketRanking

theorem MetricSet.get_of_require_eq_ok {α : Type} {s : MetricSet α} {m : Metric} {x : α}
    (hx : s.require m = .ok x) : s.get m = some x := by
  unfold MetricSet.require at hx
  split at hx
  next v hv =>
    obtain rfl : v = x := Except.ok.inj hx
    exact hv
  next => cases hx

/-! ## From readings to measurements -/

section Measurements

variable {α : Type} [Scalar α]

namespace Aggregate

/-- Averages of numbers with the property have it. -/
structure InheritedByAverages (P : α → Prop) : Prop where
  recencyWeighted {values : List α} {x : α} :
    recencyWeighted values = some x → (∀ v ∈ values, P v) → P x
  mean {values : List α} {x : α} : mean values = some x → (∀ v ∈ values, P v) → P x

theorem InheritedByAverages.and {P Q : α → Prop} (hP : InheritedByAverages P)
    (hQ : InheritedByAverages Q) : InheritedByAverages fun x => P x ∧ Q x where
  recencyWeighted hx hall :=
    ⟨hP.recencyWeighted hx fun v hv => (hall v hv).1,
      hQ.recencyWeighted hx fun v hv => (hall v hv).2⟩
  mean hx hall :=
    ⟨hP.mean hx fun v hv => (hall v hv).1, hQ.mean hx fun v hv => (hall v hv).2⟩

end Aggregate

open Aggregate

/-- Every reading of a metric that the store answers with has the property. -/
def Source.Reads (source : Source) (m : Metric) (P : α → Prop) : Prop :=
  ∀ q rows, source q = .ok rows → ∀ row ∈ rows, ∀ x : α, row.value m = .ok (some x) → P x

theorem Source.Reads.imp {source : Source} {m : Metric} {P Q : α → Prop}
    (hreads : source.Reads m P) (himp : ∀ x, P x → Q x) : source.Reads m Q :=
  fun q rows hrows row hrow x hx => himp x (hreads q rows hrows row hrow x hx)

theorem Call.answer_make_eq_ok {source : Source} {q : Query} {rows : List Sample}
    (hrows : (make source q).answer = .ok rows) : source q = .ok rows := by
  unfold make at hrows
  dsimp only at hrows
  split at hrows
  next hsource =>
    obtain rfl := Except.ok.inj hrows
    exact hsource
  all_goals cases hrows

variable {settings : Settings} {source : Source} {uuid : String} {socket : Socket}
  {P : α → Prop}

/-- What is measured of the performance of a socket are averages of an answer. -/
theorem exists_of_measurePerformance {metrics : MetricSet α}
    (hmeasured : (measurePerformance settings source uuid socket).result = .ok metrics) :
    ∃ q rows, source q = .ok rows ∧
      weightedAverage rows settings.strategy.fetched = .ok metrics := by
  unfold measurePerformance at hmeasured
  dsimp only at hmeasured
  split at hmeasured
  next rows hrows =>
    unfold unusable at hmeasured
    split at hmeasured
    next set hset =>
      obtain rfl := Except.ok.inj hmeasured
      exact ⟨_, rows, Call.answer_make_eq_ok hrows, hset⟩
    next => cases hmeasured
  next => cases hmeasured

/-- A measured idle fraction is an average over the time slots of an answer. -/
theorem exists_of_measureIdle {pooled : α}
    (hmeasured : (measureIdle settings source uuid socket).result = .ok pooled) :
    ∃ q rows set, source q = .ok rows ∧ weightedAverageOfCores rows [.c6res] = .ok set ∧
      set.get .c6res = some pooled := by
  unfold measureIdle at hmeasured
  dsimp only at hmeasured
  split at hmeasured
  next rows hrows =>
    cases hset : (weightedAverageOfCores rows [.c6res] : Except Failure (MetricSet α)) with
    | error e =>
        rw [hset] at hmeasured
        cases hmeasured
    | ok set =>
        rw [hset] at hmeasured
        change unusable (set.require .c6res) = .ok pooled at hmeasured
        unfold unusable at hmeasured
        split at hmeasured
        next v hv =>
          obtain rfl := Except.ok.inj hmeasured
          exact ⟨_, rows, set, Call.answer_make_eq_ok hrows, hset,
            MetricSet.get_of_require_eq_ok hv⟩
        next => cases hmeasured
  next => cases hmeasured

/-- Measured metrics have what averages inherit from their readings. -/
theorem Source.Reads.of_measurePerformance {m : Metric} (hreads : source.Reads m P)
    (hP : InheritedByAverages P) {metrics : MetricSet α}
    (hmeasured : (measurePerformance settings source uuid socket).result = .ok metrics)
    {x : α} (hx : metrics.get m = some x) : P x := by
  obtain ⟨q, rows, hrows, hset⟩ := exists_of_measurePerformance hmeasured
  obtain ⟨values, hcolumn, haverage⟩ := exists_of_get_collect (column rows) hset hx
  refine hP.recencyWeighted haverage fun v hv => ?_
  obtain ⟨row, hrow, hvalue⟩ := exists_of_mem_column hcolumn hv
  exact hreads q rows hrows row hrow v hvalue

/-- A measured idle fraction has what averages inherit from the readings. -/
theorem Source.Reads.of_measureIdle (hreads : source.Reads .c6res P)
    (hP : InheritedByAverages P) {pooled : α}
    (hmeasured : (measureIdle settings source uuid socket).result = .ok pooled) :
    P pooled := by
  obtain ⟨q, rows, set, hrows, hset, hget⟩ := exists_of_measureIdle hmeasured
  obtain ⟨means, hmeans, haverage⟩ :=
    exists_of_get_collect (slotMeans · (timeSlots rows)) hset hget
  refine hP.recencyWeighted haverage (forall_mem_slotMeans hP.mean hmeans ?_)
  intro slot hslot s hs x hvalue
  exact hreads q rows hrows s (mem_of_mem_timeSlots hslot hs) x hvalue

end Measurements

/-! ## Bounds in exact arithmetic -/

namespace Aggregate

/-- The sum of values, the first weighing as much as there are values and the last one. -/
def weightedSum : List ℚ → ℚ
  | [] => 0
  | v :: rest => (rest.length + 1) * v + weightedSum rest

/-- The weight of so many values. -/
def totalWeight (n : ℕ) : ℚ :=
  n * (n + 1) / 2

theorem totalWeight_succ (n : ℕ) : totalWeight (n + 1) = (n + 1) + totalWeight n := by
  unfold totalWeight
  push_cast
  ring

theorem totalWeight_pos {n : ℕ} (hn : 0 < n) : 0 < totalWeight n := by
  have hcount : (0 : ℚ) < n := Nat.cast_pos.mpr hn
  unfold totalWeight
  positivity

theorem sum_weightedDeviations (anchor : ℚ) (values : List ℚ) (before : ℕ) :
    (weightedDeviations anchor ((before + values.length : ℕ) : ℚ) before values).sum =
      weightedSum values - anchor * totalWeight values.length := by
  induction values generalizing before with
  | nil => simp [weightedDeviations, weightedSum, totalWeight]
  | cons v rest ih =>
      have hcount : before + (v :: rest).length = (before + 1) + rest.length := by
        rw [List.length_cons]
        omega
      rw [hcount, weightedDeviations, List.sum_cons, ih, weightedSum, List.length_cons,
        totalWeight_succ, Scalar.ofCount_eq]
      push_cast
      ring

theorem recencyWeighted_eq {values : List ℚ} (hvalues : values ≠ []) :
    recencyWeighted values = some (weightedSum values / totalWeight values.length) := by
  cases values with
  | nil => exact absurd rfl hvalues
  | cons anchor rest =>
      have hpos : (0 : ℚ) < totalWeight (rest.length + 1) := totalWeight_pos (Nat.succ_pos _)
      have hsum := sum_weightedDeviations anchor (anchor :: rest) 0
      rw [Nat.zero_add] at hsum
      have htotal : ((anchor :: rest).length : ℚ) * ((anchor :: rest).length + 1.0) / 2.0 =
          totalWeight (anchor :: rest).length := by
        norm_num [totalWeight]
      rw [recencyWeighted]
      simp only [Scalar.sum_eq, Scalar.ofCount_eq, hsum, htotal]
      rw [List.length_cons] at hsum ⊢
      field_simp
      ring_nf

theorem sum_deviations (anchor : ℚ) (values : List ℚ) :
    (values.map (· - anchor)).sum = values.sum - values.length * anchor := by
  induction values with
  | nil => simp
  | cons v rest ih =>
      rw [List.map_cons, List.sum_cons, List.sum_cons, List.length_cons, ih]
      push_cast
      ring

theorem mean_eq {values : List ℚ} (hvalues : values ≠ []) :
    mean values = some (values.sum / values.length) := by
  cases values with
  | nil => exact absurd rfl hvalues
  | cons anchor rest =>
      have hpos : (0 : ℚ) < ((anchor :: rest).length : ℚ) := by
        rw [List.length_cons]
        positivity
      rw [mean]
      simp only [Scalar.sum_eq, Scalar.ofCount_eq, sum_deviations]
      field_simp
      ring_nf

theorem mul_totalWeight_le {a : ℚ} {values : List ℚ} (hvalues : ∀ v ∈ values, a ≤ v) :
    a * totalWeight values.length ≤ weightedSum values := by
  induction values with
  | nil => simp [weightedSum, totalWeight]
  | cons v rest ih =>
      obtain ⟨hv, hrest⟩ := List.forall_mem_cons.mp hvalues
      have hhead : (rest.length + 1) * a ≤ (rest.length + 1) * v :=
        mul_le_mul_of_nonneg_left hv (by positivity)
      rw [List.length_cons, totalWeight_succ, weightedSum]
      linarith [ih hrest]

theorem weightedSum_le {b : ℚ} {values : List ℚ} (hvalues : ∀ v ∈ values, v ≤ b) :
    weightedSum values ≤ b * totalWeight values.length := by
  induction values with
  | nil => simp [weightedSum, totalWeight]
  | cons v rest ih =>
      obtain ⟨hv, hrest⟩ := List.forall_mem_cons.mp hvalues
      have hhead : (rest.length + 1) * v ≤ (rest.length + 1) * b :=
        mul_le_mul_of_nonneg_left hv (by positivity)
      rw [List.length_cons, totalWeight_succ, weightedSum]
      linarith [ih hrest]

/-- Exact averages are not below a lower bound of the numbers. -/
theorem inheritedByAverages_ge (a : ℚ) : InheritedByAverages (a ≤ ·) where
  recencyWeighted {values x} hx hall := by
    cases values with
    | nil => cases hx
    | cons first rest =>
        rw [recencyWeighted_eq (List.cons_ne_nil _ _)] at hx
        obtain rfl := Option.some.inj hx
        exact (le_div_iff₀ (totalWeight_pos (Nat.succ_pos _))).mpr (mul_totalWeight_le hall)
  mean {values x} hx hall := by
    cases values with
    | nil => cases hx
    | cons first rest =>
        rw [mean_eq (List.cons_ne_nil _ _)] at hx
        obtain rfl := Option.some.inj hx
        have hsum := List.card_nsmul_le_sum (first :: rest) a hall
        rw [nsmul_eq_mul, mul_comm] at hsum
        exact (le_div_iff₀ (by simp; positivity)).mpr hsum

/-- Exact averages are not above an upper bound of the numbers. -/
theorem inheritedByAverages_le (b : ℚ) : InheritedByAverages (· ≤ b) where
  recencyWeighted {values x} hx hall := by
    cases values with
    | nil => cases hx
    | cons first rest =>
        rw [recencyWeighted_eq (List.cons_ne_nil _ _)] at hx
        obtain rfl := Option.some.inj hx
        exact (div_le_iff₀ (totalWeight_pos (Nat.succ_pos _))).mpr (weightedSum_le hall)
  mean {values x} hx hall := by
    cases values with
    | nil => cases hx
    | cons first rest =>
        rw [mean_eq (List.cons_ne_nil _ _)] at hx
        obtain rfl := Option.some.inj hx
        have hsum := List.sum_le_card_nsmul (first :: rest) b hall
        rw [nsmul_eq_mul, mul_comm] at hsum
        exact (div_le_iff₀ (by simp; positivity)).mpr hsum

/-- Exact averages stay between the bounds of the numbers. -/
theorem inheritedByAverages_between (a b : ℚ) :
    InheritedByAverages fun x => a ≤ x ∧ x ≤ b :=
  (inheritedByAverages_ge a).and (inheritedByAverages_le b)

end Aggregate

end SocketRanking
