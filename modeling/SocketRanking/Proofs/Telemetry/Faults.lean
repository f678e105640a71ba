import SocketRanking.Scoring.Visit

/-!
# Faults of telemetry rows

Rows that were answered may be unusable: a reading is malformed, a metric has no rows,
or a value is missing from what was aggregated.  None of these faults is taken for a
failure of the store, which alone is reported as an outage.
-/

namespace SocketRanking

/-- Whatever the computation fails with, it does not blame the store. -/
def SparesStore {β : Type} (x : Except Failure β) : Prop :=
  ∀ e, x = .error e → e.isTelemetry = false

namespace SparesStore

variable {β γ : Type}

theorem ok (b : β) : SparesStore (.ok b) := by
  intro e he
  cases he

theorem of_error {e : Failure} (he : e.isTelemetry = false) :
    SparesStore (.error e : Except Failure β) := by
  intro e' he'
  rw [← Except.error.inj he']
  exact he

theorem bind {x : Except Failure β} {f : β → Except Failure γ} (hx : SparesStore x)
    (hf : ∀ b, SparesStore (f b)) : SparesStore (x >>= f) := by
  cases x with
  | error e => exact of_error (hx e rfl)
  | ok b => exact hf b

theorem map {x : Except Failure β} (hx : SparesStore x) (f : β → γ) : SparesStore (x.map f) := by
  cases x with
  | error e => exact of_error (hx e rfl)
  | ok b => exact ok (f b)

end SparesStore

variable {α : Type}

theorem MetricSet.sparesStore_require (metrics : MetricSet α) (m : Metric) :
    SparesStore (metrics.require m) := by
  unfold require
  split
  · exact .ok _
  · exact .of_error rfl

theorem Performance.sparesStore_ofSet (metrics : MetricSet α) : SparesStore (ofSet metrics) := by
  apply (metrics.sparesStore_require .ipc).bind
  intro ipc
  apply (metrics.sparesStore_require .memRead).bind
  intro memRead
  apply (metrics.sparesStore_require .memWrite).bind
  intro memWrite
  exact .ok _

variable [Scalar α]

theorem Strategy.sparesStore_score (s : Strategy) (metrics : MetricSet α) :
    SparesStore (s.score metrics) := by
  cases s with
  | ipcPerBandwidth =>
      apply (metrics.sparesStore_require .ipc).bind
      intro ipc
      apply (metrics.sparesStore_require .memRead).bind
      intro memRead
      apply (metrics.sparesStore_require .memWrite).bind
      intro memWrite
      exact .ok _
  | ipcOnly => exact metrics.sparesStore_require .ipc
  | inverseL3Misses => exact (metrics.sparesStore_require .l3Misses).bind fun _ => .ok _
  | inverseEnergy => exact (metrics.sparesStore_require .energy).bind fun _ => .ok _

theorem Sample.sparesStore_value (s : Sample) (m : Metric) :
    SparesStore (s.value m : Except Failure (Option α)) := by
  unfold value
  split
  · exact .ok _
  · split
    · exact .ok _
    · exact .of_error rfl

namespace Aggregate

theorem sparesStore_column (samples : List Sample) (m : Metric) :
    SparesStore (column samples m : Except Failure (List α)) := by
  induction samples with
  | nil => exact .ok _
  | cons s rest ih =>
      rw [column]
      have hvalue := s.sparesStore_value (α := α) m
      split
      next e he => exact .of_error (hvalue e he)
      next => exact ih
      next v _ =>
        split
        next e he => exact .of_error (ih e he)
        next => exact .ok _

theorem sparesStore_slotMeans (m : Metric) (slots : List (List Sample)) :
    SparesStore (slotMeans m slots : Except Failure (List α)) := by
  induction slots with
  | nil => exact .ok _
  | cons slot rest ih =>
      rw [slotMeans]
      split
      next e he => exact .of_error (sparesStore_column slot m e he)
      next values _ =>
        split
        next e he => exact .of_error (ih e he)
        next => split <;> exact .ok _

omit [Scalar α] in
theorem sparesStore_collect {aggregate : Metric → Except Failure (Option α)}
    (haggregate : ∀ m, SparesStore (aggregate m)) (metrics : List Metric)
    (result : MetricSet α) : SparesStore (collect aggregate metrics result) := by
  induction metrics generalizing result with
  | nil => exact .ok _
  | cons m rest ih =>
      rw [collect]
      split
      next e he => exact .of_error (haggregate m e he)
      next => exact .of_error rfl
      next v _ => exact ih _

theorem sparesStore_weightedAverage (samples : List Sample) (metrics : List Metric) :
    SparesStore (weightedAverage samples metrics : Except Failure (MetricSet α)) := by
  apply sparesStore_collect
  intro m
  exact (sparesStore_column samples m).map recencyWeighted

theorem sparesStore_weightedAverageOfCores (samples : List Sample) (metrics : List Metric) :
    SparesStore (weightedAverageOfCores samples metrics : Except Failure (MetricSet α)) := by
  apply sparesStore_collect
  intro m
  exact (sparesStore_slotMeans m _).map recencyWeighted

end Aggregate

end SocketRanking
