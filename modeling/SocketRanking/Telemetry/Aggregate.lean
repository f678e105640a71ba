import SocketRanking.Telemetry.Sample

/-!
# Aggregation of telemetry windows

Rows come newest first. The newest of `n` values weighs `n`, the oldest one, over the triangular
number `n (n + 1) / 2`. Rows of single cores are first pooled: rows of one instant form a time slot,
and each slot counts with the mean of its cores. Means are taken over deviations from the first
value, so that a constant series keeps its value exactly.
-/

namespace SocketRanking.Aggregate

variable {α : Type} [Scalar α]

/-- Deviations from `anchor`, weighted by `n`, `n - 1` and so on, where `j` values came before. -/
def weightedDeviations (anchor n : α) : Nat → List α → List α
  | _, [] => []
  | j, v :: rest =>
    (v - anchor) * (n - Scalar.ofCount j) :: weightedDeviations anchor n (j + 1) rest

/-- The recency-weighted mean, newest value first. -/
def recencyWeighted : List α → Option α
  | [] => none
  | anchor :: rest =>
    let values := anchor :: rest
    let n : α := Scalar.ofCount values.length
    let total := n * (n + 1.0) / 2.0
    some (anchor + Scalar.sum (weightedDeviations anchor n 0 values) / total)

def mean : List α → Option α
  | [] => none
  | anchor :: rest =>
    let values := anchor :: rest
    some (anchor + Scalar.sum (values.map (· - anchor)) / Scalar.ofCount values.length)

/-- The readings of a metric in the rows that carry it; the first malformed one is reported. -/
def column (samples : List Sample) (m : Metric) : Except Failure (List α) :=
  match samples with
  | [] => .ok []
  | s :: rest =>
    match s.value m with
    | .error e => .error e
    | .ok none => column rest m
    | .ok (some v) =>
      match column rest m with
      | .error e => .error e
      | .ok vs => .ok (v :: vs)

/-- Aggregates the metrics one after the other into a set; the first failure ends it. -/
def collect (aggregate : Metric → Except Failure (Option α)) :
    List Metric → MetricSet α → Except Failure (MetricSet α)
  | [], result => .ok result
  | m :: rest, result =>
    match aggregate m with
    | .error e => .error e
    | .ok none => .error (.noSamples m)
    | .ok (some v) => collect aggregate rest (result.set m v)

/-- The recency-weighted mean of each metric over the rows that carry it. -/
def weightedAverage (samples : List Sample) (metrics : List Metric) :
    Except Failure (MetricSet α) :=
  collect (fun m => (column samples m).map recencyWeighted) metrics .empty

/-- Whether a row opens a new slot after the rows of `slot`: it belongs to no core, or to a core
that the slot already holds. -/
def opensSlot (slot : List Sample) (s : Sample) : Bool :=
  s.core.isNone || slot.any (·.core = s.core)

/-- Time slots of the remaining rows, given the rows of the open slot in reverse order. -/
def slotsFrom : List Sample → List Sample → List (List Sample)
  | [], [] => []
  | slot, [] => [slot.reverse]
  | [], s :: rest => slotsFrom [s] rest
  | slot, s :: rest =>
    if opensSlot slot s then slot.reverse :: slotsFrom [s] rest else slotsFrom (s :: slot) rest

/-- Consecutive rows grouped into time slots, each as long as it can be. -/
def timeSlots (samples : List Sample) : List (List Sample) :=
  slotsFrom [] samples

/-- The means of a metric over the slots that carry it. -/
def slotMeans (m : Metric) : List (List Sample) → Except Failure (List α)
  | [] => .ok []
  | slot :: rest =>
    match column slot m with
    | .error e => .error e
    | .ok values =>
      match slotMeans m rest with
      | .error e => .error e
      | .ok means =>
        match mean values with
        | some v => .ok (v :: means)
        | none => .ok means

/-- The recency-weighted mean of each metric over time slots, cores pooled within a slot. -/
def weightedAverageOfCores (samples : List Sample) (metrics : List Metric) :
    Except Failure (MetricSet α) :=
  let slots := timeSlots samples
  collect (fun m => (slotMeans m slots).map recencyWeighted) metrics .empty

end SocketRanking.Aggregate
