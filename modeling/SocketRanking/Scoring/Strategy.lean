import SocketRanking.Failure
import SocketRanking.Number.Scalar

/-!
# Score functions

A strategy turns the aggregated metrics of one socket into a base score; larger is better. Whatever
a strategy divides by is kept at `Strategy.epsilon` or above.
-/

namespace SocketRanking

/-- A score function. -/
inductive Strategy where
  /-- Instructions per cycle for each unit of memory traffic. -/
  | ipcPerBandwidth
  | ipcOnly
  /-- Fewer misses of the last cache level are better. -/
  | inverseL3Misses
  /-- Less energy is better. -/
  | inverseEnergy
  deriving DecidableEq, Repr, Inhabited

namespace Strategy

def name : Strategy → String
  | ipcPerBandwidth => "ipc_per_bandwidth"
  | ipcOnly => "ipc_only"
  | inverseL3Misses => "inverse_l3_misses"
  | inverseEnergy => "inverse_energy"

def named : List (String × Strategy) :=
  [ipcPerBandwidth, ipcOnly, inverseL3Misses, inverseEnergy].map fun s => (s.name, s)

/-- The metrics that the strategy reads. -/
def required : Strategy → List Metric
  | ipcPerBandwidth => [.ipc, .memRead, .memWrite]
  | ipcOnly => [.ipc]
  | inverseL3Misses => [.l3Misses]
  | inverseEnergy => [.energy]

/-- The metrics to ask the store for: the cached ones, so that they can be written back, and
whatever else the strategy reads. -/
def fetched (s : Strategy) : List Metric :=
  Metric.performance ++ s.required.filter (!Metric.performance.contains ·)

/-- Whether a cached socket holds everything the strategy reads. -/
def isCacheable (s : Strategy) : Bool :=
  s.required.all Metric.performance.contains

variable {α : Type} [Scalar α]

/-- Lower bound of every divisor. -/
def epsilon : α :=
  1e-8

def score (s : Strategy) (metrics : MetricSet α) : Except Failure α :=
  match s with
  | ipcPerBandwidth => do
    let ipc ← metrics.require .ipc
    let read ← metrics.require .memRead
    let write ← metrics.require .memWrite
    return ipc / Scalar.atLeast epsilon (read + write)
  | ipcOnly => metrics.require .ipc
  | inverseL3Misses => do
    let misses ← metrics.require .l3Misses
    return 1.0 / Scalar.atLeast epsilon misses
  | inverseEnergy => do
    let energy ← metrics.require .energy
    return 1.0 / Scalar.atLeast epsilon energy

end Strategy

end SocketRanking
