/-!
# Metrics

The hardware counters that telemetry rows carry, each with the name it has in the rows, and
`MetricSet`, one aggregated value per metric.
-/

namespace SocketRanking

/-- A hardware counter. -/
inductive Metric where
  /-- Instructions per cycle. -/
  | ipc
  /-- Memory read traffic. -/
  | memRead
  /-- Memory write traffic. -/
  | memWrite
  /-- Fraction of time in the deepest idle state. -/
  | c6res
  /-- Misses of the last cache level. -/
  | l3Misses
  /-- Energy drawn by the package. -/
  | energy
  deriving DecidableEq, Repr

namespace Metric

def all : List Metric :=
  [.ipc, .memRead, .memWrite, .c6res, .l3Misses, .energy]

def name : Metric → String
  | ipc => "ipc"
  | memRead => "mem_read"
  | memWrite => "mem_write"
  | c6res => "c6res"
  | l3Misses => "l3m"
  | energy => "procnrg"

def ofName? (name : String) : Option Metric :=
  all.find? (·.name = name)

/-- Names tell metrics apart. -/
theorem ofName?_name (m : Metric) : ofName? m.name = some m := by
  cases m <;> decide

/-- Throughput and memory traffic, the metrics that the cache holds besides idle residency. -/
def performance : List Metric :=
  [.ipc, .memRead, .memWrite]

end Metric

/-- One optional value per metric. -/
structure MetricSet (α : Type) where
  ipc : Option α := none
  memRead : Option α := none
  memWrite : Option α := none
  c6res : Option α := none
  l3Misses : Option α := none
  energy : Option α := none
  deriving DecidableEq, Repr

namespace MetricSet

variable {α : Type}

def empty : MetricSet α :=
  {}

def get (s : MetricSet α) : Metric → Option α
  | .ipc => s.ipc
  | .memRead => s.memRead
  | .memWrite => s.memWrite
  | .c6res => s.c6res
  | .l3Misses => s.l3Misses
  | .energy => s.energy

def set (s : MetricSet α) (m : Metric) (value : α) : MetricSet α :=
  match m with
  | .ipc => { s with ipc := some value }
  | .memRead => { s with memRead := some value }
  | .memWrite => { s with memWrite := some value }
  | .c6res => { s with c6res := some value }
  | .l3Misses => { s with l3Misses := some value }
  | .energy => { s with energy := some value }

@[simp] theorem get_empty (m : Metric) : (empty : MetricSet α).get m = none := by
  cases m <;> rfl

@[simp] theorem get_set (s : MetricSet α) (m k : Metric) (value : α) :
    (s.set m value).get k = if m = k then some value else s.get k := by
  cases m <;> cases k <;> rfl

/-- The values that are present, in the order of the metrics. -/
def toList (s : MetricSet α) : List (Metric × α) :=
  Metric.all.filterMap fun m => (s.get m).map (m, ·)

end MetricSet

end SocketRanking
