import SocketRanking.Telemetry.Source
import Std.Data.TreeMap

/-!
# The telemetry log

Telemetry held in memory: one series per hardware identity and socket, newest rows first, rows of
one instant in the order in which they were added. New rows are entered one by one, each behind
the rows that are not older, which keeps a series sorted.
-/

namespace SocketRanking

/-- Names a series: a hardware identity and a socket. -/
structure SeriesKey where
  uuid : String
  socket : UInt32
  deriving DecidableEq, Repr

namespace SeriesKey

/-- By hardware identity, then by socket number. -/
instance : Ord SeriesKey :=
  ⟨compareLex (compareOn SeriesKey.uuid) (compareOn SeriesKey.socket)⟩

instance : Std.TransOrd SeriesKey :=
  inferInstanceAs
    (Std.TransCmp (compareLex (compareOn SeriesKey.uuid) (compareOn SeriesKey.socket)))

instance : Std.LawfulEqOrd SeriesKey where
  compare_self := Std.ReflCmp.compare_self
  eq_of_compare {a b} h := by
    obtain ⟨hu, hs⟩ := Ordering.then_eq_eq.1 h
    cases a; cases b
    simp_all [compareOn]

end SeriesKey

/-- A series as a snapshot file lists it. -/
structure SeriesSnapshot where
  key : SeriesKey
  samples : List Sample

/-- What a snapshot file says. -/
structure LogSnapshot where
  series : List SeriesSnapshot := []

/-- Rows by series. -/
structure TelemetryLog where
  series : Std.TreeMap SeriesKey (List Sample) := ∅

namespace TelemetryLog

def empty : TelemetryLog :=
  {}

/-- Enters a row behind all rows that are not older. -/
def insertRow (s : Sample) : List Sample → List Sample
  | [] => [s]
  | r :: rest => if r.timestamp < s.timestamp then s :: r :: rest else r :: insertRow s rest

/-- The rows of a series, newest first. -/
def rows (l : TelemetryLog) (k : SeriesKey) : List Sample :=
  l.series.getD k []

/-- Adds rows to a series, one after the other. -/
def extend (l : TelemetryLog) (k : SeriesKey) (samples : List Sample) : TelemetryLog :=
  { series := l.series.insert k (samples.foldl (fun rows s => insertRow s rows) (l.rows k)) }

def push (l : TelemetryLog) (k : SeriesKey) (s : Sample) : TelemetryLog :=
  l.extend k [s]

def rowCount (l : TelemetryLog) : Nat :=
  l.series.foldl (fun count _ rows => count + rows.length) 0

/-- The log of a snapshot file. -/
def ofSnapshot (snapshot : LogSnapshot) : TelemetryLog :=
  snapshot.series.foldl (fun l s => l.extend s.key s.samples) empty

/-- Whether a row is of the kind that a query asks for. -/
def matchesCores (cores : Option (List UInt32)) (s : Sample) : Bool :=
  match cores, s.core with
  | some cores, some core => cores.contains core
  | none, none => true
  | _, _ => false

/-- The rows that answer a query. -/
def answer (l : TelemetryLog) (q : Query) : List Sample :=
  (((l.rows { uuid := q.uuid, socket := q.socket }).filter (matchesCores q.cores)).take q.limit).map
    (·.restrict q.metrics)

def source (l : TelemetryLog) : Source := fun q => .ok (l.answer q)

end TelemetryLog

end SocketRanking
