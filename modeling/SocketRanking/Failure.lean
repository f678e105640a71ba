import SocketRanking.Telemetry.Metric
import SocketRanking.Text.Quoted

/-!
# Failures

Everything that can go wrong while topology is loaded, telemetry is aggregated or nodes are scored,
and the message that each failure carries to the outside.
-/

namespace SocketRanking

/-- A cause of failure. -/
inductive Failure where
  /-- A telemetry value, given by its text, is no finite number. -/
  | unparsable (metric : Metric) (raw : String)
  /-- No row carries the metric. -/
  | noSamples (metric : Metric)
  /-- A value is absent from an aggregated set. -/
  | missingMetric (metric : Metric)
  | unknownNode (node : String)
  | unknownSocket (node : String) (socket : UInt32)
  /-- The telemetry store could not be reached or refused the query. -/
  | telemetryUnavailable (reason : String)
  | unreadableConfiguration (reason : String)
  | unknownProfile (profile : String)
  deriving DecidableEq, Repr

namespace Failure

def message : Failure → String
  | unparsable metric raw =>
    "cannot parse value " ++ Text.quoted raw ++ " for metric " ++ metric.name
  | noSamples metric => "no samples to aggregate for metric " ++ metric.name
  | missingMetric metric => "metric " ++ metric.name ++ " missing from telemetry"
  | unknownNode node => "node not found in topology: " ++ node
  | unknownSocket node socket => "socket " ++ toString socket ++ " not found on node " ++ node
  | telemetryUnavailable reason => "telemetry unavailable: " ++ reason
  | unreadableConfiguration reason => "configuration unreadable: " ++ reason
  | unknownProfile profile => "unknown application profile: " ++ profile

/-- Whether the telemetry store itself failed, so that a later attempt may succeed. -/
def isTelemetry : Failure → Bool
  | telemetryUnavailable _ => true
  | _ => false

/-- A metric name that stands for no metric. -/
def unknownMetric (name : String) : Failure :=
  .unreadableConfiguration ("unknown metric " ++ Text.quoted name)

end Failure

/-- The metric with this name, or the failure that names it. -/
def Metric.require (name : String) : Except Failure Metric :=
  match Metric.ofName? name with
  | some m => .ok m
  | none => .error (.unknownMetric name)

/-- The value of a metric, or the failure that names it. -/
def MetricSet.require {α : Type} (s : MetricSet α) (m : Metric) : Except Failure α :=
  match s.get m with
  | some value => .ok value
  | none => .error (.missingMetric m)

/-- Throughput and memory traffic of a socket. -/
structure Performance (α : Type) where
  ipc : α
  memRead : α
  memWrite : α
  deriving DecidableEq, Repr

namespace Performance

variable {α : Type}

/-- Takes the three values from a set; the first that is absent is reported. -/
def ofSet (s : MetricSet α) : Except Failure (Performance α) := do
  let ipc ← s.require .ipc
  let memRead ← s.require .memRead
  let memWrite ← s.require .memWrite
  return { ipc, memRead, memWrite }

/-- The set that holds these three values only. -/
def toSet (p : Performance α) : MetricSet α :=
  { ipc := some p.ipc, memRead := some p.memRead, memWrite := some p.memWrite }

end Performance

end SocketRanking
