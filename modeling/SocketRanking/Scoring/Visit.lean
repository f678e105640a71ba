import SocketRanking.Cache.Entry
import SocketRanking.Cluster.Topology
import SocketRanking.Scoring.Settings
import SocketRanking.Telemetry.Aggregate
import SocketRanking.Telemetry.Source

/-!
# Visiting a socket

A visit finds the metrics of one socket, in the cache where that is possible and in the telemetry
store otherwise, and scores it. It depends on nothing but the settings, the socket's cache entry and
the store's answers for the socket, and it says what it did: the queries it made, the entry it
learned, and how it ended.
-/

namespace SocketRanking

/-- Why something was not measured. -/
inductive Trouble where
  | failed (failure : Failure)
  /-- The store broke down, and the measurement with it. -/
  | crashed (text : String)
  deriving DecidableEq, Repr

/-- A query and what came of it. -/
structure Call where
  query : Query
  answer : Except Trouble (List Sample)

namespace Call

/-- A failure of the store as those who ask see it: an unavailable store. -/
def unavailable (failure : Failure) : Failure :=
  if failure.isTelemetry then failure else .telemetryUnavailable failure.message

/-- Puts a query to a source. -/
def make (source : Source) (q : Query) : Call where
  query := q
  answer := match source q with
    | .ok rows => .ok rows
    | .error (.failed failure) => .error (.failed (unavailable failure))
    | .error (.crashed text) => .error (.crashed text)

end Call

/-- What came of visiting a socket. -/
structure Visit (α : Type) where
  /-- Whether the metrics were taken from the cache. -/
  served : Bool
  /-- The queries that were made, in order. -/
  calls : List Call
  outcome : Except Trouble (SocketScore α)
  /-- The entry to write back, if the idle fraction was measured. -/
  learned : Option (Entry α)

/-- Aggregated values that came of asking the store. -/
structure Measurement (α : Type) where
  call : Call
  result : Except Trouble α

section

variable {α : Type} [Scalar α]

/-- An aggregation failure as trouble. -/
def unusable {β : Type} : Except Failure β → Except Trouble β
  | .ok b => .ok b
  | .error e => .error (.failed e)

/-- Asks for the metrics that the strategy needs and aggregates them. -/
def measurePerformance (settings : Settings) (source : Source) (uuid : String) (socket : Socket) :
    Measurement (MetricSet α) :=
  let metrics := settings.strategy.fetched
  let call := Call.make source
    { metrics, uuid, socket := socket.id, cores := none, limit := settings.rowsPerWindow }
  { call
    result := match call.answer with
      | .ok rows => unusable (Aggregate.weightedAverage rows metrics)
      | .error trouble => .error trouble }

/-- Asks for the idle residency of the socket's cores and pools it. -/
def measureIdle (settings : Settings) (source : Source) (uuid : String) (socket : Socket) :
    Measurement α :=
  let call := Call.make source
    { metrics := [.c6res], uuid, socket := socket.id, cores := some socket.cores
      limit := settings.rowsForCores socket.cores.length }
  { call
    result := match call.answer with
      | .ok rows => unusable do
          let pooled ← Aggregate.weightedAverageOfCores rows [.c6res]
          pooled.require .c6res
      | .error trouble => .error trouble }

namespace SocketScore

def measured (socket : Socket) (baseScore c6res : α) : SocketScore α :=
  { socket := socket.id, cores := socket.coreCount, baseScore, c6res := some c6res
    gatedScore := baseScore, eligible := true }

/-- A socket that could not be measured. -/
def ineligible (socket : Socket) : SocketScore α :=
  { socket := socket.id, cores := socket.coreCount, baseScore := 0.0, c6res := none
    gatedScore := 0.0, eligible := false }

end SocketScore

namespace Visit

/-- The metrics in a cache entry, if all of it is known and the strategy needs no more. -/
def cached? (strategy : Strategy) (entry : Entry α) : Option (MetricSet α) :=
  if entry.isFresh && strategy.isCacheable then entry.performance?.map Performance.toSet else none

/-- The end of a visit whose metrics are at hand: the score, and the idle fraction from the cache or
from the store. -/
def finish (settings : Settings) (source : Source) (uuid : String) (socket : Socket)
    (entry : Entry α) (served : Bool) (calls : List Call) (metrics : MetricSet α) : Visit α :=
  match settings.strategy.score metrics with
  | .error e => { served, calls, outcome := .error (.failed e), learned := none }
  | .ok base =>
    match entry.idle? with
    | some c6 => { served, calls, outcome := .ok (.measured socket base c6), learned := none }
    | none =>
      let idle := measureIdle settings source uuid socket
      let calls := calls ++ [idle.call]
      match idle.result with
      | .error trouble => { served, calls, outcome := .error trouble, learned := none }
      | .ok pooled =>
        let c6 := Scalar.atLeast Entry.idleEpsilon pooled
        match Performance.ofSet metrics with
        | .error e => { served, calls, outcome := .error (.failed e), learned := none }
        | .ok p =>
          { served, calls, outcome := .ok (.measured socket base c6)
            learned := some (.measured p c6) }

/-- Visits a socket of the node with this hardware identity, given its cache entry. -/
def run (settings : Settings) (source : Source) (uuid : String) (socket : Socket)
    (entry : Entry α) : Visit α :=
  match cached? settings.strategy entry with
  | some metrics => finish settings source uuid socket entry true [] metrics
  | none =>
    let performance := measurePerformance settings source uuid socket
    match performance.result with
    | .error trouble =>
      { served := false, calls := [performance.call], outcome := .error trouble, learned := none }
    | .ok metrics => finish settings source uuid socket entry false [performance.call] metrics

end Visit

end

end SocketRanking
