import SocketRanking.Json.Basic

/-!
# Journal

The events that the service reports about its work, and the structured record that each becomes.
-/

namespace SocketRanking

/-- An event worth a record. -/
inductive Event (α : Type) where
  | nodeScored (node : String) (socket : Option UInt32) (score finalScore : α)
      (cores windowSecs : Nat)
  | scoringFailed (node reason : String)
  | placementRecorded (node : String) (socket : UInt32) (profile : String) (countsTowardIdle : Bool)
  | cacheSwept (reason : String)
  | started (version : String) (nodes sockets : Nat)
  | shutDown (reason : String)
  deriving DecidableEq, Repr

namespace Event

/-- The tag by which records of this kind are found. -/
def tag {α : Type} : Event α → String
  | nodeScored .. => "node_scored"
  | scoringFailed .. => "node_scoring_failed"
  | placementRecorded .. => "placement_recorded"
  | cacheSwept .. => "cache_swept"
  | started .. => "scorer_started"
  | shutDown .. => "scorer_shutdown"

/-- The text of records of this kind. -/
def headline {α : Type} : Event α → String
  | nodeScored .. => "Node scored"
  | scoringFailed .. => "Node left unscored"
  | placementRecorded .. => "Placement applied to telemetry cache"
  | cacheSwept .. => "Telemetry cache reset"
  | started .. => "Socket scorer started"
  | shutDown .. => "Socket scorer shutting down"

def level {α : Type} : Event α → String
  | scoringFailed .. => "WARN"
  | _ => "INFO"

/-- A winning socket in a record. -/
def socketText : Option UInt32 → String
  | some s => "Some(" ++ toString s ++ ")"
  | none => "None"

/-- The members of a record that are particular to its event. -/
def details : Event Float → List (String × Json)
  | nodeScored node socket score finalScore cores windowSecs =>
    [("node", .string node), ("socket", .string (socketText socket)), ("score", .float score),
      ("final_score", .float finalScore), ("cores", .nat cores), ("window_secs", .nat windowSecs)]
  | scoringFailed node reason => [("node", .string node), ("reason", .string reason)]
  | placementRecorded node socket profile countsTowardIdle =>
    [("node", .string node), ("socket", .nat socket.toNat), ("profile", .string profile),
      ("counts_toward_idle", .bool countsTowardIdle)]
  | cacheSwept reason => [("reason", .string reason)]
  | started version nodes sockets =>
    [("version", .string version), ("nodes", .nat nodes), ("sockets", .nat sockets)]
  | shutDown reason => [("reason", .string reason)]

def record (instanceName : String) (e : Event Float) : Json :=
  .object ([("event", .string e.tag), ("instance", .string instanceName)] ++ e.details ++
    [("message", .string e.headline), ("level", .string e.level)])

end Event

end SocketRanking
