import SocketRanking.Service.Scoring
import SocketRanking.Text.Quoted

/-!
# Ranking and placements

The orchestrator asks for the priorities of candidate hosts and later tells where a workload went. A
host that fails to be scored is reported beside the ranking and leaves the other hosts alone.

The candidates of a ranking are scored one after the other, in the order in which they are listed.
-/

namespace SocketRanking

structure Workload where
  name : String
  /-- The application that the workload runs, if it is known. It does not change the ranking. -/
  profile : Option String
  deriving DecidableEq, Repr

/-- A request to rank hosts for a workload. -/
structure RankingRequest where
  workload : Workload
  nodes : List String
  deriving DecidableEq, Repr

/-- The ranking record of one host. -/
structure HostPriority (α : Type) where
  host : String
  socket : Option UInt32
  score : α
  coreCount : Nat
  finalScore : α
  windowSecs : Nat
  deriving DecidableEq, Repr

structure HostFailure where
  host : String
  reason : String
  /-- An outage may pass; an unknown host stays unknown. -/
  retryable : Bool
  deriving DecidableEq, Repr

/-- The ranking of hosts, best first, and the hosts that failed. -/
structure PriorityList (α : Type) where
  workload : String
  priorities : List (HostPriority α)
  failures : List HostFailure
  deriving DecidableEq, Repr

/-- A workload that was placed on a socket. -/
structure Placement where
  node : String
  socket : UInt32
  profile : String
  countsTowardIdle : Bool := true
  deriving DecidableEq, Repr

def HostPriority.ofResult {α : Type} (r : ScoringResult α) : HostPriority α :=
  { host := r.node, socket := r.socket, score := r.score, coreCount := r.coreCount
    finalScore := r.finalScore, windowSecs := r.windowSecs }

def Event.ofResult {α : Type} (r : ScoringResult α) : Event α :=
  .nodeScored r.node r.socket r.score r.finalScore r.coreCount r.windowSecs

namespace Trouble

/-- The text of a trouble in the journal. The number of a task means nothing outside the process and
is written as a letter. -/
def reason : Trouble → String
  | failed e => e.message
  | crashed text => "task N panicked with message " ++ Text.quoted text

/-- The record of a host that met trouble. -/
def hostFailure (host : String) : Trouble → HostFailure
  | failed e => { host, reason := e.message, retryable := e.isTelemetry }
  | crashed text =>
    { host, reason := "scoring task failed: " ++ (crashed text).reason, retryable := true }

end Trouble

/-- Scored hosts and failed hosts, in the order in which they were scored. -/
structure Tally (α : Type) where
  priorities : List (HostPriority α) := []
  failures : List HostFailure := []

namespace PriorityList

variable {α : Type} [Scalar α]

/-- Whether a host may stand before another: by descending final score, then by name. -/
def rankedBefore (a b : HostPriority α) : Bool :=
  if Scalar.rankLE a.finalScore b.finalScore then
    if Scalar.rankLE b.finalScore a.finalScore then decide (a.host ≤ b.host) else false
  else true

def ofTally (workload : String) (t : Tally α) : PriorityList α :=
  { workload
    priorities := t.priorities.mergeSort rankedBefore
    failures := t.failures.mergeSort fun a b => decide (a.host ≤ b.host) }

end PriorityList

namespace Deployment

variable {σ α : Type} [Scalar α]

/-- Scores a node and reports how it went. Nothing is reported when the store breaks down. -/
def score (d : Deployment σ α) (name : String) (s : State σ α) :
    Except Trouble (ScoringResult α) × State σ α :=
  match d.scoreNode name s with
  | (.ok r, s) => (.ok r, s.report (.ofResult r))
  | (.error (.failed e), s) => (.error (.failed e), s.report (.scoringFailed name e.message))
  | (.error (.crashed text), s) => (.error (.crashed text), s)

/-- Scores hosts one after the other, each in a task of its own. -/
def tally (d : Deployment σ α) : List String → State σ α → Tally α × State σ α
  | [], s => ({}, s)
  | host :: rest, s =>
    match d.scoreNode host s with
    | (.ok r, s) =>
      let (t, s) := d.tally rest (s.report (.ofResult r))
      ({ t with priorities := .ofResult r :: t.priorities }, s)
    | (.error trouble, s) =>
      let (t, s) := d.tally rest (s.report (.scoringFailed host trouble.reason))
      ({ t with failures := trouble.hostFailure host :: t.failures }, s)

def prioritize (d : Deployment σ α) (workload : Workload) (hosts : List String) (s : State σ α) :
    PriorityList α × State σ α :=
  let (t, s) := d.tally hosts s
  (.ofTally workload.name t, s)

/-- What a placement needs to be entered: its node, its socket and its profile, looked up in this
order. -/
def resolve (d : Deployment σ α) (p : Placement) :
    Except Failure (Node × Socket × AppProfile α) := do
  let n ← d.topology.requireNode p.node
  let socket ← match n.socket? p.socket with
    | some socket => pure socket
    | none => .error (.unknownSocket p.node p.socket)
  let profile ← Catalog.require d.catalog p.profile
  return (n, socket, profile)

/-- Enters a placement into the cache. A placement that cannot be resolved changes nothing. -/
def recordPlacement (d : Deployment σ α) (p : Placement) (s : State σ α) :
    Except Failure Unit × State σ α :=
  match d.resolve p with
  | .error e => (.error e, s)
  | .ok (n, socket, profile) =>
    let k : SocketKey := { node := n.name, socket := socket.id }
    let cache := s.cache.place k profile socket.coreCount p.countsTowardIdle
    let s := { s with cache }.count { placementsRecorded := 1 }
    (.ok (), s.report (.placementRecorded n.name socket.id p.profile p.countsTowardIdle))

/-- Makes every cached entry unknown. -/
def flushCache (s : State σ α) : State σ α :=
  let swept := { s with cache := s.cache.clean }.count { cacheSweeps := 1 }
  swept.report (.cacheSwept "flush requested")

end Deployment

end SocketRanking
