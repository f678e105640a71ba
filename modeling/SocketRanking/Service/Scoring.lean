import SocketRanking.Scoring.Visit
import SocketRanking.Service.State

/-!
# Scoring a node

A node is scored by visiting its sockets in topology order. A socket that cannot be measured is not
eligible, but does not keep its siblings from being scored; only when the store failed for every
socket does the node stay unscored. The gate, the winner and the weight of the hardware class then
make the result.
-/

namespace SocketRanking

/-- The outcome of scoring a node. -/
structure ScoringResult (α : Type) where
  node : String
  /-- The gated score of the winning socket. -/
  score : α
  socket : Option UInt32
  coreCount : Nat
  /-- The score weighted by the node's hardware class. -/
  finalScore : α
  windowSecs : Nat
  sockets : List (SocketScore α)
  deriving DecidableEq, Repr

namespace Call

/-- Whether the store reported a failure. -/
def isFailed (c : Call) : Bool :=
  match c.answer with
  | .error (.failed _) => true
  | _ => false

/-- Whether the store broke down. -/
def isCrashed (c : Call) : Bool :=
  match c.answer with
  | .error (.crashed _) => true
  | _ => false

/-- The counters that queries move. -/
def activity (calls : List Call) : Activity :=
  { telemetryErrors := calls.countP isFailed
    queryLatencies := calls.countP (!isCrashed ·) }

/-- What the answer to a query says about the health of the store. A store that breaks down says
nothing. -/
def reportHealth (r : HealthRegistry) (now : Int64) (c : Call) : HealthRegistry :=
  match c.answer with
  | .ok _ => r.reportSuccess HealthRegistry.telemetryStore now
  | .error (.failed e) => r.reportFailure HealthRegistry.telemetryStore e.message now
  | .error (.crashed _) => r

end Call

namespace Visit

variable {α : Type}

/-- The failure that made the socket ineligible. -/
def failure? (v : Visit α) : Option Failure :=
  match v.outcome with
  | .error (.failed e) => some e
  | _ => none

/-- The counters that a visit moves. -/
def activity (v : Visit α) : Activity :=
  { Call.activity v.calls with
    cacheHits := if v.served then 1 else 0
    cacheMisses := if v.served then 0 else 1
    ineligibleSockets := if v.failure?.isSome then 1 else 0 }

end Visit

namespace Deployment

variable {σ α : Type} [Scalar α]

/-- Records queries that were made, and what they say about the store. -/
def recordCalls (d : Deployment σ α) (calls : List Call) (s : State σ α) : State σ α :=
  { s with
    queries := s.queries ++ calls.map (·.query)
    health := calls.foldl (Call.reportHealth · (d.clock s.now)) s.health }

/-- Enters what a visit did into the state. -/
def recordVisit (d : Deployment σ α) (k : SocketKey) (v : Visit α) (s : State σ α) : State σ α :=
  let s := (d.recordCalls v.calls s).count v.activity
  match v.learned with
  | some entry => { s with cache := s.cache.update k entry s.now }
  | none => s

def visit (d : Deployment σ α) (n : Node) (socket : Socket) (s : State σ α) : Visit α :=
  let cached := s.cache.get { node := n.name, socket := socket.id }
  .run d.settings (d.source s.store) n.uuid socket cached

/-- Visits sockets of a node in order, up to the first visit that breaks down. -/
def visitAll (d : Deployment σ α) (n : Node) : List Socket → State σ α → List (Visit α) × State σ α
  | [], s => ([], s)
  | socket :: rest, s =>
    let v := d.visit n socket s
    let s := d.recordVisit { node := n.name, socket := socket.id } v s
    match v.outcome with
    | .error (.crashed _) => ([v], s)
    | _ =>
      let (visits, s) := d.visitAll n rest s
      (v :: visits, s)

/-- Sweeps the cache if its timer has run out, and counts the sweep. -/
def expire (s : State σ α) : State σ α :=
  if s.cache.isExpired s.now then
    { s with cache := s.cache.sweep s.now }.count { cacheSweeps := 1 }
  else s

/-- The breakdown of visits: sockets that were not measured are not eligible. -/
def breakdown : List Socket → List (Visit α) → List (SocketScore α)
  | socket :: sockets, v :: visits =>
    (match v.outcome with
      | .ok score => score
      | .error _ => .ineligible socket) :: breakdown sockets visits
  | _, _ => []

/-- The text of the first breakdown among visits. -/
def crash? (visits : List (Visit α)) : Option String :=
  visits.findSome? fun v => match v.outcome with
    | .error (.crashed text) => some text
    | _ => none

/-- The failures of the store that ended visits. -/
def storeFailures (visits : List (Visit α)) : List Failure :=
  visits.filterMap fun v => v.failure?.filter Failure.isTelemetry

/-- The last failure of the store, if it ended every visit. -/
def outage? (visits : List (Visit α)) : Option Failure :=
  let failures := storeFailures visits
  if failures.length = visits.length then failures.getLast? else none

/-- The result for a node whose sockets came out like this. -/
def result (d : Deployment σ α) (n : Node) (sockets : List (SocketScore α)) : ScoringResult α :=
  let gated := d.settings.idleGate.apply sockets
  let winner := winner? gated
  let score := match winner with
    | some w => w.gatedScore
    | none => 0.0
  { node := n.name
    score
    socket := winner.map (·.socket)
    coreCount := match winner with
      | some w => w.cores
      | none => 0
    finalScore := HardwareClass.adjust score (d.topology.classOf? n)
    windowSecs := d.settings.window.secs
    sockets := gated }

/-- Scores a node. A node that is not in the topology leaves the state as it is. -/
def scoreNode (d : Deployment σ α) (name : String) (s : State σ α) :
    Except Trouble (ScoringResult α) × State σ α :=
  match d.topology.requireNode name with
  | .error e => (.error (.failed e), s)
  | .ok n =>
    let (visits, s) := d.visitAll n n.sockets (expire s)
    match crash? visits with
    | some text => (.error (.crashed text), s)
    | none =>
      match outage? visits with
      | some e => (.error (.failed e), s.count { scoringFailures := 1 })
      | none =>
        (.ok (d.result n (breakdown n.sockets visits)),
          s.count { nodesScored := 1, scoringLatencies := 1 })

/-- Finds the idle fraction of a socket, in the cache or from the store. -/
def idleFraction (d : Deployment σ α) (n : Node) (socket : Socket) (s : State σ α) :
    Except Trouble α × List Call :=
  match (s.cache.get { node := n.name, socket := socket.id }).idle? with
  | some c6 => (.ok c6, [])
  | none =>
    let m := measureIdle d.settings (d.source s.store) n.uuid socket
    (m.result, [m.call])

/-- Adds up the idle cores of sockets, `total` so far; `failures` holds the failures of the store so
far. Ends early when the store breaks down. -/
def idleOver (d : Deployment σ α) (n : Node) :
    List Socket → α → List Failure → State σ α → Except Trouble (α × List Failure) × State σ α
  | [], total, failures, s => (.ok (total, failures), s)
  | socket :: rest, total, failures, s =>
    let (found, calls) := d.idleFraction n socket s
    let s := (d.recordCalls calls s).count (Call.activity calls)
    match found with
    | .ok c6 => d.idleOver n rest (total + c6 * Scalar.ofCount socket.coreCount) failures s
    | .error (.failed e) =>
      d.idleOver n rest total (if e.isTelemetry then failures ++ [e] else failures) s
    | .error (.crashed text) => (.error (.crashed text), s)

/-- The idle capacity of a node in cores. Sockets whose idle fraction is not known count as busy;
the query fails only when the store failed for every socket. -/
def idleCapacity (d : Deployment σ α) (name : String) (s : State σ α) :
    Except Trouble α × State σ α :=
  match d.topology.requireNode name with
  | .error e => (.error (.failed e), s)
  | .ok n =>
    match d.idleOver n n.sockets 0.0 [] s with
    | (.error trouble, s) => (.error trouble, s)
    | (.ok (total, failures), s) =>
      match failures.getLast? with
      | some e =>
        if failures.length = n.sockets.length then (.error (.failed e), s) else (.ok total, s)
      | none => (.ok total, s)

end Deployment

end SocketRanking
