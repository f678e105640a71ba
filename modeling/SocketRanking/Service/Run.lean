import SocketRanking.Cache.Sweeper
import SocketRanking.Service.Ranking

/-!
# Runs of the service

Everything that can happen to the service is a `Step`; `Deployment.step` says what a step answers
and how it changes the state, and `Deployment.run` follows a list of steps. While the background
sweeper runs it acts at every deadline that the clock meets.
-/

namespace SocketRanking

/-- Something that happens to the service. -/
inductive Step (σ α : Type) where
  | score (node : String)
  | prioritize (workload : Workload) (hosts : List String)
  | idleCapacity (node : String)
  | recordPlacement (placement : Placement)
  | flushCache
  | showCache
  /-- Enters a measurement into the cache directly. -/
  | updateCache (key : SocketKey) (performance : Performance α) (idle : α)
  | advance (millis : Nat)
  | startSweeper
  | stopSweeper
  | setReady (ready : Bool)
  | showHealth
  /-- The content of the telemetry store changes. -/
  | changeStore (change : σ → σ)

inductive Answer (α : Type) where
  | done
  | scored (result : ScoringResult α)
  | ranked (list : PriorityList α)
  | idle (cores : α)
  | cache (rows : List (CachedSocket α))
  | health (report : HealthReport) (readiness : Readiness)
  | trouble (trouble : Trouble)

namespace Deployment

variable {σ α : Type} [Scalar α]

/-- Lets the sweeper act, if it runs, while the clock moves on by so many milliseconds. -/
def advance (millis : Nat) (s : State σ α) : State σ α :=
  let now := s.now + millis
  if s.sweeping then
    let (cache, sweeps) := s.cache.sweepUntil s.now now 0
    { s with cache, now }.count { cacheSweeps := sweeps }
  else { s with now }

/-- What a step answers, and the state after it. -/
def step (d : Deployment σ α) (s : State σ α) : Step σ α → Answer α × State σ α
  | .score node =>
    match d.score node s with
    | (.ok r, s) => (.scored r, s)
    | (.error t, s) => (.trouble t, s)
  | .prioritize workload hosts =>
    let (list, s) := d.prioritize workload hosts s
    (.ranked list, s)
  | .idleCapacity node =>
    match d.idleCapacity node s with
    | (.ok cores, s) => (.idle cores, s)
    | (.error t, s) => (.trouble t, s)
  | .recordPlacement p =>
    match d.recordPlacement p s with
    | (.ok (), s) => (.done, s)
    | (.error e, s) => (.trouble (.failed e), s)
  | .flushCache => (.done, flushCache s)
  | .showCache => (.cache s.cache.snapshot, s)
  | .updateCache k p idle => (.done, { s with cache := s.cache.update k (.measured p idle) s.now })
  | .advance millis => (.done, advance millis s)
  | .startSweeper => (.done, advance 0 { s with sweeping := true })
  | .stopSweeper => (.done, { s with sweeping := false })
  | .setReady ready => (.done, { s with health := s.health.setReady ready })
  | .showHealth => (.health s.health.report s.health.readiness, s)
  | .changeStore change => (.done, { s with store := change s.store })

/-- The answers to steps one after the other, and the state after them. -/
def run (d : Deployment σ α) : State σ α → List (Step σ α) → List (Answer α) × State σ α
  | s, [] => ([], s)
  | s, step :: rest =>
    let (answer, s) := d.step s step
    let (answers, s) := d.run s rest
    (answer :: answers, s)

end Deployment

end SocketRanking
