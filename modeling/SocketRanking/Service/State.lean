import SocketRanking.Cache.Basic
import SocketRanking.Health
import SocketRanking.Scoring.Settings
import SocketRanking.Service.Activity
import SocketRanking.Service.Journal
import SocketRanking.Telemetry.Source

/-!
# The state of the service

`Deployment` is what stays the same while the service runs; `State` is what changes. Time is part of
the state: it stands still while a request is served. The telemetry store may have any type of
content; what it answers is a function of its content alone.
-/

namespace SocketRanking

/-- What the service is set up with. -/
structure Deployment (σ α : Type) where
  topology : Topology α
  settings : Settings
  catalog : Catalog α
  /-- What a telemetry store with this content answers. -/
  source : σ → Source
  /-- When the clock of the service was started, in seconds since the epoch. -/
  startedAt : Int64 := 0

/-- What changes while the service runs. -/
structure State (σ α : Type) where
  cache : Cache α
  health : HealthRegistry
  activity : Activity := {}
  /-- The queries made so far. -/
  queries : List Query := []
  /-- The events reported so far. -/
  journal : List (Event α) := []
  store : σ
  /-- Milliseconds since the clock was started. -/
  now : Nat := 0
  /-- Whether the background sweeper runs. -/
  sweeping : Bool := false

namespace State

variable {σ α : Type}

def count (s : State σ α) (moved : Activity) : State σ α :=
  { s with activity := s.activity + moved }

def report (s : State σ α) (e : Event α) : State σ α :=
  { s with journal := s.journal ++ [e] }

end State

namespace Deployment

variable {σ α : Type} [Scalar α]

/-- The time of day in seconds since the epoch. -/
def clock (d : Deployment σ α) (now : Nat) : Int64 :=
  d.startedAt + Int64.ofNat (now / 1000)

/-- The state at the start: every socket of the topology unknown, the store as given. -/
def start (d : Deployment σ α) (ttl : Nat) (threshold : UInt32) (store : σ) : State σ α :=
  { cache := .seeded ttl d.topology.socketKeys 0
    health := .tracked threshold (d.clock 0)
    store }

end Deployment

end SocketRanking
