import Std.Data.TreeMap

/-!
# Health

Components report how their operations end. A failure degrades a component, a run of failures makes
it unhealthy, a success restores it. The service is as healthy as its worst component, and it is
ready once it was declared so and no component is unhealthy.
-/

namespace SocketRanking

/-- How well a component works, from best to worst. -/
inductive ComponentStatus where
  | healthy
  | degraded
  | unhealthy
  deriving DecidableEq, Repr

namespace ComponentStatus

def name : ComponentStatus → String
  | healthy => "healthy"
  | degraded => "degraded"
  | unhealthy => "unhealthy"

def named : List (String × ComponentStatus) :=
  [healthy, degraded, unhealthy].map fun s => (s.name, s)

/-- Place of a status between best and worst. -/
def severity : ComponentStatus → Nat
  | healthy => 0
  | degraded => 1
  | unhealthy => 2

def worse (a b : ComponentStatus) : ComponentStatus :=
  if a.severity ≤ b.severity then b else a

end ComponentStatus

structure ComponentHealth where
  status : ComponentStatus
  message : Option String
  consecutiveFailures : UInt32
  /-- When the component reported last, in seconds since the epoch. -/
  lastCheck : Int64
  deriving DecidableEq, Repr

/-- The condition of a component that has just reported success. -/
def ComponentHealth.healthy (now : Int64) : ComponentHealth :=
  { status := .healthy, message := none, consecutiveFailures := 0, lastCheck := now }

/-- The condition of the service and its components, by name. -/
structure HealthReport where
  status : ComponentStatus
  components : List (String × ComponentHealth)
  deriving DecidableEq, Repr

/-- Whether the service takes work, and why not. -/
structure Readiness where
  ready : Bool
  reason : Option String
  deriving DecidableEq, Repr

/-- Components by name, whether the service was declared ready, and the length of a run of failures
that makes a component unhealthy. -/
structure HealthRegistry where
  components : Std.TreeMap String ComponentHealth
  declaredReady : Bool
  threshold : UInt32

namespace HealthRegistry

/-- The run of failures after which a component is unhealthy. -/
def defaultThreshold : UInt32 :=
  3

/-- The registry without components; a threshold of zero counts as one. -/
def withThreshold (threshold : UInt32) : HealthRegistry :=
  { components := ∅, declaredReady := false, threshold := max threshold 1 }

/-- Enters a component as healthy. -/
def register (r : HealthRegistry) (name : String) (now : Int64) : HealthRegistry :=
  { r with components := r.components.insert name (.healthy now) }

/-- Records a success, which ends a run of failures. -/
def reportSuccess (r : HealthRegistry) (name : String) (now : Int64) : HealthRegistry :=
  r.register name now

def reportFailure (r : HealthRegistry) (name message : String) (now : Int64) : HealthRegistry :=
  let failures := (r.components.getD name (.healthy now)).consecutiveFailures + 1
  let status := if r.threshold ≤ failures then .unhealthy else .degraded
  let failed := ComponentHealth.mk status (some message) failures now
  { r with components := r.components.insert name failed }

def setReady (r : HealthRegistry) (ready : Bool) : HealthRegistry :=
  { r with declaredReady := ready }

/-- The condition of the service. -/
def report (r : HealthRegistry) : HealthReport :=
  { status := r.components.values.foldl (fun worst c => worst.worse c.status) .healthy
    components := r.components.toList }

/-- The names of the unhealthy components, sorted. -/
def unhealthyNames (r : HealthRegistry) : List String :=
  (r.components.toList.filter (·.2.status = .unhealthy)).map (·.1)

/-- Whether the service takes work. -/
def readiness (r : HealthRegistry) : Readiness :=
  if !r.declaredReady then { ready := false, reason := some "Scorer not yet initialized" }
  else if r.unhealthyNames.isEmpty then { ready := true, reason := none }
  else { ready := false, reason := some ("Unhealthy: " ++ ", ".intercalate r.unhealthyNames) }

/-- The component that the scorer reports on. -/
def telemetryStore : String :=
  "telemetry_store"

/-- The registry of the service, with the telemetry store entered. -/
def tracked (threshold : UInt32) (now : Int64) : HealthRegistry :=
  (withThreshold threshold).register telemetryStore now

end HealthRegistry

end SocketRanking
