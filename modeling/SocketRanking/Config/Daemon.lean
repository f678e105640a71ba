import SocketRanking.Config.Layer
import SocketRanking.Config.Reader
import SocketRanking.Number.Shortest
import SocketRanking.Scoring.Settings

/-!
# Configuration of the service

What the service reads when it starts: an optional file and, over it, the environment. Everything
has a value of its own where nothing is said. The sampling interval is checked at once, because no
number of rows covers a window without one.
-/

namespace SocketRanking

/-- The span nearest to a number of seconds, a half to the even nanosecond. There is none for a
negative number and for one beyond 64 bits. -/
def Duration.ofSeconds? (secs : Float) : Option Duration :=
  if secs.isNaN || secs < 0.0 || secs.isInf then none
  else
    let b := Number.Binary.ofFloat secs
    let nanos := Number.roundHalfEven (b.numerator * 1000000000) b.denominator
    if nanos < Number.twoPow 64 * 1000000000 then some ⟨nanos⟩ else none

structure TelemetryOptions where
  /-- A snapshot file to serve telemetry from. -/
  snapshotPath : Option String := none
  sampleIntervalSecs : Float := 0.2
  deriving DecidableEq

/-- How long the cache holds. -/
structure CacheOptions where
  ttlSecs : Nat := 10
  deriving DecidableEq, Repr

structure ScoringOptions where
  windowSecs : Nat := 20
  strategy : Strategy := .ipcPerBandwidth
  idleGate : IdleGate := .inOrder
  failureThreshold : UInt32 := 3
  deriving DecidableEq, Repr

structure DaemonConfig where
  /-- The name of the instance in records. -/
  instanceName : String
  apiPort : Nat := 8080
  topologyPath : String := "infra.yaml"
  /-- A file of profiles beside the ones that are built in. -/
  profilesPath : Option String := none
  telemetry : TelemetryOptions := {}
  cache : CacheOptions := {}
  scoring : ScoringOptions := {}
  deriving DecidableEq

inductive ConfigError where
  /-- The file is not of the right form. -/
  | unreadable
  /-- A value is not of the right kind. -/
  | invalid
  /-- The sampling interval is no span of time. -/
  | noInterval (secs : Float)
  deriving DecidableEq

def ConfigError.message : ConfigError → String
  | unreadable => "Failed to read scorer configuration"
  | invalid => "Invalid scorer configuration"
  | noInterval secs =>
    "telemetry.sample_interval_secs must be positive, got " ++ Number.plainText secs

open Config (Reader Parts Layer)

def TelemetryOptions.reader : Reader TelemetryOptions :=
  .record ["snapshot_path", "sample_interval_secs"] fun parts => do
    let snapshotPath ← parts.defaulted "snapshot_path" (.orNull .text) none
    let sampleIntervalSecs ← parts.defaulted "sample_interval_secs" .float 0.2
    return { snapshotPath, sampleIntervalSecs }

def CacheOptions.reader : Reader CacheOptions :=
  .record ["ttl_secs"] fun parts => do
    let ttlSecs ← parts.defaulted "ttl_secs" .word 10
    return { ttlSecs }

def ScoringOptions.reader : Reader ScoringOptions :=
  .record ["window_secs", "strategy", "idle_gate", "health_failure_threshold"] fun parts => do
    let windowSecs ← parts.defaulted "window_secs" .word 20
    let strategy ← parts.defaulted "strategy" (.oneOf Strategy.named) .ipcPerBandwidth
    let idleGate ← parts.defaulted "idle_gate" (.oneOf IdleGate.named) .inOrder
    let failureThreshold ← parts.defaulted "health_failure_threshold" .uint32 3
    return { windowSecs, strategy, idleGate, failureThreshold }

namespace DaemonConfig

/-- Reads a configuration; the instance is named after the host if nothing else is said. -/
def reader (hostName : String) : Reader DaemonConfig :=
  .record
    ["instance", "api_port", "topology_path", "profiles_path", "telemetry", "cache", "scoring"]
    fun parts => do
      let instanceName ← parts.defaulted "instance" .text hostName
      let apiPort ← parts.defaulted "api_port" (.below 65536) 8080
      let topologyPath ← parts.defaulted "topology_path" .text "infra.yaml"
      let profilesPath ← parts.defaulted "profiles_path" (.orNull .text) none
      let telemetry ← parts.defaulted "telemetry" TelemetryOptions.reader {}
      let cache ← parts.defaulted "cache" CacheOptions.reader {}
      let scoring ← parts.defaulted "scoring" ScoringOptions.reader {}
      return { instanceName, apiPort, topologyPath, profilesPath, telemetry, cache, scoring }

def cacheTtl (c : DaemonConfig) : Duration :=
  .ofSecs c.cache.ttlSecs

/-- The settings of the scorer, if the sampling interval is a span of time. -/
def settings (c : DaemonConfig) : Except ConfigError Settings :=
  match (Duration.ofSeconds? c.telemetry.sampleIntervalSecs).filter (·.nanos ≠ 0) with
  | some sampleInterval =>
    .ok { window := .ofSecs c.scoring.windowSecs, sampleInterval
          strategy := c.scoring.strategy, idleGate := c.scoring.idleGate }
  | none => .error (.noInterval c.telemetry.sampleIntervalSecs)

/-- The name of an instance for which no name is configured. -/
def defaultInstance (environment : List (String × String)) : String :=
  (environment.lookup "HOSTNAME").getD "scorerd"

/-- The layers of a file, if there is one, and the environment. -/
def layers (file : Option String) (environment : List (String × String)) :
    Except ConfigError (List Layer) :=
  match file with
  | none => .ok [.ofEnvironment environment]
  | some text =>
    match Layer.ofText? text with
    | some layer => .ok [layer, .ofEnvironment environment]
    | none => .error .unreadable

/-- Loads the configuration from the text of the file, if there is one, and the environment. -/
def load (file : Option String) (environment : List (String × String)) :
    Except ConfigError DaemonConfig := do
  let layers ← layers file environment
  match reader (defaultInstance environment) (Layer.build layers) with
  | none => .error .invalid
  | some config =>
    let _ ← config.settings
    return config

end DaemonConfig

end SocketRanking
