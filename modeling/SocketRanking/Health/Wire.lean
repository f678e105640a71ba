import SocketRanking.Health
import SocketRanking.Json.Decode

/-!
# Health as JSON

How the condition of the service is written and read back.
-/

namespace SocketRanking

open Decoder (record)

namespace ComponentStatus

def encode (s : ComponentStatus) : Json :=
  .string s.name

def decoder : Decoder ComponentStatus :=
  .oneOf named

end ComponentStatus

namespace ComponentHealth

/-- The condition of a component; without a message there is no member for it. -/
def encode (c : ComponentHealth) : Json :=
  .object ([("status", c.status.encode)] ++ Json.member? "message" .string c.message ++
    [("consecutive_failures", .uint32 c.consecutiveFailures),
      ("last_check_timestamp", .int c.lastCheck.toInt)])

def decoder : Decoder ComponentHealth :=
  let status : Field ComponentStatus := ⟨"status", ComponentStatus.decoder⟩
  let message : Field (Option String) := ⟨"message", .orNull .string⟩
  let consecutiveFailures : Field UInt32 := ⟨"consecutive_failures", .uint32⟩
  let lastCheck : Field Int64 := ⟨"last_check_timestamp", .int64⟩
  record [status.probe, message.probe, consecutiveFailures.probe, lastCheck.probe]
    fun slots => do
      let status ← slots.required status
      let message ← slots.optional message
      let consecutiveFailures ← slots.required consecutiveFailures
      let lastCheck ← slots.required lastCheck
      return { status, message, consecutiveFailures, lastCheck }

end ComponentHealth

namespace HealthReport

def encode (r : HealthReport) : Json :=
  .object [("status", r.status.encode),
    ("components", .object (r.components.map fun (name, c) => (name, c.encode)))]

def decoder : Decoder HealthReport :=
  let status : Field ComponentStatus := ⟨"status", ComponentStatus.decoder⟩
  let components : Field (List (String × ComponentHealth)) :=
    ⟨"components", .map ComponentHealth.decoder⟩
  record [status.probe, components.probe] fun slots => do
    let status ← slots.required status
    let components ← slots.required components
    return { status, components }

end HealthReport

namespace Readiness

def encode (r : Readiness) : Json :=
  .object ([("ready", .bool r.ready)] ++ Json.member? "reason" .string r.reason)

def decoder : Decoder Readiness :=
  let ready : Field Bool := ⟨"ready", .bool⟩
  let reason : Field (Option String) := ⟨"reason", .orNull .string⟩
  record [ready.probe, reason.probe] fun slots => do
    let ready ← slots.required ready
    let reason ← slots.optional reason
    return { ready, reason }

end Readiness

end SocketRanking
