import SocketRanking.Json.Decode

/-!
# What the client reads and writes

The client has types of its own for the answers of the service and for its requests, and their
wire form is declared here a second time. It takes states of health as plain texts, keeps the
lines of the cache flat, and can do without the code of an error. Of its requests it only writes
the wire form, of which the service is the reader.
-/

namespace SocketRanking.Client

open Decoder (record)

/-! ## Answers -/

/-- A socket in the breakdown of a score. -/
structure SocketLine where
  socket : UInt32
  cores : Nat
  baseScore : Float
  c6res : Option Float
  gatedScore : Float
  eligible : Bool
  deriving DecidableEq

namespace SocketLine

/-- An unknown idle fraction becomes null. -/
def encode (s : SocketLine) : Json :=
  .object [("socket", .uint32 s.socket), ("cores", .nat s.cores),
    ("base_score", .number s.baseScore), ("c6res", .option .number s.c6res),
    ("gated_score", .number s.gatedScore), ("eligible", .bool s.eligible)]

def decoder : Decoder SocketLine :=
  let socket : Field UInt32 := ⟨"socket", .uint32⟩
  let cores : Field Nat := ⟨"cores", .nat⟩
  let baseScore : Field Float := ⟨"base_score", .float⟩
  let c6res : Field (Option Float) := ⟨"c6res", .orNull .float⟩
  let gatedScore : Field Float := ⟨"gated_score", .float⟩
  let eligible : Field Bool := ⟨"eligible", .bool⟩
  record [socket.probe, cores.probe, baseScore.probe, c6res.probe, gatedScore.probe,
      eligible.probe] fun slots => do
    let socket ← slots.required socket
    let cores ← slots.required cores
    let baseScore ← slots.required baseScore
    let c6res ← slots.optional c6res
    let gatedScore ← slots.required gatedScore
    let eligible ← slots.required eligible
    return { socket, cores, baseScore, c6res, gatedScore, eligible }

end SocketLine

/-- The score of a node with its breakdown. -/
structure NodeScore where
  node : String
  score : Float
  socket : Option UInt32
  coreCount : Nat
  finalScore : Float
  windowSecs : Nat
  sockets : List SocketLine
  deriving DecidableEq

namespace NodeScore

/-- A missing winner becomes null. -/
def encode (r : NodeScore) : Json :=
  .object [("node", .string r.node), ("score", .number r.score),
    ("socket", .option .uint32 r.socket), ("core_count", .nat r.coreCount),
    ("final_score", .number r.finalScore), ("window_secs", .nat r.windowSecs),
    ("sockets", .list SocketLine.encode r.sockets)]

def decoder : Decoder NodeScore :=
  let node : Field String := ⟨"node", .string⟩
  let score : Field Float := ⟨"score", .float⟩
  let socket : Field (Option UInt32) := ⟨"socket", .orNull .uint32⟩
  let coreCount : Field Nat := ⟨"core_count", .nat⟩
  let finalScore : Field Float := ⟨"final_score", .float⟩
  let windowSecs : Field Nat := ⟨"window_secs", .nat⟩
  let sockets : Field (List SocketLine) := ⟨"sockets", .list SocketLine.decoder⟩
  record [node.probe, score.probe, socket.probe, coreCount.probe, finalScore.probe,
      windowSecs.probe, sockets.probe] fun slots => do
    let node ← slots.required node
    let score ← slots.required score
    let socket ← slots.optional socket
    let coreCount ← slots.required coreCount
    let finalScore ← slots.required finalScore
    let windowSecs ← slots.required windowSecs
    let sockets ← slots.required sockets
    return { node, score, socket, coreCount, finalScore, windowSecs, sockets }

end NodeScore

structure RankedHost where
  host : String
  socket : Option UInt32
  score : Float
  coreCount : Nat
  finalScore : Float
  windowSecs : Nat
  deriving DecidableEq

namespace RankedHost

/-- A missing winner becomes null. -/
def encode (h : RankedHost) : Json :=
  .object [("host", .string h.host), ("socket", .option .uint32 h.socket),
    ("score", .number h.score), ("num_cores", .nat h.coreCount),
    ("final_score", .number h.finalScore), ("window_secs", .nat h.windowSecs)]

def decoder : Decoder RankedHost :=
  let host : Field String := ⟨"host", .string⟩
  let socket : Field (Option UInt32) := ⟨"socket", .orNull .uint32⟩
  let score : Field Float := ⟨"score", .float⟩
  let coreCount : Field Nat := ⟨"num_cores", .nat⟩
  let finalScore : Field Float := ⟨"final_score", .float⟩
  let windowSecs : Field Nat := ⟨"window_secs", .nat⟩
  record [host.probe, socket.probe, score.probe, coreCount.probe, finalScore.probe,
      windowSecs.probe] fun slots => do
    let host ← slots.required host
    let socket ← slots.optional socket
    let score ← slots.required score
    let coreCount ← slots.required coreCount
    let finalScore ← slots.required finalScore
    let windowSecs ← slots.required windowSecs
    return { host, socket, score, coreCount, finalScore, windowSecs }

end RankedHost

structure FailedHost where
  host : String
  reason : String
  retryable : Bool
  deriving DecidableEq

namespace FailedHost

def encode (f : FailedHost) : Json :=
  .object [("host", .string f.host), ("reason", .string f.reason), ("retryable", .bool f.retryable)]

def decoder : Decoder FailedHost :=
  let host : Field String := ⟨"host", .string⟩
  let reason : Field String := ⟨"reason", .string⟩
  let retryable : Field Bool := ⟨"retryable", .bool⟩
  record [host.probe, reason.probe, retryable.probe] fun slots => do
    let host ← slots.required host
    let reason ← slots.required reason
    let retryable ← slots.required retryable
    return { host, reason, retryable }

end FailedHost

/-- Ranked hosts, best first, and the hosts that failed. -/
structure HostRanking where
  workload : String
  priorities : List RankedHost
  failures : List FailedHost
  deriving DecidableEq

namespace HostRanking

def encode (l : HostRanking) : Json :=
  .object [("workload", .string l.workload), ("priorities", .list RankedHost.encode l.priorities),
    ("failures", .list FailedHost.encode l.failures)]

def decoder : Decoder HostRanking :=
  let workload : Field String := ⟨"workload", .string⟩
  let priorities : Field (List RankedHost) := ⟨"priorities", .list RankedHost.decoder⟩
  let failures : Field (List FailedHost) := ⟨"failures", .list FailedHost.decoder⟩
  record [workload.probe, priorities.probe, failures.probe] fun slots => do
    let workload ← slots.required workload
    let priorities ← slots.required priorities
    let failures ← slots.required failures
    return { workload, priorities, failures }

end HostRanking

/-- The idle capacity of a node in cores. -/
structure IdleCores where
  node : String
  cores : Float
  deriving DecidableEq

namespace IdleCores

def encode (c : IdleCores) : Json :=
  .object [("node", .string c.node), ("idle_core_equivalent", .number c.cores)]

def decoder : Decoder IdleCores :=
  let node : Field String := ⟨"node", .string⟩
  let cores : Field Float := ⟨"idle_core_equivalent", .float⟩
  record [node.probe, cores.probe] fun slots => do
    let node ← slots.required node
    let cores ← slots.required cores
    return { node, cores }

end IdleCores

structure CacheLine where
  node : String
  socket : UInt32
  ipc : Float
  memRead : Float
  memWrite : Float
  c6res : Float
  fresh : Bool
  deriving DecidableEq

namespace CacheLine

def encode (c : CacheLine) : Json :=
  .object [("node", .string c.node), ("socket", .uint32 c.socket), ("ipc", .number c.ipc),
    ("mem_read", .number c.memRead), ("mem_write", .number c.memWrite), ("c6res", .number c.c6res),
    ("fresh", .bool c.fresh)]

def decoder : Decoder CacheLine :=
  let node : Field String := ⟨"node", .string⟩
  let socket : Field UInt32 := ⟨"socket", .uint32⟩
  let ipc : Field Float := ⟨"ipc", .float⟩
  let memRead : Field Float := ⟨"mem_read", .float⟩
  let memWrite : Field Float := ⟨"mem_write", .float⟩
  let c6res : Field Float := ⟨"c6res", .float⟩
  let fresh : Field Bool := ⟨"fresh", .bool⟩
  record [node.probe, socket.probe, ipc.probe, memRead.probe, memWrite.probe, c6res.probe,
      fresh.probe] fun slots => do
    let node ← slots.required node
    let socket ← slots.required socket
    let ipc ← slots.required ipc
    let memRead ← slots.required memRead
    let memWrite ← slots.required memWrite
    let c6res ← slots.required c6res
    let fresh ← slots.required fresh
    return { node, socket, ipc, memRead, memWrite, c6res, fresh }

end CacheLine

structure Footprint where
  ipc : Float
  memRead : Float
  memWrite : Float
  c6res : Float
  durationSecs : Nat
  deriving DecidableEq

namespace Footprint

def encode (p : Footprint) : Json :=
  .object [("ipc", .number p.ipc), ("mem_read", .number p.memRead),
    ("mem_write", .number p.memWrite), ("c6res", .number p.c6res),
    ("duration_secs", .nat p.durationSecs)]

def decoder : Decoder Footprint :=
  let ipc : Field Float := ⟨"ipc", .float⟩
  let memRead : Field Float := ⟨"mem_read", .float⟩
  let memWrite : Field Float := ⟨"mem_write", .float⟩
  let c6res : Field Float := ⟨"c6res", .float⟩
  let durationSecs : Field Nat := ⟨"duration_secs", .nat⟩
  record [ipc.probe, memRead.probe, memWrite.probe, c6res.probe, durationSecs.probe]
    fun slots => do
      let ipc ← slots.required ipc
      let memRead ← slots.required memRead
      let memWrite ← slots.required memWrite
      let c6res ← slots.required c6res
      let durationSecs ← slots.required durationSecs
      return { ipc, memRead, memWrite, c6res, durationSecs }

end Footprint

/-- The profiles that the service knows, sorted by name. -/
structure ProfileList where
  profiles : List (String × Footprint)
  deriving DecidableEq

namespace ProfileList

def encode (l : ProfileList) : Json :=
  .object [("profiles", .object (l.profiles.map fun (name, p) => (name, p.encode)))]

def decoder : Decoder ProfileList :=
  let profiles : Field (List (String × Footprint)) := ⟨"profiles", .map Footprint.decoder⟩
  record [profiles.probe] fun slots => do
    let profiles ← slots.required profiles
    return { profiles }

end ProfileList

/-- The condition of a component, its state as a text. -/
structure ComponentReport where
  status : String
  message : Option String
  consecutiveFailures : UInt32
  lastCheck : Int64
  deriving DecidableEq, Repr

namespace ComponentReport

/-- Without a message there is no member for it. -/
def encode (c : ComponentReport) : Json :=
  .object ([("status", .string c.status)] ++ Json.member? "message" .string c.message ++
    [("consecutive_failures", .uint32 c.consecutiveFailures),
      ("last_check_timestamp", .int c.lastCheck.toInt)])

def decoder : Decoder ComponentReport :=
  let status : Field String := ⟨"status", .string⟩
  let message : Field (Option String) := ⟨"message", .orNull .string⟩
  let consecutiveFailures : Field UInt32 := ⟨"consecutive_failures", .uint32⟩
  let lastCheck : Field Int64 := ⟨"last_check_timestamp", .int64⟩
  record [status.probe, message.probe, consecutiveFailures.probe, lastCheck.probe]
    fun slots => do
      let status ← slots.required status
      let message ← slots.optional message
      let consecutiveFailures ← slots.required consecutiveFailures
      let lastCheck ← slots.required lastCheck
      return { status, message, consecutiveFailures, lastCheck }

end ComponentReport

/-- The condition of the service, states as texts, components sorted by name. -/
structure HealthView where
  status : String
  components : List (String × ComponentReport)
  deriving DecidableEq, Repr

namespace HealthView

def encode (h : HealthView) : Json :=
  .object [("status", .string h.status),
    ("components", .object (h.components.map fun (name, c) => (name, c.encode)))]

def decoder : Decoder HealthView :=
  let status : Field String := ⟨"status", .string⟩
  let components : Field (List (String × ComponentReport)) :=
    ⟨"components", .map ComponentReport.decoder⟩
  record [status.probe, components.probe] fun slots => do
    let status ← slots.required status
    let components ← slots.required components
    return { status, components }

end HealthView

/-- Whether the service takes work, and why not. -/
structure ReadinessView where
  ready : Bool
  reason : Option String
  deriving DecidableEq, Repr

namespace ReadinessView

/-- Without a reason there is no member for it. -/
def encode (r : ReadinessView) : Json :=
  .object ([("ready", .bool r.ready)] ++ Json.member? "reason" .string r.reason)

def decoder : Decoder ReadinessView :=
  let ready : Field Bool := ⟨"ready", .bool⟩
  let reason : Field (Option String) := ⟨"reason", .orNull .string⟩
  record [ready.probe, reason.probe] fun slots => do
    let ready ← slots.required ready
    let reason ← slots.optional reason
    return { ready, reason }

end ReadinessView

/-- A failure that the service reports. -/
structure ErrorNotice where
  error : String
  code : Option String
  deriving DecidableEq, Repr

namespace ErrorNotice

/-- Without a code there is no member for it. -/
def encode (e : ErrorNotice) : Json :=
  .object ([("error", .string e.error)] ++ Json.member? "code" .string e.code)

def decoder : Decoder ErrorNotice :=
  let error : Field String := ⟨"error", .string⟩
  let code : Field (Option String) := ⟨"code", .orNull .string⟩
  record [error.probe, code.probe] fun slots => do
    let error ← slots.required error
    let code ← slots.optional code
    return { error, code }

end ErrorNotice

/-! ## Requests -/

/-- A workload to place, with its profile if it is known. -/
structure Job where
  name : String
  profile : Option String
  deriving DecidableEq, Repr

/-- Without a profile there is no member for it. -/
def Job.encode (w : Job) : Json :=
  .object ([("name", .string w.name)] ++ Json.member? "profile" .string w.profile)

/-- A request to rank nodes for a workload. -/
structure RankingOrder where
  workload : Job
  nodes : List String
  deriving DecidableEq, Repr

def RankingOrder.encode (o : RankingOrder) : Json :=
  .object [("workload", o.workload.encode), ("nodes", .list .string o.nodes)]

/-- A report that a workload was placed on a socket. -/
structure PlacementReport where
  node : String
  socket : UInt32
  profile : String
  countsTowardIdle : Bool
  deriving DecidableEq, Repr

def PlacementReport.encode (p : PlacementReport) : Json :=
  .object [("node", .string p.node), ("socket", .uint32 p.socket), ("profile", .string p.profile),
    ("counts_toward_idle", .bool p.countsTowardIdle)]

end SocketRanking.Client
