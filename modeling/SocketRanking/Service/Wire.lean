import SocketRanking.Cache.Wire
import SocketRanking.Cluster.Wire
import SocketRanking.Health.Wire
import SocketRanking.Scoring.Wire
import SocketRanking.Service.Ranking
import SocketRanking.Telemetry.Wire

/-!
# Requests and answers as JSON

How requests to the service and its answers are written and read back. Each type has its encoder
and its decoder side by side; parts that are absent are left out or written as null, part by part.
-/

namespace SocketRanking

open Decoder (record)

namespace ScoringResult

/-- A result with its breakdown; a missing winner becomes null. -/
def encode (r : ScoringResult Float) : Json :=
  .object [("node", .string r.node), ("score", .number r.score),
    ("socket", .option .uint32 r.socket), ("core_count", .nat r.coreCount),
    ("final_score", .number r.finalScore), ("window_secs", .nat r.windowSecs),
    ("sockets", .list SocketScore.encode r.sockets)]

def decoder : Decoder (ScoringResult Float) :=
  let node : Field String := ⟨"node", .string⟩
  let score : Field Float := ⟨"score", .float⟩
  let socket : Field (Option UInt32) := ⟨"socket", .orNull .uint32⟩
  let coreCount : Field Nat := ⟨"core_count", .nat⟩
  let finalScore : Field Float := ⟨"final_score", .float⟩
  let windowSecs : Field Nat := ⟨"window_secs", .nat⟩
  let sockets : Field (List (SocketScore Float)) := ⟨"sockets", .list SocketScore.decoder⟩
  record [node.probe, score.probe, socket.probe, coreCount.probe, finalScore.probe,
      windowSecs.probe, sockets.probe] fun slots => do
    let node ← slots.required node
    let score ← slots.required score
    let socket ← slots.optional socket
    let coreCount ← slots.required coreCount
    let finalScore ← slots.required finalScore
    let windowSecs ← slots.required windowSecs
    let sockets ← slots.required sockets
    return { node, score, socket, coreCount, finalScore, windowSecs, sockets }

end ScoringResult

namespace Workload

def encode (w : Workload) : Json :=
  .object ([("name", .string w.name)] ++ Json.member? "profile" .string w.profile)

/-- Reads a workload, which may lack a profile. -/
def decoder : Decoder Workload :=
  let name : Field String := ⟨"name", .string⟩
  let profile : Field (Option String) := ⟨"profile", .orNull .string⟩
  record [name.probe, profile.probe] fun slots => do
    let name ← slots.required name
    let profile ← slots.defaulted profile none
    return { name, profile }

end Workload

namespace RankingRequest

def encode (r : RankingRequest) : Json :=
  .object [("workload", r.workload.encode), ("nodes", .list .string r.nodes)]

def decoder : Decoder RankingRequest :=
  let workload : Field Workload := ⟨"workload", Workload.decoder⟩
  let nodes : Field (List String) := ⟨"nodes", .list .string⟩
  record [workload.probe, nodes.probe] fun slots => do
    let workload ← slots.required workload
    let nodes ← slots.required nodes
    return { workload, nodes }

end RankingRequest

namespace Placement

def encode (p : Placement) : Json :=
  .object [("node", .string p.node), ("socket", .uint32 p.socket), ("profile", .string p.profile),
    ("counts_toward_idle", .bool p.countsTowardIdle)]

/-- Reads a placement, which counts toward idle capacity unless it says otherwise. -/
def decoder : Decoder Placement :=
  let node : Field String := ⟨"node", .string⟩
  let socket : Field UInt32 := ⟨"socket", .uint32⟩
  let profile : Field String := ⟨"profile", .string⟩
  let countsTowardIdle : Field Bool := ⟨"counts_toward_idle", .bool⟩
  record [node.probe, socket.probe, profile.probe, countsTowardIdle.probe] fun slots => do
    let node ← slots.required node
    let socket ← slots.required socket
    let profile ← slots.required profile
    let countsTowardIdle ← slots.defaulted countsTowardIdle true
    return { node, socket, profile, countsTowardIdle }

end Placement

namespace HostPriority

/-- A ranking record; a missing winner becomes null. -/
def encode (p : HostPriority Float) : Json :=
  .object [("host", .string p.host), ("socket", .option .uint32 p.socket),
    ("score", .number p.score), ("num_cores", .nat p.coreCount),
    ("final_score", .number p.finalScore), ("window_secs", .nat p.windowSecs)]

def decoder : Decoder (HostPriority Float) :=
  let host : Field String := ⟨"host", .string⟩
  let socket : Field (Option UInt32) := ⟨"socket", .orNull .uint32⟩
  let score : Field Float := ⟨"score", .float⟩
  let coreCount : Field Nat := ⟨"num_cores", .nat⟩
  let finalScore : Field Float := ⟨"final_score", .float⟩
  let windowSecs : Field Nat := ⟨"window_secs", .nat⟩
  record [host.probe, socket.probe, score.probe, coreCount.probe, finalScore.probe,
      windowSecs.probe] fun slots => do
    let host ← slots.required host
    let socket ← slots.optional socket
    let score ← slots.required score
    let coreCount ← slots.required coreCount
    let finalScore ← slots.required finalScore
    let windowSecs ← slots.required windowSecs
    return { host, socket, score, coreCount, finalScore, windowSecs }

end HostPriority

namespace HostFailure

def encode (f : HostFailure) : Json :=
  .object [("host", .string f.host), ("reason", .string f.reason), ("retryable", .bool f.retryable)]

def decoder : Decoder HostFailure :=
  let host : Field String := ⟨"host", .string⟩
  let reason : Field String := ⟨"reason", .string⟩
  let retryable : Field Bool := ⟨"retryable", .bool⟩
  record [host.probe, reason.probe, retryable.probe] fun slots => do
    let host ← slots.required host
    let reason ← slots.required reason
    let retryable ← slots.required retryable
    return { host, reason, retryable }

end HostFailure

namespace PriorityList

def encode (l : PriorityList Float) : Json :=
  .object [("workload", .string l.workload),
    ("priorities", .list HostPriority.encode l.priorities),
    ("failures", .list HostFailure.encode l.failures)]

def decoder : Decoder (PriorityList Float) :=
  let workload : Field String := ⟨"workload", .string⟩
  let priorities : Field (List (HostPriority Float)) := ⟨"priorities", .list HostPriority.decoder⟩
  let failures : Field (List HostFailure) := ⟨"failures", .list HostFailure.decoder⟩
  record [workload.probe, priorities.probe, failures.probe] fun slots => do
    let workload ← slots.required workload
    let priorities ← slots.required priorities
    let failures ← slots.required failures
    return { workload, priorities, failures }

end PriorityList

/-- The idle capacity of a node, as it is reported. -/
structure IdleCapacity (α : Type) where
  node : String
  cores : α
  deriving DecidableEq, Repr

namespace IdleCapacity

def encode (c : IdleCapacity Float) : Json :=
  .object [("node", .string c.node), ("idle_core_equivalent", .number c.cores)]

def decoder : Decoder (IdleCapacity Float) :=
  let node : Field String := ⟨"node", .string⟩
  let cores : Field Float := ⟨"idle_core_equivalent", .float⟩
  record [node.probe, cores.probe] fun slots => do
    let node ← slots.required node
    let cores ← slots.required cores
    return { node, cores }

end IdleCapacity

/-- A failure, as it is reported. -/
structure ErrorBody where
  error : String
  code : String
  deriving DecidableEq, Repr

namespace ErrorBody

def encode (b : ErrorBody) : Json :=
  .object [("error", .string b.error), ("code", .string b.code)]

def decoder : Decoder ErrorBody :=
  let error : Field String := ⟨"error", .string⟩
  let code : Field String := ⟨"code", .string⟩
  record [error.probe, code.probe] fun slots => do
    let error ← slots.required error
    let code ← slots.required code
    return { error, code }

end ErrorBody

end SocketRanking
