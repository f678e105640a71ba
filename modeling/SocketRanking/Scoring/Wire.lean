import SocketRanking.Json.Decode
import SocketRanking.Scoring.Gate
import SocketRanking.Scoring.Strategy

/-!
# Scores as JSON

How strategies, gates and the breakdown of a score are written and read back.
-/

namespace SocketRanking

open Decoder (record)

namespace Strategy

def encode (s : Strategy) : Json :=
  .string s.name

def decoder : Decoder Strategy :=
  .oneOf named

end Strategy

namespace IdleGate

def encode (g : IdleGate) : Json :=
  .string g.name

def decoder : Decoder IdleGate :=
  .oneOf named

end IdleGate

namespace SocketScore

/-- A socket of the breakdown; an unknown idle fraction becomes null. -/
def encode (s : SocketScore Float) : Json :=
  .object [("socket", .uint32 s.socket), ("cores", .nat s.cores),
    ("base_score", .number s.baseScore), ("c6res", .option .number s.c6res),
    ("gated_score", .number s.gatedScore), ("eligible", .bool s.eligible)]

def decoder : Decoder (SocketScore Float) :=
  let socket : Field UInt32 := ⟨"socket", .uint32⟩
  let cores : Field Nat := ⟨"cores", .nat⟩
  let baseScore : Field Float := ⟨"base_score", .float⟩
  let c6res : Field (Option Float) := ⟨"c6res", .orNull .float⟩
  let gatedScore : Field Float := ⟨"gated_score", .float⟩
  let eligible : Field Bool := ⟨"eligible", .bool⟩
  record [socket.probe, cores.probe, baseScore.probe, c6res.probe, gatedScore.probe,
      eligible.probe] fun slots => do
    let socket ← slots.required socket
    let cores ← slots.required cores
    let baseScore ← slots.required baseScore
    let c6res ← slots.optional c6res
    let gatedScore ← slots.required gatedScore
    let eligible ← slots.required eligible
    return { socket, cores, baseScore, c6res, gatedScore, eligible }

end SocketScore

end SocketRanking
