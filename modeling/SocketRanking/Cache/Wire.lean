import SocketRanking.Cache.Basic
import SocketRanking.Json.Decode

/-!
# Cached sockets as JSON

How cache entries are written and read back. In a line of the cache the fields of the entry stand
among those of the line.
-/

namespace SocketRanking

open Decoder (record)

namespace Entry

/-- The members of an entry, which stand alone or among those of a snapshot line. -/
def members (e : Entry Float) : List (String × Json) :=
  [("ipc", .number e.ipc), ("mem_read", .number e.memRead), ("mem_write", .number e.memWrite),
    ("c6res", .number e.c6res)]

/-- An entry is written as its four fields; what is not finite becomes null. -/
def encode (e : Entry Float) : Json :=
  .object e.members

def ipcField : Field Float := ⟨"ipc", .float⟩

def memReadField : Field Float := ⟨"mem_read", .float⟩

def memWriteField : Field Float := ⟨"mem_write", .float⟩

def c6resField : Field Float := ⟨"c6res", .float⟩

/-- What is wrong with the fields of an entry. -/
def probes : List Probe :=
  [ipcField.probe, memReadField.probe, memWriteField.probe, c6resField.probe]

def ofSlots (slots : Slots) : Except DecodeFault (Entry Float) := do
  let ipc ← slots.required ipcField
  let memRead ← slots.required memReadField
  let memWrite ← slots.required memWriteField
  let c6res ← slots.required c6resField
  return { ipc, memRead, memWrite, c6res }

def decoder : Decoder (Entry Float) :=
  record probes ofSlots

end Entry

namespace CachedSocket

/-- A line of the cache, the fields of its entry among its own. -/
def encode (c : CachedSocket Float) : Json :=
  .object ([("node", .string c.key.node), ("socket", .uint32 c.key.socket)] ++ c.entry.members ++
    [("fresh", .bool c.fresh)])

/-- Reads a line of the cache, which is never a list of parts. -/
def decoder : Decoder (CachedSocket Float) :=
  let node : Field String := ⟨"node", .string⟩
  let socket : Field UInt32 := ⟨"socket", .uint32⟩
  let fresh : Field Bool := ⟨"fresh", .bool⟩
  .openRecord ([node.probe, socket.probe] ++ Entry.probes ++ [fresh.probe]) fun slots => do
    let node ← slots.required node
    let socket ← slots.required socket
    let entry ← Entry.ofSlots slots
    let fresh ← slots.required fresh
    return { key := { node, socket }, entry, fresh }

end CachedSocket

end SocketRanking
