import SocketRanking.Cluster.Profile
import SocketRanking.Cluster.Topology
import SocketRanking.Json.Decode

/-!
# Clusters as JSON

How nodes, hardware classes and profiles are written and read back. Parts of a node that describe
its hardware have values of their own where they are missing.
-/

namespace SocketRanking

open Decoder (record)

namespace SocketKey

def encode (k : SocketKey) : Json :=
  .object [("node", .string k.node), ("socket", .uint32 k.socket)]

def decoder : Decoder SocketKey :=
  let node : Field String := ⟨"node", .string⟩
  let socket : Field UInt32 := ⟨"socket", .uint32⟩
  record [node.probe, socket.probe] fun slots => do
    let node ← slots.required node
    let socket ← slots.required socket
    return { node, socket }

end SocketKey

namespace Socket

def encodeCore (id : UInt32) : Json :=
  .object [("id", .uint32 id)]

def coreDecoder : Decoder UInt32 :=
  let id : Field UInt32 := ⟨"id", .uint32⟩
  record [id.probe] fun slots => slots.required id

def encode (s : Socket) : Json :=
  .object [("id", .uint32 s.id), ("cores", .list encodeCore s.cores)]

/-- Reads a socket; without cores it has none. -/
def decoder : Decoder Socket :=
  let id : Field UInt32 := ⟨"id", .uint32⟩
  let cores : Field (List UInt32) := ⟨"cores", .list coreDecoder⟩
  record [id.probe, cores.probe] fun slots => do
    let id ← slots.required id
    let cores ← slots.defaulted cores []
    return { id, cores }

end Socket

namespace Node

def encode (n : Node) : Json :=
  .object [("name", .string n.name), ("uuid", .string n.uuid),
    ("threads_per_core", .uint32 n.threadsPerCore), ("max_ghz", .number n.maxGhz),
    ("l1d_cache_kb", .uint32 n.l1dCacheKb), ("l1i_cache_kb", .uint32 n.l1iCacheKb),
    ("l2_cache_kb", .uint32 n.l2CacheKb), ("l3_cache_kb", .uint32 n.l3CacheKb),
    ("sockets", .list Socket.encode n.sockets)]

/-- Reads a node. Its name, its hardware identity and its sockets must be there. -/
def decoder : Decoder Node :=
  let name : Field String := ⟨"name", .string⟩
  let uuid : Field String := ⟨"uuid", .string⟩
  let threadsPerCore : Field UInt32 := ⟨"threads_per_core", .uint32⟩
  let maxGhz : Field Float := ⟨"max_ghz", .float⟩
  let cacheKb (key : String) : Field UInt32 := ⟨key, .uint32⟩
  let sockets : Field (List Socket) := ⟨"sockets", .list Socket.decoder⟩
  record [name.probe, uuid.probe, threadsPerCore.probe, maxGhz.probe,
      (cacheKb "l1d_cache_kb").probe, (cacheKb "l1i_cache_kb").probe,
      (cacheKb "l2_cache_kb").probe, (cacheKb "l3_cache_kb").probe, sockets.probe] fun slots => do
    let name ← slots.required name
    let uuid ← slots.required uuid
    let threadsPerCore ← slots.defaulted threadsPerCore 1
    let maxGhz ← slots.defaulted maxGhz 0.0
    let l1dCacheKb ← slots.defaulted (cacheKb "l1d_cache_kb") 0
    let l1iCacheKb ← slots.defaulted (cacheKb "l1i_cache_kb") 0
    let l2CacheKb ← slots.defaulted (cacheKb "l2_cache_kb") 0
    let l3CacheKb ← slots.defaulted (cacheKb "l3_cache_kb") 0
    let sockets ← slots.required sockets
    return { name, uuid, threadsPerCore, maxGhz, l1dCacheKb, l1iCacheKb, l2CacheKb, l3CacheKb,
             sockets }

end Node

namespace HardwareClass

/-- A hardware class is written with its two factors as a list. -/
def encode (c : HardwareClass Float) : Json :=
  .object [("uuid", .string c.uuid),
    ("interconnect", .array [.number c.interconnect.1, .number c.interconnect.2]),
    ("max_frequency_ghz", .number c.maxFrequencyGhz)]

/-- Reads a hardware class, which has exactly two factors. -/
def decoder : Decoder (HardwareClass Float) :=
  let uuid : Field String := ⟨"uuid", .string⟩
  let interconnect : Field (Float × Float) := ⟨"interconnect", .pair .float⟩
  let maxFrequencyGhz : Field Float := ⟨"max_frequency_ghz", .float⟩
  record [uuid.probe, interconnect.probe, maxFrequencyGhz.probe] fun slots => do
    let uuid ← slots.required uuid
    let interconnect ← slots.required interconnect
    let maxFrequencyGhz ← slots.required maxFrequencyGhz
    return { uuid, interconnect, maxFrequencyGhz }

end HardwareClass

namespace ClassEntry

/-- A listed hardware class is written with its factors as a list. -/
def encode (c : ClassEntry Float) : Json :=
  .object [("uuid", .string c.uuid), ("interconnect", .list .number c.interconnect),
    ("max_frequency_ghz", .number c.maxFrequencyGhz)]

/-- Reads a listed hardware class; how many factors it has is checked later. -/
def decoder : Decoder (ClassEntry Float) :=
  let uuid : Field String := ⟨"uuid", .string⟩
  let interconnect : Field (List Float) := ⟨"interconnect", .list .float⟩
  let maxFrequencyGhz : Field Float := ⟨"max_frequency_ghz", .float⟩
  record [uuid.probe, interconnect.probe, maxFrequencyGhz.probe] fun slots => do
    let uuid ← slots.required uuid
    let interconnect ← slots.required interconnect
    let maxFrequencyGhz ← slots.required maxFrequencyGhz
    return { uuid, interconnect, maxFrequencyGhz }

end ClassEntry

namespace TopologyFile

def encode (f : TopologyFile Float) : Json :=
  .object [("nodes", .list Node.encode f.nodes),
    ("hardware_classes", .list ClassEntry.encode f.classes)]

/-- Reads a topology, which may lack nodes or classes. -/
def decoder : Decoder (TopologyFile Float) :=
  let nodes : Field (List Node) := ⟨"nodes", .list Node.decoder⟩
  let classes : Field (List (ClassEntry Float)) := ⟨"hardware_classes", .list ClassEntry.decoder⟩
  record [nodes.probe, classes.probe] fun slots => do
    let nodes ← slots.defaulted nodes []
    let classes ← slots.defaulted classes []
    return { nodes, classes }

end TopologyFile

namespace AppProfile

def encode (p : AppProfile Float) : Json :=
  .object [("ipc", .number p.ipc), ("mem_read", .number p.memRead),
    ("mem_write", .number p.memWrite), ("c6res", .number p.c6res),
    ("duration_secs", .nat p.durationSecs)]

def decoder : Decoder (AppProfile Float) :=
  let ipc : Field Float := ⟨"ipc", .float⟩
  let memRead : Field Float := ⟨"mem_read", .float⟩
  let memWrite : Field Float := ⟨"mem_write", .float⟩
  let c6res : Field Float := ⟨"c6res", .float⟩
  let durationSecs : Field Nat := ⟨"duration_secs", .nat⟩
  record [ipc.probe, memRead.probe, memWrite.probe, c6res.probe, durationSecs.probe]
    fun slots => do
      let ipc ← slots.required ipc
      let memRead ← slots.required memRead
      let memWrite ← slots.required memWrite
      let c6res ← slots.required c6res
      let durationSecs ← slots.required durationSecs
      return { ipc, memRead, memWrite, c6res, durationSecs }

end AppProfile

namespace Catalog

def encode (c : Catalog Float) : Json :=
  .object [("profiles", .object (c.toList.map fun (name, p) => (name, p.encode)))]

end Catalog

end SocketRanking
