import SocketRanking.Cluster.Profile
import SocketRanking.Cluster.Topology
import SocketRanking.Config.Layer
import SocketRanking.Config.Reader

/-!
# Topology and profile files

The files that describe the cluster and its applications are read like the configuration of the
service, except that they have to exist. So the names of profiles, which are keys of a table, come
out in lower case, and the names of nodes, which are texts, as they were written.
-/

namespace SocketRanking

open Config (Reader Parts Layer)

/-- Why a file was not loaded. -/
inductive FileError where
  /-- There is no such file, or it is not of the right form. -/
  | unreadable
  /-- What the file says was refused. -/
  | refused (failure : Failure)
  deriving DecidableEq, Repr

def Config.Reader.file {α : Type} (reader : Reader α) (file : Option String) :
    Except FileError α :=
  match (file.bind Layer.ofText?).bind fun layer => reader (Layer.build [layer]) with
  | some a => .ok a
  | none => .error .unreadable

namespace Socket

def coreReader : Reader UInt32 :=
  .record ["id"] fun parts => parts.required "id" .uint32

def reader : Reader Socket :=
  .record ["id", "cores"] fun parts => do
    let id ← parts.required "id" .uint32
    let cores ← parts.defaulted "cores" (.list coreReader) []
    return { id, cores }

end Socket

namespace Node

def reader : Reader Node :=
  .record ["name", "uuid", "threads_per_core", "max_ghz", "l1d_cache_kb", "l1i_cache_kb",
      "l2_cache_kb", "l3_cache_kb", "sockets"] fun parts => do
    let name ← parts.required "name" .text
    let uuid ← parts.required "uuid" .text
    let threadsPerCore ← parts.defaulted "threads_per_core" .uint32 1
    let maxGhz ← parts.defaulted "max_ghz" .float 0.0
    let l1dCacheKb ← parts.defaulted "l1d_cache_kb" .uint32 0
    let l1iCacheKb ← parts.defaulted "l1i_cache_kb" .uint32 0
    let l2CacheKb ← parts.defaulted "l2_cache_kb" .uint32 0
    let l3CacheKb ← parts.defaulted "l3_cache_kb" .uint32 0
    let sockets ← parts.required "sockets" (.list Socket.reader)
    return { name, uuid, threadsPerCore, maxGhz, l1dCacheKb, l1iCacheKb, l2CacheKb, l3CacheKb,
             sockets }

end Node

def ClassEntry.reader : Reader (ClassEntry Float) :=
  .record ["uuid", "interconnect", "max_frequency_ghz"] fun parts => do
    let uuid ← parts.required "uuid" .text
    let interconnect ← parts.required "interconnect" (.list .float)
    let maxFrequencyGhz ← parts.required "max_frequency_ghz" .float
    return { uuid, interconnect, maxFrequencyGhz }

def TopologyFile.reader : Reader (TopologyFile Float) :=
  .record ["nodes", "hardware_classes"] fun parts => do
    let nodes ← parts.defaulted "nodes" (.list Node.reader) []
    let classes ← parts.defaulted "hardware_classes" (.list ClassEntry.reader) []
    return { nodes, classes }

def Topology.load (file : Option String) : Except FileError (Topology Float) := do
  let description ← TopologyFile.reader.file file
  match Topology.ofFile description with
  | .ok topology => .ok topology
  | .error failure => .error (.refused failure)

def AppProfile.reader : Reader (AppProfile Float) :=
  .record ["ipc", "mem_read", "mem_write", "c6res", "duration_secs"] fun parts => do
    let ipc ← parts.required "ipc" .float
    let memRead ← parts.required "mem_read" .float
    let memWrite ← parts.required "mem_write" .float
    let c6res ← parts.required "c6res" .float
    let durationSecs ← parts.required "duration_secs" .word
    return { ipc, memRead, memWrite, c6res, durationSecs }

namespace Catalog

def reader : Reader (List (String × AppProfile Float)) :=
  .record ["profiles"] fun parts => parts.defaulted "profiles" (.map AppProfile.reader) []

def load (file : Option String) : Except FileError (Catalog Float) := do
  let profiles ← reader.file file
  return builtin.extend profiles

end Catalog

end SocketRanking
