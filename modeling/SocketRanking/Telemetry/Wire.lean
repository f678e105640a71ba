import SocketRanking.Json.Decode
import SocketRanking.Json.Reader
import SocketRanking.Telemetry.Log

/-!
# Telemetry as JSON

How metrics, rows and snapshots of the log are written and read back. A snapshot file is the JSON of
a snapshot and nothing else.
-/

namespace SocketRanking

open Decoder (record)

namespace Metric

def encode (m : Metric) : Json :=
  .string m.name

def decoder : Decoder Metric :=
  .oneOf (all.map fun m => (m.name, m))

end Metric

namespace Sample

def encode (s : Sample) : Json :=
  .object ([("timestamp", .int s.timestamp.toInt)] ++ Json.member? "core_id" .uint32 s.core ++
    [("values", .object s.values)])

/-- Reads a row; its values stay raw. -/
def decoder : Decoder Sample :=
  let timestamp : Field Int64 := ⟨"timestamp", .int64⟩
  let core : Field (Option UInt32) := ⟨"core_id", .orNull .uint32⟩
  let values : Field (List (String × Json)) := ⟨"values", .map .raw⟩
  record [timestamp.probe, core.probe, values.probe] fun slots => do
    let timestamp ← slots.required timestamp
    let core ← slots.defaulted core none
    let values ← slots.required values
    return { timestamp, core, values }

end Sample

namespace MetricSet

/-- Metrics without a value are left out. -/
def encode (s : MetricSet Float) : Json :=
  .object (s.toList.map fun (m, x) => (m.name, .number x))

def decoder : Decoder (MetricSet Float) :=
  let slot (m : Metric) : Field (Option Float) := ⟨m.name, .orNull .float⟩
  record (Metric.all.map fun m => (slot m).probe) fun slots => do
    let ipc ← slots.optional (slot .ipc)
    let memRead ← slots.optional (slot .memRead)
    let memWrite ← slots.optional (slot .memWrite)
    let c6res ← slots.optional (slot .c6res)
    let l3Misses ← slots.optional (slot .l3Misses)
    let energy ← slots.optional (slot .energy)
    return { ipc, memRead, memWrite, c6res, l3Misses, energy }

end MetricSet

namespace Performance

def encode (p : Performance Float) : Json :=
  .object [("ipc", .number p.ipc), ("mem_read", .number p.memRead),
    ("mem_write", .number p.memWrite)]

def decoder : Decoder (Performance Float) :=
  let ipc : Field Float := ⟨"ipc", .float⟩
  let memRead : Field Float := ⟨"mem_read", .float⟩
  let memWrite : Field Float := ⟨"mem_write", .float⟩
  record [ipc.probe, memRead.probe, memWrite.probe] fun slots => do
    let ipc ← slots.required ipc
    let memRead ← slots.required memRead
    let memWrite ← slots.required memWrite
    return { ipc, memRead, memWrite }

end Performance

namespace SeriesSnapshot

def encode (s : SeriesSnapshot) : Json :=
  .object [("uuid", .string s.key.uuid), ("socket", .uint32 s.key.socket),
    ("samples", .list Sample.encode s.samples)]

def decoder : Decoder SeriesSnapshot :=
  let uuid : Field String := ⟨"uuid", .string⟩
  let socket : Field UInt32 := ⟨"socket", .uint32⟩
  let samples : Field (List Sample) := ⟨"samples", .list Sample.decoder⟩
  record [uuid.probe, socket.probe, samples.probe] fun slots => do
    let uuid ← slots.required uuid
    let socket ← slots.required socket
    let samples ← slots.required samples
    return { key := { uuid, socket }, samples }

end SeriesSnapshot

namespace LogSnapshot

def encode (s : LogSnapshot) : Json :=
  .object [("series", .list SeriesSnapshot.encode s.series)]

/-- Reads a snapshot, which may lack series. -/
def decoder : Decoder LogSnapshot :=
  let series : Field (List SeriesSnapshot) := ⟨"series", .list SeriesSnapshot.decoder⟩
  record [series.probe] fun slots => do
    let series ← slots.defaulted series []
    return { series }

def parse (text : String) : Except DecodeFault LogSnapshot :=
  decoder (.read text)

end LogSnapshot

end SocketRanking
