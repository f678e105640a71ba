import SocketRanking.Proofs.Json.Decoding
import SocketRanking.Service.Wire

/-!
# Round trips of the types of the service

Whatever the service writes and reads, it reads back as it was written.  Quantities have
to be finite, for JSON has no other numbers, and what is kept under names has to be sorted
by name, as the service keeps it.  Every record goes the same way: each of its members is
read back on its own, so all of them are accepted, and the record is put together again.
-/

namespace SocketRanking

open Decoder

/-! ## Clusters -/

theorem SocketKey.decoder_encode (k : SocketKey) : decoder k.encode = .ok k := by
  rw [encode, decoder, read_record (by simp) (by simp)]
  simp

namespace Socket

theorem coreDecoder_encodeCore (id : UInt32) : coreDecoder (encodeCore id) = .ok id := by
  rw [encodeCore, coreDecoder, read_record (by simp) (by simp)]
  simp

theorem decoder_encode (s : Socket) : decoder s.encode = .ok s := by
  have hcores : Decoder.list coreDecoder (.list encodeCore s.cores) = .ok s.cores :=
    read_list_self fun id _ => coreDecoder_encodeCore id
  rw [encode, decoder, read_record (by simp) (by simp [hcores])]
  simp [hcores]

end Socket

theorem Node.decoder_encode {n : Node} (hfinite : n.maxGhz.isFinite = true) :
    decoder n.encode = .ok n := by
  have hsockets : Decoder.list Socket.decoder (.list Socket.encode n.sockets) = .ok n.sockets :=
    read_list_self fun s _ => s.decoder_encode
  rw [encode, decoder, read_record (by simp) (by simp [hfinite, hsockets])]
  simp [hfinite, hsockets]

namespace HardwareClass

def numbers (c : HardwareClass Float) : List Float :=
  [c.interconnect.1, c.interconnect.2, c.maxFrequencyGhz]

theorem decoder_encode {c : HardwareClass Float} (hfinite : AllFinite c.numbers) :
    decoder c.encode = .ok c := by
  obtain ⟨uuid, ⟨first, second⟩, ghz⟩ := c
  simp only [numbers, allFinite_cons] at hfinite
  obtain ⟨hfirst, hsecond, hfrequency, -⟩ := hfinite
  have hinterconnect : Decoder.pair .float (.array [.number first, .number second]) =
      .ok (first, second) := by
    rw [Decoder.pair, read_number hfirst, read_number hsecond]
    rfl
  rw [encode, decoder, read_record (by simp) (by simp [hinterconnect, hfrequency])]
  simp [hinterconnect, hfrequency]

end HardwareClass

namespace ClassEntry

def numbers (c : ClassEntry Float) : List Float :=
  c.maxFrequencyGhz :: c.interconnect

theorem decoder_encode {c : ClassEntry Float} (hfinite : AllFinite c.numbers) :
    decoder c.encode = .ok c := by
  obtain ⟨hfrequency, hfactors⟩ := allFinite_cons.mp hfinite
  have hinterconnect : Decoder.list .float (.list .number c.interconnect) = .ok c.interconnect :=
    read_list_self fun x hx => read_number (hfactors x hx)
  rw [encode, decoder, read_record (by simp) (by simp [hinterconnect, hfrequency])]
  simp [hinterconnect, hfrequency]

end ClassEntry

namespace TopologyFile

def numbers (f : TopologyFile Float) : List Float :=
  f.nodes.map Node.maxGhz ++ f.classes.flatMap ClassEntry.numbers

theorem decoder_encode {f : TopologyFile Float} (hfinite : AllFinite f.numbers) :
    decoder f.encode = .ok f := by
  obtain ⟨hghz, hfactors⟩ := allFinite_append.mp hfinite
  have hnodes : Decoder.list Node.decoder (.list Node.encode f.nodes) = .ok f.nodes :=
    read_list_self fun n hn => Node.decoder_encode (hghz _ (List.mem_map_of_mem hn))
  have hclasses : Decoder.list ClassEntry.decoder (.list ClassEntry.encode f.classes) =
      .ok f.classes :=
    read_list_self fun c hc => ClassEntry.decoder_encode (allFinite_flatMap.mp hfactors c hc)
  rw [encode, decoder, read_record (by simp) (by simp [hnodes, hclasses])]
  simp [hnodes, hclasses]

end TopologyFile

namespace AppProfile

def numbers (p : AppProfile Float) : List Float :=
  [p.ipc, p.memRead, p.memWrite, p.c6res]

theorem decoder_encode {p : AppProfile Float} (hfinite : AllFinite p.numbers) :
    decoder p.encode = .ok p := by
  simp only [numbers, allFinite_cons] at hfinite
  rw [encode, decoder, read_record (by simp) (by simp [hfinite])]
  simp [hfinite]

end AppProfile

/-! ## Telemetry -/

theorem Metric.decoder_encode (m : Metric) : decoder m.encode = .ok m := by
  refine read_oneOf ?_
  cases m <;> rfl

namespace Sample

/-- The values of a row are proper values, sorted by name. -/
structure IsProper (s : Sample) : Prop where
  keys : KeysAscend s.values
  values : ∀ entry ∈ s.values, entry.2.IsProper

theorem decoder_encode {s : Sample} (hproper : s.IsProper) : decoder s.encode = .ok s := by
  have hvalues : Decoder.map .raw (.object s.values) = .ok s.values := by
    have hraw : ∀ entry ∈ s.values, Decoder.raw (id entry.2) = .ok entry.2 :=
      fun entry hentry => read_raw (hproper.values entry hentry)
    have hread := read_map_self hraw hproper.keys
    simpa using hread
  obtain ⟨timestamp, _ | core, values⟩ := s <;>
    rw [encode, decoder, read_record (by simp [Json.member?])
      (by simp [Json.member?, hvalues])] <;>
    simp [Json.member?, hvalues]

end Sample

namespace MetricSet

def numbers (s : MetricSet Float) : List Float :=
  s.toList.map Prod.snd

def members (s : MetricSet Float) : List (String × Json) :=
  s.toList.map fun (m, x) => (m.name, .number x)

theorem name_injective {m m' : Metric} (hname : m.name = m'.name) : m = m' := by
  have hfound := Metric.ofName?_name m
  rw [hname, Metric.ofName?_name] at hfound
  exact (Option.some.inj hfound).symm

theorem mem_toList {s : MetricSet Float} {m : Metric} {x : Float} :
    (m, x) ∈ s.toList ↔ s.get m = some x := by
  have hall : m ∈ Metric.all := by
    cases m <;> decide
  simp [toList, hall]

theorem nodup_keys_members (s : MetricSet Float) : (s.members.map Prod.fst).Nodup := by
  have hmetrics : s.toList.Pairwise fun a b => a.1 ≠ b.1 := by
    refine List.Pairwise.filterMap _ ?_ (show Metric.all.Pairwise (· ≠ ·) by decide)
    intro m m' hapart entry hentry entry' hentry'
    obtain ⟨x, -, rfl⟩ := Option.map_eq_some_iff.mp hentry
    obtain ⟨x', -, rfl⟩ := Option.map_eq_some_iff.mp hentry'
    exact hapart
  rw [members, List.map_map, List.Nodup, List.pairwise_map]
  exact hmetrics.imp fun hapart hname => hapart (name_injective hname)

theorem lookup_members (s : MetricSet Float) (m : Metric) :
    s.members.lookup m.name = (s.get m).map Json.number := by
  cases hget : s.get m with
  | none =>
      refine List.lookup_eq_none_iff.mpr fun member hmember => ?_
      obtain ⟨⟨m', x⟩, hmem, rfl⟩ := List.mem_map.mp hmember
      refine bne_iff_ne.mpr fun hname => ?_
      rw [name_injective hname, mem_toList.mp hmem] at hget
      cases hget
  | some x =>
      exact Slots.lookup_of_mem s.nodup_keys_members
        (List.mem_map.mpr ⟨(m, x), mem_toList.mpr hget, rfl⟩)

theorem decoder_encode {s : MetricSet Float} (hfinite : AllFinite s.numbers) :
    decoder s.encode = .ok s := by
  have hnumber : ∀ m x, s.get m = some x → x.isFinite = true := by
    intro m x hget
    exact hfinite x (List.mem_map.mpr ⟨(m, x), mem_toList.mpr hget, rfl⟩)
  -- A metric with a value is read from its member; one without has none to read.
  have hoptional : ∀ m : Metric,
      Slots.optional ⟨false, s.members⟩ ⟨m.name, .orNull .float⟩ = .ok (s.get m) := by
    intro m
    rw [Slots.optional_mk, s.lookup_members]
    cases hget : s.get m with
    | none => rfl
    | some x => exact read_orNull_number (hnumber m x hget)
  have haccepts : ∀ member ∈ s.members, Accepts
      (Metric.all.map fun m => (⟨m.name, .orNull .float⟩ : Field (Option Float)).probe) member := by
    intro member hmember
    obtain ⟨⟨m, x⟩, hmem, rfl⟩ := List.mem_map.mp hmember
    have hread := read_orNull_number (hnumber m x (mem_toList.mp hmem))
    cases m <;> simp [Metric.all, Metric.name, hread]
  change decoder (.object s.members) = _
  rw [decoder, read_record s.nodup_keys_members haccepts]
  simp only [hoptional, ok_bind]
  rfl

end MetricSet

namespace Performance

def numbers (p : Performance Float) : List Float :=
  [p.ipc, p.memRead, p.memWrite]

theorem decoder_encode {p : Performance Float} (hfinite : AllFinite p.numbers) :
    decoder p.encode = .ok p := by
  simp only [numbers, allFinite_cons] at hfinite
  rw [encode, decoder, read_record (by simp) (by simp [hfinite])]
  simp [hfinite]

end Performance

/-- A series whose rows are proper. -/
def SeriesSnapshot.IsProper (s : SeriesSnapshot) : Prop :=
  ∀ sample ∈ s.samples, sample.IsProper

theorem SeriesSnapshot.decoder_encode {s : SeriesSnapshot} (hproper : s.IsProper) :
    decoder s.encode = .ok s := by
  have hsamples : Decoder.list Sample.decoder (.list Sample.encode s.samples) = .ok s.samples :=
    read_list_self fun sample hsample => Sample.decoder_encode (hproper sample hsample)
  rw [encode, decoder, read_record (by simp) (by simp [hsamples])]
  simp [hsamples]

/-- A snapshot whose rows are proper. -/
def LogSnapshot.IsProper (s : LogSnapshot) : Prop :=
  ∀ series ∈ s.series, series.IsProper

theorem LogSnapshot.decoder_encode {s : LogSnapshot} (hproper : s.IsProper) :
    decoder s.encode = .ok s := by
  have hseries : Decoder.list SeriesSnapshot.decoder (.list SeriesSnapshot.encode s.series) =
      .ok s.series :=
    read_list_self fun series hmem => SeriesSnapshot.decoder_encode (hproper series hmem)
  rw [encode, decoder, read_record (by simp) (by simp [hseries])]
  simp [hseries]

/-! ## The cache -/

namespace Entry

def numbers (e : Entry Float) : List Float :=
  [e.ipc, e.memRead, e.memWrite, e.c6res]

theorem decoder_encode {e : Entry Float} (hfinite : AllFinite e.numbers) :
    decoder e.encode = .ok e := by
  simp only [numbers, allFinite_cons] at hfinite
  rw [encode, decoder, read_record (by simp [members])
    (by simp [members, probes, ipcField, memReadField, memWriteField, c6resField, hfinite])]
  simp [ofSlots, members, ipcField, memReadField, memWriteField, c6resField, hfinite]

end Entry

theorem CachedSocket.decoder_encode {c : CachedSocket Float}
    (hfinite : AllFinite c.entry.numbers) : decoder c.encode = .ok c := by
  simp only [Entry.numbers, allFinite_cons] at hfinite
  rw [encode, decoder, read_openRecord (by simp [Entry.members])
    (by simp [Entry.members, Entry.probes, Entry.ipcField, Entry.memReadField,
      Entry.memWriteField, Entry.c6resField, hfinite])
    (by simp [Entry.members, Json.fault?, Json.faultInMember?])]
  simp [Entry.ofSlots, Entry.members, Entry.ipcField, Entry.memReadField, Entry.memWriteField,
    Entry.c6resField, hfinite]

/-! ## Scores -/

theorem Strategy.decoder_encode (s : Strategy) : decoder s.encode = .ok s := by
  refine read_oneOf ?_
  cases s <;> rfl

theorem IdleGate.decoder_encode (g : IdleGate) : decoder g.encode = .ok g := by
  refine read_oneOf ?_
  cases g <;> rfl

namespace SocketScore

def numbers (s : SocketScore Float) : List Float :=
  [s.baseScore, s.gatedScore] ++ s.c6res.toList

theorem decoder_encode {s : SocketScore Float} (hfinite : AllFinite s.numbers) :
    decoder s.encode = .ok s := by
  simp only [numbers, allFinite_append, allFinite_cons] at hfinite
  obtain ⟨hnumbers, hidle⟩ := hfinite
  have hfraction := read_option_number hidle
  rw [encode, decoder, read_record (by simp) (by simp [hnumbers, hfraction])]
  simp [hnumbers, hfraction]

end SocketScore

namespace ScoringResult

def numbers (r : ScoringResult Float) : List Float :=
  [r.score, r.finalScore] ++ r.sockets.flatMap SocketScore.numbers

theorem decoder_encode {r : ScoringResult Float} (hfinite : AllFinite r.numbers) :
    decoder r.encode = .ok r := by
  simp only [numbers, allFinite_append, allFinite_cons, allFinite_flatMap] at hfinite
  obtain ⟨hnumbers, hlines⟩ := hfinite
  have hsockets : Decoder.list SocketScore.decoder (.list SocketScore.encode r.sockets) =
      .ok r.sockets :=
    read_list_self fun s hs => SocketScore.decoder_encode (hlines s hs)
  rw [encode, decoder, read_record (by simp) (by simp [hnumbers, hsockets])]
  simp [hnumbers, hsockets]

end ScoringResult

/-! ## Ranking -/

theorem Workload.decoder_encode (w : Workload) : decoder w.encode = .ok w := by
  obtain ⟨name, _ | profile⟩ := w <;>
    rw [encode, decoder, read_record (by simp [Json.member?]) (by simp [Json.member?])] <;>
    simp [Json.member?]

theorem RankingRequest.decoder_encode (r : RankingRequest) : decoder r.encode = .ok r := by
  have hworkload := r.workload.decoder_encode
  have hnodes : Decoder.list .string (.list .string r.nodes) = .ok r.nodes :=
    read_list_self fun host _ => read_string host
  rw [encode, decoder, read_record (by simp) (by simp [hworkload, hnodes])]
  simp [hworkload, hnodes]

theorem Placement.decoder_encode (p : Placement) : decoder p.encode = .ok p := by
  rw [encode, decoder, read_record (by simp) (by simp)]
  simp

namespace HostPriority

def numbers (p : HostPriority Float) : List Float :=
  [p.score, p.finalScore]

theorem decoder_encode {p : HostPriority Float} (hfinite : AllFinite p.numbers) :
    decoder p.encode = .ok p := by
  simp only [numbers, allFinite_cons] at hfinite
  rw [encode, decoder, read_record (by simp) (by simp [hfinite])]
  simp [hfinite]

end HostPriority

theorem HostFailure.decoder_encode (f : HostFailure) : decoder f.encode = .ok f := by
  rw [encode, decoder, read_record (by simp) (by simp)]
  simp

namespace PriorityList

def numbers (l : PriorityList Float) : List Float :=
  l.priorities.flatMap HostPriority.numbers

theorem decoder_encode {l : PriorityList Float} (hfinite : AllFinite l.numbers) :
    decoder l.encode = .ok l := by
  have hpriorities : Decoder.list HostPriority.decoder (.list HostPriority.encode l.priorities) =
      .ok l.priorities :=
    read_list_self fun p hp => HostPriority.decoder_encode (allFinite_flatMap.mp hfinite p hp)
  have hfailures : Decoder.list HostFailure.decoder (.list HostFailure.encode l.failures) =
      .ok l.failures :=
    read_list_self fun f _ => f.decoder_encode
  rw [encode, decoder, read_record (by simp) (by simp [hpriorities, hfailures])]
  simp [hpriorities, hfailures]

end PriorityList

theorem IdleCapacity.decoder_encode {c : IdleCapacity Float}
    (hfinite : c.cores.isFinite = true) : decoder c.encode = .ok c := by
  rw [encode, decoder, read_record (by simp) (by simp [hfinite])]
  simp [hfinite]

theorem ErrorBody.decoder_encode (b : ErrorBody) : decoder b.encode = .ok b := by
  rw [encode, decoder, read_record (by simp) (by simp)]
  simp

/-! ## Health -/

theorem ComponentStatus.decoder_encode (s : ComponentStatus) : decoder s.encode = .ok s := by
  refine read_oneOf ?_
  cases s <;> rfl

theorem ComponentHealth.decoder_encode (c : ComponentHealth) : decoder c.encode = .ok c := by
  have hstatus := c.status.decoder_encode
  obtain ⟨status, _ | message, consecutiveFailures, lastCheck⟩ := c <;>
    rw [encode, decoder, read_record (by simp [Json.member?])
      (by simp [Json.member?, hstatus])] <;>
    simp [Json.member?, hstatus]

theorem HealthReport.decoder_encode {r : HealthReport} (hkeys : KeysAscend r.components) :
    decoder r.encode = .ok r := by
  have hstatus := r.status.decoder_encode
  have hcomponents := read_map_self (fun entry _ => entry.2.decoder_encode) hkeys
  rw [encode, decoder, read_record (by simp) (by simp [hstatus, hcomponents])]
  simp [hstatus, hcomponents]

theorem Readiness.decoder_encode (r : Readiness) : decoder r.encode = .ok r := by
  obtain ⟨ready, _ | reason⟩ := r <;>
    rw [encode, decoder, read_record (by simp [Json.member?]) (by simp [Json.member?])] <;>
    simp [Json.member?]

end SocketRanking
