import Mathlib.Data.Set.Card
import SocketRanking.Proofs.Cluster.Acceptance
import SocketRanking.Proofs.Telemetry.Log
import SocketRanking.Scoring.Gate
import SocketRanking.Scoring.Visit

/-!
# Core counts

The core count of a socket is the length of its list of cores, and a description is accepted
whatever cores it declares.  The telemetry store answers with rows of as many cores as the
list holds different ones.  The two numbers agree exactly for a list that repeats no core.
-/

namespace SocketRanking

/-- The node with other cores on its sockets. -/
def Node.withCores (n : Node) (cores : Socket → List UInt32) : Node :=
  { n with sockets := n.sockets.map fun s => { s with cores := cores s } }

/-- The description with other cores on the sockets of its nodes. -/
def TopologyFile.withCores {α : Type} (file : TopologyFile α)
    (cores : Node → Socket → List UInt32) : TopologyFile α :=
  { file with nodes := file.nodes.map fun n => n.withCores (cores n) }

/-- The cores of which some log returns a row when the idle residency of the socket is
measured. -/
def Socket.measuredCores (settings : Settings) (uuid : String) (s : Socket) : Set UInt32 :=
  { core | ∃ (log : TelemetryLog) (rows : List Sample),
      (measureIdle settings log.source uuid s : Measurement Float).call.answer = .ok rows ∧
      ∃ r ∈ rows, r.core = some core }

/-! ## Declared cores -/

theorem Node.withCores_name (n : Node) (cores : Socket → List UInt32) :
    (n.withCores cores).name = n.name :=
  rfl

theorem Node.map_id_sockets_withCores (n : Node) (cores : Socket → List UInt32) :
    (n.withCores cores).sockets.map Socket.id = n.sockets.map Socket.id := by
  rw [withCores, List.map_map]
  rfl

namespace TopologyFile

variable {α : Type}

/-- Whether a description is consistent does not depend on its cores. -/
theorem IsConsistent.withCores {file : TopologyFile α} (hfile : file.IsConsistent)
    (cores : Node → Socket → List UInt32) : (file.withCores cores).IsConsistent where
  sockets := by
    refine List.forall_mem_map.mpr fun n hn hnone => hfile.sockets n hn ?_
    exact List.map_eq_nil_iff.mp hnone
  numbered := by
    refine List.forall_mem_map.mpr fun n hn => ?_
    rw [Node.map_id_sockets_withCores]
    exact hfile.numbered n hn
  named := by
    rw [TopologyFile.withCores, List.map_map]
    exact hfile.named
  factors := hfile.factors

end TopologyFile

/-- Whatever cores are declared, the description is accepted and its nodes are kept. -/
theorem Topology.exists_ofFile_withCores {α : Type} {file : TopologyFile α} {t : Topology α}
    (haccepted : ofFile file = .ok t) (cores : Node → Socket → List UInt32) :
    ∃ t', ofFile (file.withCores cores) = .ok t' ∧
      ∀ n ∈ file.nodes, t'.requireNode n.name = .ok (n.withCores (cores n)) := by
  have hfile := exists_ofFile_iff.mp ⟨t, haccepted⟩
  obtain ⟨t', ht'⟩ := exists_ofFile_iff.mpr (hfile.withCores cores)
  refine ⟨t', ht', fun n hn => ?_⟩
  refine ((represents_of_ofFile ht').node n.name _).mpr ⟨?_, n.withCores_name (cores n)⟩
  exact List.mem_map.mpr ⟨n, hn, rfl⟩

/-! ## Measured cores -/

namespace TelemetryLog

/-- The store answers a query for cores with rows of these cores only. -/
theorem mem_of_mem_answer {log : TelemetryLog} {q : Query} {cores : List UInt32}
    (hcores : q.cores = some cores) {r : Sample} (hr : r ∈ log.answer q) {core : UInt32}
    (hcore : r.core = some core) : core ∈ cores := by
  obtain ⟨row, hrow, rfl⟩ := List.mem_map.mp hr
  have hasked := (List.mem_filter.mp (List.mem_of_mem_take hrow)).2
  rw [hcores, matchesCores_iff] at hasked
  rcases hasked with ⟨hnone, -⟩ | ⟨asked, core', hsome, hrowCore, hmem⟩
  · cases hnone
  · obtain rfl := Option.some.inj hsome
    obtain rfl : core' = core := Option.some.inj (hrowCore.symm.trans hcore)
    exact hmem

/-- A log with one row, of a core that is asked for, answers with a row of that core. -/
theorem exists_mem_answer {q : Query} {cores : List UInt32} (hcores : q.cores = some cores)
    (hlimit : 0 < q.limit) {core : UInt32} (hcore : core ∈ cores) :
    ∃ log : TelemetryLog, ∃ r ∈ log.answer q, r.core = some core := by
  let row : Sample := { timestamp := 0, core := some core, values := [] }
  have hrows : (empty.push ⟨q.uuid, q.socket⟩ row).rows ⟨q.uuid, q.socket⟩ = [row] := by
    rw [push, rows_extend, if_pos rfl, rows_empty]
    rfl
  have hasked : matchesCores q.cores row = true :=
    matchesCores_iff.mpr (Or.inr ⟨cores, core, hcores, rfl, hcore⟩)
  refine ⟨empty.push ⟨q.uuid, q.socket⟩ row, row.restrict q.metrics, ?_, rfl⟩
  obtain ⟨k, hk⟩ := Nat.exists_eq_add_one_of_ne_zero hlimit.ne'
  rw [answer, hrows, List.filter_cons_of_pos hasked, hk]
  simp

end TelemetryLog

namespace Socket

variable {settings : Settings} {uuid : String} {s : Socket}

theorem measuredCores_eq (hlimit : 0 < settings.rowsForCores s.cores.length) :
    s.measuredCores settings uuid = { core | core ∈ s.cores } := by
  ext core
  constructor
  · rintro ⟨log, rows, hanswer, r, hr, hcore⟩
    obtain rfl := Except.ok.inj hanswer
    exact TelemetryLog.mem_of_mem_answer rfl hr hcore
  · intro hcore
    obtain ⟨log, r, hr, hrcore⟩ := TelemetryLog.exists_mem_answer (q :=
      { metrics := [.c6res], uuid, socket := s.id, cores := some s.cores
        limit := settings.rowsForCores s.cores.length }) rfl hlimit hcore
    exact ⟨log, _, rfl, r, hr, hrcore⟩

/-- As many cores are measured as the list holds different ones. -/
theorem ncard_measuredCores (hlimit : 0 < settings.rowsForCores s.cores.length) :
    (s.measuredCores settings uuid).ncard = s.cores.dedup.length := by
  have hcores : s.measuredCores settings uuid = s.cores.toFinset := by
    rw [measuredCores_eq hlimit, List.coe_toFinset]
  rw [hcores, Set.ncard_coe_finset, List.card_toFinset]

end Socket

namespace Topology

variable {α : Type}

/-- An accepted description stays accepted whatever cores are declared, repeated ones among
them, and the topology takes them over as they are declared.  The core count of a socket is
never below the number of cores that telemetry can return rows of, as long as any rows are
asked for, and it is that number if and only if no core is declared twice. -/
theorem coreCount_bounds_measuredCores {file : TopologyFile α} {t : Topology α}
    (haccepted : ofFile file = .ok t) :
    (∀ cores : Node → Socket → List UInt32, ∃ t', ofFile (file.withCores cores) = .ok t' ∧
      ∀ n ∈ file.nodes, t'.requireNode n.name = .ok (n.withCores (cores n))) ∧
    ∀ n ∈ file.nodes, ∀ s ∈ n.sockets, ∀ settings : Settings,
      0 < settings.rowsForCores s.cores.length →
      (s.measuredCores settings n.uuid).ncard ≤ s.coreCount ∧
      ((s.measuredCores settings n.uuid).ncard = s.coreCount ↔ s.cores.Nodup) := by
  refine ⟨exists_ofFile_withCores haccepted, fun n hn s hs settings hlimit => ?_⟩
  rw [Socket.ncard_measuredCores hlimit, Socket.coreCount]
  refine ⟨(List.dedup_sublist s.cores).length_le, ?_⟩
  constructor
  · intro hlength
    have hsame := (List.dedup_sublist s.cores).eq_of_length hlength
    exact List.dedup_eq_self.mp hsame
  · intro hnodup
    rw [hnodup.dedup]

/-- The first socket of the bench has two cores, and rows of both can be returned.  All of its
sockets may be declared to hold core 0 twice. -/
theorem coreCount_bounds_measuredCores_bench :
    (Socket.measuredCores {} "b-1" ⟨0, [0, 1]⟩).ncard = 2 ∧
      ∃ t, ofFile (benchFile.withCores fun _ _ => [0, 0]) = .ok t := by
  obtain ⟨hkept, hcounts⟩ := coreCount_bounds_measuredCores ofFile_benchFile
  constructor
  · have hcount := (hcounts _ List.mem_cons_self _ List.mem_cons_self {} (by decide)).2
    exact hcount.mpr (by decide)
  · obtain ⟨t, haccepted, -⟩ := hkept fun _ _ => [0, 0]
    exact ⟨t, haccepted⟩

/-- A description that declares core 0 twice is accepted.  The one core counts as two, and
when it is idle half of the time the socket has a whole core to spare. -/
theorem coreCount_exceeds_measuredCores :
    let twice : Socket := ⟨0, [0, 0]⟩
    let node : Node := { name := "bench", uuid := "b-1", sockets := [twice] }
    (∃ t, ofFile ({ nodes := [node] } : TopologyFile Float) = .ok t ∧
      t.requireNode "bench" = .ok node) ∧
    ¬ twice.cores.Nodup ∧ twice.coreCount = 2 ∧ (twice.measuredCores {} "b-1").ncard = 1 ∧
    (SocketScore.measured twice 1.0 0.5 : SocketScore Float).hasSpareCore = true ∧
    (SocketScore.measured ⟨0, [0]⟩ 1.0 0.5 : SocketScore Float).hasSpareCore = false := by
  intro twice node
  have haccepted : ofFile ({ nodes := [node] } : TopologyFile Float) = .ok
      { nodes := (∅ : Std.TreeMap String Node).insert "bench" node } := rfl
  refine ⟨⟨_, haccepted, ?_⟩, by decide, rfl, ?_, by decide +kernel, by decide +kernel⟩
  · have hlisted := (represents_of_ofFile haccepted).node "bench" node
    exact hlisted.mpr ⟨List.mem_singleton_self node, rfl⟩
  · rw [Socket.ncard_measuredCores (by decide)]
    rfl

end Topology

end SocketRanking
