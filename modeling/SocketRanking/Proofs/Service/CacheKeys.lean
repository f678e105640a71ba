import SocketRanking.Proofs.Cache.Keys
import SocketRanking.Proofs.Cluster.SocketKeys
import SocketRanking.Proofs.Service.PlacementFrame
import SocketRanking.Proofs.Text.ByteOrder

/-!
# The cache holds the sockets of the topology

The service starts with an entry for every socket of its topology.  Scoring writes entries
of sockets of the topology only, and everything else keeps the entries that are there, so
along every run the cache holds just these sockets.  Hence a placement that resolves always
finds the entry that it is folded into.
-/

namespace SocketRanking

variable {σ α : Type} [Scalar α]

/-! ## Steps -/

namespace Basis

variable {d : Deployment σ α} {b : Basis σ α}

/-- The cache knows the sockets of the topology and no others. -/
def HoldsSockets (d : Deployment σ α) (b : Basis σ α) : Prop :=
  ∀ k, k ∈ b.cache.entries ↔ k ∈ d.topology.socketKeys

theorem holdsSockets_score (hholds : b.HoldsSockets d) (name : String) :
    (b.score d name).2.HoldsSockets d := by
  intro k
  unfold score
  cases hn : d.topology.requireNode name with
  | error e => exact hholds k
  | ok n =>
      change k ∈ ((b.cache.invalidateIfExpired b.now).record b.now _).entries ↔ _
      rw [Cache.mem_entries_record, Cache.mem_entries_invalidateIfExpired, hholds]
      refine or_iff_right_of_imp fun hwritten => ?_
      obtain ⟨⟨k', e⟩, hwrite, rfl⟩ := List.mem_map.mp hwritten
      obtain ⟨socket, v, hzip, hkey, -⟩ := Visit.exists_of_mem_writes hwrite
      obtain rfl : k' = n.key socket := hkey
      exact Topology.mem_socketKeys (Topology.requireNode_eq_ok_iff.mp hn) (List.of_mem_zip hzip).1

theorem holdsSockets_scoreAll (hosts : List String) (hholds : b.HoldsSockets d) :
    (b.scoreAll d hosts).2.HoldsSockets d := by
  induction hosts generalizing b with
  | nil => exact hholds
  | cons host rest ih => exact ih (holdsSockets_score hholds host)

theorem holdsSockets_place (hholds : b.HoldsSockets d) (p : Placement) :
    (b.place d p).HoldsSockets d := by
  intro k
  unfold place
  cases d.resolve p with
  | error e => exact hholds k
  | ok found => exact (Cache.mem_entries_place ..).trans (hholds k)

theorem holdsSockets_advance (hholds : b.HoldsSockets d) (millis : ℕ) :
    (b.advance millis).HoldsSockets d := by
  intro k
  unfold advance
  by_cases hsweeping : b.sweeping = true
  · rw [if_pos hsweeping]
    exact (Cache.mem_entries_sweepUntil ..).trans (hholds k)
  · rw [if_neg hsweeping]
    exact hholds k

/-- Every step but a direct write keeps the sockets that the cache knows. -/
theorem holdsSockets_step {step : Step σ α} (hstep : step.isDirectWrite = false)
    (hholds : b.HoldsSockets d) : (b.step d step).HoldsSockets d := by
  cases step with
  | score name => exact holdsSockets_score hholds name
  | prioritize workload hosts => exact holdsSockets_scoreAll hosts hholds
  | recordPlacement p => exact holdsSockets_place hholds p
  | flushCache => exact fun k => (Cache.mem_entries_clean b.cache k).trans (hholds k)
  | updateCache k p idle => cases hstep
  | advance millis => exact holdsSockets_advance hholds millis
  | startSweeper => exact holdsSockets_advance (b := { b with sweeping := true }) hholds 0
  | idleCapacity name | showCache | stopSweeper | setReady ready | showHealth
  | changeStore change => exact hholds

end Basis

namespace Deployment

variable {d : Deployment σ α}

/-! ## Runs -/

theorem holdsSockets_run (hconsistent : d.topology.IsConsistent) {s : State σ α} {ttl created : ℕ}
    (hseeded : s.cache = .seeded ttl d.topology.socketKeys created) {steps : List (Step σ α)}
    (hsteps : ∀ step ∈ steps, step.isDirectWrite = false) :
    (d.run s steps).2.basis.HoldsSockets d := by
  apply basis_run_induction hconsistent
  · intro k
    change k ∈ s.cache.entries ↔ _
    rw [hseeded, Cache.mem_entries_seeded]
  · intro b step hmem hholds
    exact Basis.holdsSockets_step (hsteps step hmem) hholds

/-- The keys of an accepted topology ascend by the bytes of the node name and then by the
number of the socket, and list what sockets its nodes have.  A cache that was seeded with
them shows just these keys after any run of the service.  So a placement that is accepted
in any state that is reached finds the entry of its socket, and is folded into it. -/
theorem cache_holds_socketKeys {file : TopologyFile α}
    (haccepted : Topology.ofFile file = .ok d.topology) {s : State σ α} {ttl created : ℕ}
    (hseeded : s.cache = .seeded ttl d.topology.socketKeys created) {steps : List (Step σ α)}
    (hsteps : ∀ step ∈ steps, step.isDirectWrite = false) :
    d.topology.socketKeys.Pairwise (fun a b => Text.bytes a.node < Text.bytes b.node ∨
      a.node = b.node ∧ a.socket < b.socket) ∧
    (∀ k, k ∈ d.topology.socketKeys ↔
      ∃ n, d.topology.node? k.node = some n ∧ ∃ socket ∈ n.sockets, socket.id = k.socket) ∧
    let s' := (d.run s steps).2
    s'.cache.snapshot.map (·.key) = d.topology.socketKeys ∧
    ∀ p : Placement, (d.recordPlacement p s').1 = .ok () →
      let k : SocketKey := { node := p.node, socket := p.socket }
      s'.cache.contains k = true ∧
      ∃ n socket profile e, d.Names p n socket profile ∧ s'.cache.entries[k]? = some e ∧
        (d.recordPlacement p s').2.cache.entries[k]? =
          some (e.place profile socket.coreCount p.countsTowardIdle) := by
  have hconsistent := Topology.isConsistent_of_ofFile haccepted
  have hsorted := Topology.pairwise_socketKeys hconsistent
  have hmem := fun k => Topology.mem_socketKeys_iff hconsistent (k := k)
  have hholds := holdsSockets_run hconsistent hseeded hsteps
  refine ⟨?_, hmem, ?_⟩
  · refine hsorted.imp fun hlt => ?_
    rw [Text.bytes_lt_bytes_iff]
    exact Cache.compare_eq_lt_iff.mp hlt
  · intro s'
    refine ⟨Cache.map_key_snapshot_eq hsorted hholds, ?_⟩
    intro p haccepts k
    cases hresolve : d.resolve p with
    | error e =>
        rw [recordPlacement_of_error hresolve] at haccepts
        cases haccepts
    | ok found =>
        obtain ⟨n, socket, profile⟩ := found
        have hnames := names_of_resolve_eq_ok hresolve
        have hknown : k ∈ s'.cache.entries :=
          (hholds k).mpr ((hmem k).mpr
            ⟨n, hnames.node, socket, hnames.socket_mem, hnames.socket_id⟩)
        obtain ⟨e, he⟩ : ∃ e, s'.cache.entries[k]? = some e := by
          rw [← Option.isSome_iff_exists, Std.TreeMap.isSome_getElem?_eq_contains]
          exact hknown
        refine ⟨hknown, n, socket, profile, e, hnames, he, ?_⟩
        rw [recordPlacement_of_ok hconsistent hresolve]
        change (s'.cache.place k profile _ _).entries[k]? = _
        rw [Cache.getElem?_place, if_pos rfl, he]
        rfl

/-- A placement after a sweep still finds its entry. -/
theorem cache_holds_socketKeys_bench :
    let d : Deployment Source Float := { bench with catalog := .builtin }
    let p : Placement := { node := "bench", socket := 1, profile := "spec-leslie" }
    let steps : List (Step Source Float) := [.startSweeper, .score "bench", .advance 500]
    let s := (d.run (d.start 500 3 .steady) steps).2
    s.cache.snapshot.map (·.key) = [⟨"bench", 0⟩, ⟨"bench", 1⟩] ∧
      (d.recordPlacement p s).1 = .ok () ∧ s.cache.contains ⟨"bench", 1⟩ = true := by
  intro d p steps s
  have hsteps : ∀ step ∈ steps, step.isDirectWrite = false := by
    simp [steps, Step.isDirectWrite]
  obtain ⟨-, -, hsnapshot, hplaced⟩ :=
    cache_holds_socketKeys (d := d) (s := d.start 500 3 .steady) Topology.ofFile_benchFile rfl
      hsteps
  have haccepts : (d.recordPlacement p s).1 = .ok () := by
    rw [fst_recordPlacement]
    decide +kernel
  refine ⟨?_, haccepts, (hplaced p haccepts).1⟩
  rw [hsnapshot]
  exact Topology.socketKeys_bench

end Deployment

end SocketRanking
