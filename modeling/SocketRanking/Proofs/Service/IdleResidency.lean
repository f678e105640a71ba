import SocketRanking.Proofs.Cache.Load
import SocketRanking.Proofs.Service.CachedEntries
import SocketRanking.Proofs.Telemetry.Averages

/-!
# Idle residency along runs

The idle fraction of a socket is pooled from telemetry, kept at the floor or above
when it is written back, and lowered by placements, again down to the floor at most.
So whatever is cached or reported as an idle fraction lies at the floor or above.
In exact arithmetic fractions that are read between zero and one stay below one as
well, and the idle capacity of a node lies between zero and the number of its cores.
-/

namespace SocketRanking

variable {σ α : Type} [Scalar α] {P : α → Prop}

/-! ## Idle fractions of entries and visits -/

namespace Entry

/-- The idle fraction is the sentinel, or it has the property. -/
def HasIdle (e : Entry α) (P : α → Prop) : Prop :=
  e.c6res = sentinel ∨ P e.c6res

variable {e : Entry α}

theorem hasIdle_unknown : (unknown : Entry α).HasIdle P :=
  Or.inl rfl

theorem HasIdle.place (he : e.HasIdle P) {profile : AppProfile α} {cores : Nat}
    (hplaced : ∀ x, P x → P (Scalar.atLeast idleEpsilon (x - busyShare profile cores)))
    (countsTowardIdle : Bool) [LawfulScalar α] :
    (e.place profile cores countsTowardIdle).HasIdle P := by
  unfold HasIdle at he ⊢
  simp only [Entry.place]
  split
  next hknown =>
    rw [Bool.and_eq_true] at hknown
    rcases he with hsentinel | hP
    · rw [hsentinel, isKnown_sentinel] at hknown
      cases hknown.2
    · exact Or.inr (hplaced _ hP)
  next => exact he

theorem HasIdle.of_idle? [LawfulScalar α] (he : e.HasIdle P) {x : α}
    (hidle : e.idle? = some x) : P x := by
  obtain ⟨hknown, rfl⟩ := idle?_eq_some_iff.mp hidle
  rcases he with hsentinel | hP
  · rw [hsentinel, isKnown_sentinel] at hknown
    cases hknown
  · exact hP

theorem floor_le_atLeast [LawfulOrder α] (x : α) :
    (idleEpsilon : α) ≤ Scalar.atLeast idleEpsilon x := by
  unfold Scalar.atLeast
  split
  next hlt => exact LawfulOrder.le_of_lt hlt
  next => exact LawfulOrder.le_self_of_lt LawfulScalar.minusOne_lt_floor

end Entry

namespace Deployment

variable {d : Deployment σ α}

/-- With this content of the store, every idle fraction that a visit measures has the
property. -/
def Pools (d : Deployment σ α) (store : σ) (P : α → Prop) : Prop :=
  ∀ (uuid : String) (socket : Socket) (pooled : α),
    (measureIdle d.settings (d.source store) uuid socket).result = .ok pooled →
      P (Scalar.atLeast Entry.idleEpsilon pooled)

theorem Pools.teaches {store : σ} (hpools : d.Pools store P) :
    d.Teaches store (Entry.HasIdle · P) := by
  intro name n hn socket hsocket entry e hlearned
  obtain ⟨-, base, p, idle, rfl, hmeasures, -⟩ := Visit.exists_measures_of_learned hlearned
  obtain ⟨pooled, hpooled, rfl⟩ := hmeasures.idle
  exact Or.inr (hpools n.uuid socket pooled hpooled)

/-- The idle fraction that a visit reports is the cached one or a measured one. -/
theorem Pools.of_outcome_run [LawfulScalar α] {store : σ} (hpools : d.Pools store P)
    {uuid : String} {socket : Socket} {entry : Entry α} (hentry : entry.HasIdle P)
    {score : SocketScore α}
    (hscore : (Visit.run d.settings (d.source store) uuid socket entry).outcome =
      .ok score) {x : α} (hx : score.c6res = some x) : P x := by
  obtain ⟨metrics, base, c6, rfl, -, -, hfrom⟩ := Visit.exists_of_outcome_run hscore
  obtain rfl : c6 = x := Option.some.inj hx
  generalize (Visit.run d.settings (d.source store) uuid socket entry).learned = learned at hfrom
  cases hfrom with
  | cache hidle => exact hentry.of_idle? hidle
  | store hidle hpooled hfloor p =>
      rw [hfloor]
      exact hpools uuid socket _ hpooled

/-- Every idle fraction in the result of a call has the property. -/
theorem Pools.of_scoreNode [LawfulScalar α] (hconsistent : d.topology.IsConsistent)
    {s : State σ α} (hpools : d.Pools s.store P) (hall : s.cache.All (Entry.HasIdle · P))
    {name : String} {r : ScoringResult α} (hr : (d.scoreNode name s).1 = .ok r)
    {line : SocketScore α} (hline : line ∈ r.sockets) {x : α} (hx : line.c6res = some x) :
    P x := by
  obtain ⟨n, hn, socket, hsocket, spare, rfl⟩ :=
    exists_of_mem_sockets_of_scoreNode hconsistent hr hline
  change ((s.basis.expire.visit d n socket).line socket).c6res = some x at hx
  unfold Visit.line at hx
  split at hx
  next score hscore =>
    have hentry := hall.invalidateIfExpired Entry.hasIdle_unknown s.now (n.key socket)
    exact hpools.of_outcome_run hentry hscore hx
  next => cases hx

/-! ## Runs -/

/-- The idle fractions that are cached in a state, and those that a call made from it
reports, have the property. -/
structure HasIdleFractions (d : Deployment σ α) (s : State σ α) (P : α → Prop) : Prop where
  cached (k : SocketKey) : (s.cache.get k).c6res = Entry.sentinel ∨ P (s.cache.get k).c6res
  reported {name : String} {r : ScoringResult α} : (d.scoreNode name s).1 = .ok r →
    ∀ line ∈ r.sockets, ∀ x, line.c6res = some x → P x

theorem HasIdleFractions.imp {Q : α → Prop} {s : State σ α} (hs : d.HasIdleFractions s P)
    (himp : ∀ x, P x → Q x) : d.HasIdleFractions s Q where
  cached k := (hs.cached k).imp_right (himp _)
  reported hr line hline x hx := himp x (hs.reported hr line hline x hx)

theorem hasIdleFractions_run [LawfulScalar α] (hconsistent : d.topology.IsConsistent)
    {steps : List (Step σ α)} (hsteps : ∀ step ∈ steps, step.isDirectWrite = false)
    (hplaced : ∀ p, .recordPlacement p ∈ steps → ∀ n socket profile,
      d.resolve p = .ok (n, socket, profile) → ∀ x, P x →
        P (Scalar.atLeast Entry.idleEpsilon (x - Entry.busyShare profile socket.coreCount)))
    {s : State σ α} (hpools : ∀ i, d.Pools (d.run s (steps.take i)).2.store P)
    (hblank : s.cache.IsBlank) : d.HasIdleFractions (d.run s steps).2 P := by
  have hall : (d.run s steps).2.cache.All (Entry.HasIdle · P) := by
    refine all_run hconsistent Entry.hasIdle_unknown hsteps ?_ (fun i => (hpools i).teaches)
      (hblank.all Entry.hasIdle_unknown)
    intro i step hstep k e he
    rcases d.placedOn_cases k e step with hsame | ⟨p, n, socket, profile, rfl, hresolve, hplace⟩
    · rw [hsame]
      exact he
    · rw [hplace]
      have hmem := List.mem_of_getElem? hstep
      exact he.place (hplaced p hmem n socket profile hresolve) p.countsTowardIdle
  have hend := hpools steps.length
  rw [List.take_length] at hend
  exact ⟨hall, fun hr line hline x hx => hend.of_scoreNode hconsistent hall hr hline hx⟩

/-- Along every run idle fractions stay at the floor or above. -/
theorem floor_le_run [LawfulOrder α] (hconsistent : d.topology.IsConsistent)
    {steps : List (Step σ α)} (hsteps : ∀ step ∈ steps, step.isDirectWrite = false)
    {s : State σ α} (hblank : s.cache.IsBlank) :
    d.HasIdleFractions (d.run s steps).2 (Entry.idleEpsilon ≤ ·) := by
  refine hasIdleFractions_run hconsistent hsteps ?_ ?_ hblank
  · exact fun p _ n socket profile _ x _ => Entry.floor_le_atLeast _
  · exact fun i uuid socket pooled _ => Entry.floor_le_atLeast pooled

end Deployment

/-! ## Exact arithmetic -/

theorem Node.coreCount_eq_sum (n : Node) :
    n.coreCount = (n.sockets.map Socket.coreCount).sum := by
  rw [coreCount, List.sum_eq_foldl, List.foldl_map]

namespace Deployment

variable {d : Deployment σ ℚ}

/-- Fractions between zero and one add up to no more than the number of cores. -/
theorem idleOver_bounds {n : Node} {sockets : List Socket} {total total' : ℚ}
    {failures failures' : List Failure} {s : State σ ℚ}
    (hfraction : ∀ socket x, (d.idleFraction n socket s).1 = .ok x → 0 ≤ x ∧ x ≤ 1)
    (hover : (d.idleOver n sockets total failures s).1 = .ok (total', failures')) :
    total ≤ total' ∧ total' ≤ total + (sockets.map Socket.coreCount).sum := by
  induction sockets generalizing total failures s with
  | nil =>
      obtain ⟨rfl, -⟩ := Prod.mk.inj (Except.ok.inj hover)
      simp
  | cons socket rest ih =>
      have hbound := hfraction socket
      have hcores : (0 : ℚ) ≤ socket.coreCount := Nat.cast_nonneg _
      rw [idleOver] at hover
      rcases hfound : d.idleFraction n socket s with ⟨(failure | text) | x, calls⟩
      · simp only [hfound] at hover
        obtain ⟨hlower, hupper⟩ :=
          ih (s := (d.recordCalls calls s).count (Call.activity calls)) hfraction hover
        refine ⟨hlower, hupper.trans ?_⟩
        rw [List.map_cons, List.sum_cons]
        push_cast
        linarith
      · simp only [hfound] at hover
        cases hover
      · simp only [hfound] at hover
        obtain ⟨hx, hx'⟩ := hbound x (by rw [hfound])
        obtain ⟨hlower, hupper⟩ :=
          ih (s := (d.recordCalls calls s).count (Call.activity calls)) hfraction hover
        rw [Scalar.ofCount_eq] at hlower hupper
        have hproduct : 0 ≤ x * socket.coreCount := mul_nonneg hx hcores
        have hproduct' : x * socket.coreCount ≤ socket.coreCount :=
          mul_le_of_le_one_left hcores hx'
        rw [List.map_cons, List.sum_cons]
        push_cast at hupper ⊢
        exact ⟨by linarith, by linarith⟩

theorem idleCapacity_bounds {s : State σ ℚ} {name : String} {n : Node}
    (hn : d.topology.requireNode name = .ok n)
    (hfraction : ∀ socket x, (d.idleFraction n socket s).1 = .ok x → 0 ≤ x ∧ x ≤ 1)
    {cores : ℚ} (hcores : (d.idleCapacity name s).1 = .ok cores) :
    0 ≤ cores ∧ cores ≤ n.coreCount := by
  unfold idleCapacity at hcores
  rw [hn] at hcores
  dsimp only at hcores
  rcases hover : d.idleOver n n.sockets 0.0 [] s with ⟨trouble | ⟨total, failures⟩, s'⟩
  · rw [hover] at hcores
    cases hcores
  · have htotal : total = cores := by
      rw [hover] at hcores
      dsimp only at hcores
      split at hcores
      · split at hcores
        · cases hcores
        · exact Except.ok.inj hcores
      · exact Except.ok.inj hcores
    have hbounds := idleOver_bounds hfraction (congrArg Prod.fst hover)
    rw [Node.coreCount_eq_sum, ← htotal]
    norm_num at hbounds ⊢
    exact hbounds

theorem pools_of_reads {store : σ}
    (hreads : (d.source store).Reads .c6res fun x : ℚ => 0 ≤ x ∧ x ≤ 1) :
    d.Pools store fun x => Entry.idleEpsilon ≤ x ∧ x ≤ 1 := by
  intro uuid socket pooled hpooled
  obtain ⟨-, hupper⟩ :=
    hreads.of_measureIdle (Aggregate.inheritedByAverages_between 0 1) hpooled
  refine ⟨Entry.floor_le_atLeast pooled, ?_⟩
  rw [Scalar.atLeast_eq_max]
  exact max_le Entry.idleEpsilon_le_one hupper

theorem idleFraction_bounds {n : Node} {s : State σ ℚ}
    (hreads : (d.source s.store).Reads .c6res fun x : ℚ => 0 ≤ x ∧ x ≤ 1)
    (hcached : s.cache.All (Entry.HasIdle · fun x => Entry.idleEpsilon ≤ x ∧ x ≤ 1))
    {socket : Socket} {x : ℚ} (hx : (d.idleFraction n socket s).1 = .ok x) :
    0 ≤ x ∧ x ≤ 1 := by
  unfold idleFraction at hx
  split at hx
  next c6 hidle =>
    obtain rfl : c6 = x := Except.ok.inj hx
    obtain ⟨hlower, hupper⟩ := (hcached _).of_idle? hidle
    exact ⟨Entry.idleEpsilon_nonneg.trans hlower, hupper⟩
  next => exact hreads.of_measureIdle (Aggregate.inheritedByAverages_between 0 1) hx

/-! ### A bench in exact arithmetic -/

/-- The topology of one node in exact arithmetic, an application in the catalog and a
store that always answers alike. -/
def exactBench : Deployment Unit ℚ :=
  { topology := { nodes := Topology.bench.nodes }
    settings := {}
    catalog := .extend ∅ [("spec-leslie", ⟨1.5225, 0.3221, 0.1532, 0.1215, 378⟩)]
    source := fun _ => .steady }

/-- The node of the bench. -/
def exactNode : Node :=
  { name := "bench", uuid := "b-1", sockets := [⟨0, [0, 1]⟩, ⟨1, [2, 3]⟩] }

theorem ofFile_exactBench :
    Topology.ofFile { nodes := Topology.benchFile.nodes } = .ok exactBench.topology :=
  rfl

theorem coreCount_exactBench (name : String) (n : Node)
    (hn : exactBench.topology.requireNode name = .ok n) (socket : Socket)
    (hsocket : socket ∈ n.sockets) : 0 < socket.coreCount := by
  have hnode := Topology.requireNode_eq_ok_iff.mp hn
  simp only [exactBench, Topology.bench, Topology.benchFile, Topology.node?, List.foldl_cons,
    List.foldl_nil, Std.TreeMap.getElem?_insert, Std.TreeMap.getElem?_emptyc] at hnode
  split at hnode
  · obtain rfl := Option.some.inj hnode
    revert socket
    decide
  · cases hnode

theorem eq_of_getElem?_exactBench {name : String} {profile : AppProfile ℚ}
    (hprofile : exactBench.catalog[name]? = some profile) :
    profile = ⟨1.5225, 0.3221, 0.1532, 0.1215, 378⟩ := by
  simp only [exactBench, Catalog.extend, List.foldl_cons, List.foldl_nil,
    Std.TreeMap.getElem?_insert, Std.TreeMap.getElem?_emptyc] at hprofile
  split at hprofile
  · exact (Option.some.inj hprofile).symm
  · cases hprofile

/-- The steady store reads nothing negative, and idle fractions up to one. -/
theorem reads_steady (m : Metric) :
    Source.steady.Reads m fun x : ℚ => 0 ≤ x ∧ (m = .c6res → x ≤ 1) := by
  intro q rows hrows row hrow x hx
  obtain rfl := Except.ok.inj hrows
  have hreading : ((row.value m : Except Failure (Option ℚ)).toOption.join.all fun x =>
      decide (0 ≤ x ∧ (m = .c6res → x ≤ 1))) = true := by
    rw [List.mem_singleton.mp hrow]
    cases m <;> decide +kernel
  rw [hx] at hreading
  exact of_decide_eq_true hreading

/-- Nothing is cached on the bench, and no time has passed. -/
def exactStart : State Unit ℚ :=
  { cache := .seeded 500 [⟨"bench", 0⟩, ⟨"bench", 1⟩] 0, health := .tracked 3 0, store := () }

/-- A workload that goes to the first socket of the bench. -/
def exactPlacement : Placement :=
  { node := "bench", socket := 0, profile := "spec-leslie" }

/-- The bench is measured, and the workload is placed on it. -/
def exactSteps : List (Step Unit ℚ) :=
  [.score "bench", .recordPlacement exactPlacement]

theorem isDirectWrite_exactSteps : ∀ step ∈ exactSteps, step.isDirectWrite = false := by
  simp [exactSteps, Step.isDirectWrite]

/-! ### Bounds along runs -/

/-- Along every run from a seeded cache, what is cached or reported as an idle fraction
lies at the floor or above; a ranking scores its hosts by a run of such calls.  In exact
arithmetic, if the store reads idle fractions between zero and one all along and no
placed application idles for more than all of its time, then it lies at one or below as
well, and the idle capacity of a node between zero and the number of its cores. -/
theorem idle_fractions_bounded :
    (∀ {σ α : Type} [Scalar α] [LawfulOrder α] (d : Deployment σ α) {file : TopologyFile α},
      Topology.ofFile file = .ok d.topology →
      ∀ (s : State σ α) (ttl : ℕ) (keys : List SocketKey) (now : ℕ),
        s.cache = .seeded ttl keys now →
      ∀ steps : List (Step σ α), (∀ step ∈ steps, step.isDirectWrite = false) →
        d.HasIdleFractions (d.run s steps).2 (Entry.idleEpsilon ≤ ·)) ∧
    ∀ {σ : Type} (d : Deployment σ ℚ) {file : TopologyFile ℚ},
      Topology.ofFile file = .ok d.topology →
      ∀ (s : State σ ℚ) (ttl : ℕ) (keys : List SocketKey) (now : ℕ),
        s.cache = .seeded ttl keys now →
      ∀ steps : List (Step σ ℚ), (∀ step ∈ steps, step.isDirectWrite = false) →
        (∀ i, (d.source (d.run s (steps.take i)).2.store).Reads .c6res
          fun x : ℚ => 0 ≤ x ∧ x ≤ 1) →
        (∀ p, .recordPlacement p ∈ steps → ∀ n socket profile,
          d.resolve p = .ok (n, socket, profile) → profile.c6res ≤ 100) →
        d.HasIdleFractions (d.run s steps).2 (· ≤ 1) ∧
          ∀ (name : String) (n : Node), d.topology.requireNode name = .ok n →
            ∀ cores, (d.idleCapacity name (d.run s steps).2).1 = .ok cores →
              0 ≤ cores ∧ cores ≤ n.coreCount := by
  constructor
  · intro σ α _ _ d file haccepted s ttl keys now hseeded steps hsteps
    exact floor_le_run (Topology.isConsistent_of_ofFile haccepted) hsteps
      (hseeded ▸ Cache.isBlank_seeded ttl keys now)
  · intro σ d file haccepted s ttl keys now hseeded steps hsteps hreads hprofiles
    have hfractions : d.HasIdleFractions (d.run s steps).2
        fun x => Entry.idleEpsilon ≤ x ∧ x ≤ 1 := by
      refine hasIdleFractions_run (Topology.isConsistent_of_ofFile haccepted) hsteps ?_
        (fun i => pools_of_reads (hreads i)) (hseeded ▸ Cache.isBlank_seeded ttl keys now)
      intro p hp n socket profile hresolve x hx
      have hshare := Entry.busyShare_nonneg (hprofiles p hp n socket profile hresolve)
        socket.coreCount
      refine ⟨Entry.floor_le_atLeast _, ?_⟩
      rw [Scalar.atLeast_eq_max]
      exact max_le Entry.idleEpsilon_le_one (by linarith [hx.2])
    constructor
    · exact hfractions.imp fun x hx => hx.2
    · intro name n hn cores hcores
      have hend := hreads steps.length
      rw [List.take_length] at hend
      exact idleCapacity_bounds hn
        (fun socket x hx => idleFraction_bounds hend hfractions.cached hx) hcores

/-- On the bench a socket is measured, and a workload takes most of its idle time. -/
theorem idle_fractions_bounded_bench :
    bench.HasIdleFractions (bench.run (bench.start 500 3 .steady) [.score "bench"]).2
        (Entry.idleEpsilon ≤ ·) ∧
      let placed := (exactBench.run exactStart exactSteps).2
      exactBench.HasIdleFractions placed (· ≤ 1) ∧
        ∃ cores, (exactBench.idleCapacity "bench" placed).1 = .ok cores ∧
          0 ≤ cores ∧ cores ≤ 4 := by
  obtain ⟨hfloor, hbounds⟩ := idle_fractions_bounded
  constructor
  · exact hfloor bench Topology.ofFile_benchFile _ 500 _ 0 rfl [.score "bench"] (by decide)
  · intro placed
    have hreads : Source.steady.Reads .c6res fun x : ℚ => 0 ≤ x ∧ x ≤ 1 :=
      (reads_steady .c6res).imp fun x hx => ⟨hx.1, hx.2 rfl⟩
    have hprofiles : ∀ p, .recordPlacement p ∈ exactSteps → ∀ n socket profile,
        exactBench.resolve p = .ok (n, socket, profile) → profile.c6res ≤ 100 := by
      intro p _ n socket profile hresolve
      rw [eq_of_getElem?_exactBench (of_resolve_eq_ok hresolve).2.2]
      norm_num
    obtain ⟨hfractions, hcapacity⟩ := hbounds exactBench ofFile_exactBench exactStart 500 _ 0
      rfl exactSteps isDirectWrite_exactSteps (fun _ => hreads) hprofiles
    have hcores : (exactBench.idleCapacity "bench" placed).1 = .ok (200243 / 200000) := by
      decide +kernel
    exact ⟨hfractions, _, hcores, hcapacity "bench" _ rfl _ hcores⟩

end Deployment

end SocketRanking
