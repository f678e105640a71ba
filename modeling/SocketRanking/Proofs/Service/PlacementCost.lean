import SocketRanking.Proofs.Scoring.Decline
import SocketRanking.Proofs.Service.PartialEntries

/-!
# The cost of a placement

A placement on a socket of a node never makes the node look better.  In exact
arithmetic, and with nothing negative known or measured, the entry of the socket
carries more load after the placement, all others are as they were, and the timer is
not touched.  So the visits of the next call decline one by one, and with them the
gated scores, the score of the node and its weighted score.
-/

namespace SocketRanking

variable {σ : Type}

/-! ## Results -/

namespace Visit

theorem DeclinesTo.trouble?_eq {v v' : Visit ℚ} (hdeclines : v.DeclinesTo v') :
    v.trouble? = v'.trouble? := by
  cases hdeclines with
  | trouble houtcome houtcome' => rw [trouble?, trouble?, houtcome, houtcome']
  | measured houtcome houtcome' _ => rw [trouble?, trouble?, houtcome, houtcome']

theorem DeclinesTo.line {v v' : Visit ℚ} (hdeclines : v.DeclinesTo v') (socket : Socket) :
    (v.line socket).DeclinesTo (v'.line socket) := by
  unfold Visit.line
  cases hdeclines with
  | trouble houtcome houtcome' =>
      rw [houtcome, houtcome']
      exact .ineligible socket
  | measured houtcome houtcome' hdeclines =>
      rw [houtcome, houtcome']
      exact hdeclines

end Visit

namespace ScoringResult

/-- A result in which nothing is better; the factor is that of the node's class. -/
structure DeclinesTo (factor : ℚ) (r r' : ScoringResult ℚ) : Prop where
  sockets : List.Forall₂ SocketScore.GatedBelow r.sockets r'.sockets
  score : r'.score ≤ r.score
  winner : r'.socket.isSome = true → r.socket.isSome = true
  finalScore : 0 ≤ factor → r'.finalScore ≤ r.finalScore

end ScoringResult

namespace Deployment

variable {d : Deployment σ ℚ} {n : Node}

theorem score_result (lines : List (SocketScore ℚ)) :
    (d.result n lines).score = winningScore (d.settings.idleGate.apply lines) := by
  simp only [result, winningScore]
  cases winner? (d.settings.idleGate.apply lines) with
  | some w => rfl
  | none => norm_num

theorem isSome_socket_result (lines : List (SocketScore ℚ)) :
    (d.result n lines).socket.isSome = true ↔ 0 < (d.result n lines).score := by
  rw [score_result, ← isSome_winner?_iff]
  exact Iff.of_eq (congrArg (· = true) Option.isSome_map)

theorem result_declines {lines lines' : List (SocketScore ℚ)}
    (hlines : List.Forall₂ SocketScore.DeclinesTo lines lines') :
    (d.result n lines).DeclinesTo (HardwareClass.factor (d.topology.classOf? n))
      (d.result n lines') := by
  have hsockets := IdleGate.apply_gatedBelow d.settings.idleGate hlines
  have hscore : (d.result n lines').score ≤ (d.result n lines).score := by
    rw [score_result, score_result]
    exact winningScore_le hsockets
  refine ⟨hsockets, hscore, ?_, ?_⟩
  · rw [isSome_socket_result, isSome_socket_result]
    exact fun hpositive => hpositive.trans_le hscore
  · intro hfactor
    exact mul_le_mul_of_nonneg_right hscore hfactor

/-- When all visits decline, both calls fail alike or both succeed, the second one with
no better result. -/
theorem conclude_declines {f f' : Socket → Visit ℚ}
    (hvisits : ∀ socket ∈ n.sockets, (f socket).DeclinesTo (f' socket)) :
    (∃ t, d.conclude n (Visit.throughCrash (n.sockets.map f)) = .error t ∧
        d.conclude n (Visit.throughCrash (n.sockets.map f')) = .error t) ∨
      ∃ r r', d.conclude n (Visit.throughCrash (n.sockets.map f)) = .ok r ∧
        d.conclude n (Visit.throughCrash (n.sockets.map f')) = .ok r' ∧
        r.DeclinesTo (HardwareClass.factor (d.topology.classOf? n)) r' := by
  have htroubles : Visit.SameTroubles (n.sockets.map f) (n.sockets.map f') := by
    unfold Visit.SameTroubles
    rw [List.map_map, List.map_map]
    exact List.map_congr_left fun socket hsocket => (hvisits socket hsocket).trouble?_eq
  have hcrash := crash?_congr htroubles.throughCrash
  have houtage := outage?_congr htroubles.throughCrash
  cases hcrashed : crash? (Visit.throughCrash (n.sockets.map f)) with
  | some text =>
      refine Or.inl ⟨.crashed text, ?_, ?_⟩
      · rw [conclude, hcrashed]
      · rw [conclude, ← hcrash, hcrashed]
  | none =>
      cases hfailed : outage? (Visit.throughCrash (n.sockets.map f)) with
      | some e =>
          refine Or.inl ⟨.failed e, ?_, ?_⟩
          · rw [conclude, hcrashed, hfailed]
          · rw [conclude, ← hcrash, ← houtage, hcrashed, hfailed]
      | none =>
          right
          have hlines : List.Forall₂ SocketScore.DeclinesTo
              (n.sockets.map fun socket => (f socket).line socket)
              (n.sockets.map fun socket => (f' socket).line socket) := by
            rw [List.forall₂_map_left_iff, List.forall₂_map_right_iff]
            exact List.forall₂_same.mpr fun socket hsocket =>
              (hvisits socket hsocket).line socket
          refine ⟨_, _, ?_, ?_, result_declines hlines⟩
          · rw [conclude, hcrashed, hfailed, throughCrash_eq_self hcrashed, breakdown_map]
          · rw [conclude, ← hcrash, ← houtage, hcrashed, hfailed]
            rw [hcrashed] at hcrash
            rw [throughCrash_eq_self hcrash.symm, breakdown_map]

end Deployment

/-! ## The call before and the call after -/

namespace Basis

variable {d : Deployment σ ℚ} {b : Basis σ ℚ} {p : Placement}

theorem store_place (d : Deployment σ ℚ) (b : Basis σ ℚ) (p : Placement) :
    (b.place d p).store = b.store := by
  unfold place
  split <;> rfl

theorem isExpired_place (d : Deployment σ ℚ) (b : Basis σ ℚ) (p : Placement) :
    (b.place d p).cache.isExpired (b.place d p).now = b.cache.isExpired b.now := by
  unfold place
  split <;> rfl

/-- After the expiry check, the entry of every socket carries no less load with the
placement than without it. -/
theorem loadsTo_place (hentries : b.cache.All Entry.IsNonneg)
    (hprofile : ∀ profile, d.catalog[p.profile]? = some profile →
      0 ≤ profile.memRead ∧ 0 ≤ profile.memWrite ∧ profile.c6res ≤ 100) (k : SocketKey) :
    (b.expire.cache.get k).LoadsTo ((b.place d p).expire.cache.get k) := by
  rw [expire, expire, Cache.get_invalidateIfExpired, Cache.get_invalidateIfExpired,
    isExpired_place]
  split
  · exact Entry.isNonneg_unknown.loadsTo_self
  · rw [get_place]
    rcases d.placedOn_cases k (b.cache.get k) (.recordPlacement p) with
      hsame | ⟨p', n, socket, profile, hstep, hresolve, hplaced⟩
    · rw [hsame]
      exact (hentries k).loadsTo_self
    · obtain rfl : p = p' := Step.recordPlacement.inj hstep
      obtain ⟨hread, hwrite, hidle⟩ :=
        hprofile profile (Deployment.of_resolve_eq_ok hresolve).2.2
      rw [hplaced]
      exact (hentries k).loadsTo_place hread hwrite hidle _ _

end Basis

namespace Deployment

/-- Idle fractions at the floor or above are not negative. -/
theorem HasIdleFractions.all_isNonneg {d : Deployment σ ℚ} {s : State σ ℚ}
    (hs : d.HasIdleFractions s (Entry.idleEpsilon ≤ ·))
    (hknown : ∀ k, let e := s.cache.get k
      (Entry.isKnown e.ipc = true → 0 ≤ e.ipc) ∧
        (Entry.isKnown e.memRead = true → 0 ≤ e.memRead) ∧
        (Entry.isKnown e.memWrite = true → 0 ≤ e.memWrite)) :
    s.cache.All Entry.IsNonneg := by
  intro k
  obtain ⟨hipc, hread, hwrite⟩ := hknown k
  refine ⟨hipc, hread, hwrite, fun hidle => ?_⟩
  rcases hs.cached k with hsentinel | hfloor
  · rw [hsentinel, Entry.isKnown_sentinel] at hidle
    cases hidle
  · exact hfloor

/-- On nodes whose sockets have cores, as long as nothing negative is known, read or
placed, every placement leaves its node no better off in the call after it than in the
call before it: both fail alike, or both succeed and the second result is no better. -/
theorem scoreNode_declines_of_recordPlacement {d : Deployment σ ℚ} {file : TopologyFile ℚ}
    (haccepted : Topology.ofFile file = .ok d.topology)
    (hcores : ∀ name n, d.topology.requireNode name = .ok n →
      ∀ socket ∈ n.sockets, 0 < socket.coreCount)
    {s₀ : State σ ℚ} {ttl now : ℕ} {keys : List SocketKey}
    (hseeded : s₀.cache = .seeded ttl keys now) {steps : List (Step σ ℚ)}
    (hsteps : ∀ step ∈ steps, step.isDirectWrite = false) {s : State σ ℚ}
    (hreached : s = (d.run s₀ steps).2)
    (hknown : ∀ k, let e := s.cache.get k
      (Entry.isKnown e.ipc = true → 0 ≤ e.ipc) ∧
        (Entry.isKnown e.memRead = true → 0 ≤ e.memRead) ∧
        (Entry.isKnown e.memWrite = true → 0 ≤ e.memWrite))
    (hreads : ∀ m, (d.source s.store).Reads m fun x : ℚ => 0 ≤ x) {p : Placement}
    (hprofile : ∀ profile, d.catalog[p.profile]? = some profile →
      0 ≤ profile.memRead ∧ 0 ≤ profile.memWrite ∧ profile.c6res ≤ 100)
    {n : Node} (hn : d.topology.requireNode p.node = .ok n) :
    let before := (d.scoreNode p.node s).1
    let after := (d.scoreNode p.node (d.recordPlacement p s).2).1
    (∃ t, before = .error t ∧ after = .error t) ∨
      ∃ r r', before = .ok r ∧ after = .ok r' ∧
        r.DeclinesTo (HardwareClass.factor (d.topology.classOf? n)) r' := by
  intro before after
  have hconsistent := Topology.isConsistent_of_ofFile haccepted
  have hfractions : d.HasIdleFractions s (Entry.idleEpsilon ≤ ·) := by
    rw [hreached]
    exact floor_le_run hconsistent hsteps (hseeded ▸ Cache.isBlank_seeded ttl keys now)
  have hentries := hfractions.all_isNonneg hknown
  have hbefore : before = d.conclude n (s.basis.expire.visits d n) :=
    answer_scoreNode hconsistent hn s
  have hafter : after = d.conclude n ((d.recordPlacement p s).2.basis.expire.visits d n) :=
    answer_scoreNode hconsistent hn _
  have hvisits : ∀ socket ∈ n.sockets, (s.basis.expire.visit d n socket).DeclinesTo
      ((d.recordPlacement p s).2.basis.expire.visit d n socket) := by
    intro socket hsocket
    rw [basis_recordPlacement, Basis.visit, Basis.visit]
    have hstore : (s.basis.place d p).expire.store = s.basis.expire.store :=
      Basis.store_place d s.basis p
    rw [hstore]
    exact Visit.run_declines (hcores p.node n hn socket hsocket) hreads
      (Basis.loadsTo_place hentries hprofile _)
  rw [hbefore, hafter]
  exact conclude_declines hvisits

/-- On the bench a workload takes most of the idle time of a socket. -/
theorem scoreNode_declines_of_recordPlacement_bench :
    let s := (exactBench.run exactStart [.score "bench"]).2
    ∃ r r', (exactBench.scoreNode "bench" s).1 = .ok r ∧
      (exactBench.scoreNode "bench" (exactBench.recordPlacement exactPlacement s).2).1 =
        .ok r' ∧
      r.DeclinesTo 1 r' := by
  intro s
  have hsteps : ∀ step ∈ ([.score "bench"] : List (Step Unit ℚ)),
      step.isDirectWrite = false := by
    simp [Step.isDirectWrite]
  have hreads : ∀ m, Source.steady.Reads m fun x : ℚ => 0 ≤ x :=
    fun m => (reads_steady m).imp fun x hx => hx.1
  have hentries : s.cache.All fun e => e = .unknown ∨ e.IsFull :=
    unknown_or_isFull_run (Topology.isConsistent_of_ofFile ofFile_exactBench) hsteps
      (fun _ => hreads) (by simp) (Cache.isBlank_seeded 500 _ 0)
  have hnonneg : ∀ k, (s.cache.get k).IsNonneg := by
    intro k
    rcases hentries k with hunknown | he
    · rw [hunknown]
      exact Entry.isNonneg_unknown
    · exact he.isNonneg
  have hprofile : ∀ profile, exactBench.catalog[exactPlacement.profile]? = some profile →
      0 ≤ profile.memRead ∧ 0 ≤ profile.memWrite ∧ profile.c6res ≤ 100 := by
    intro profile hprofile
    rw [eq_of_getElem?_exactBench hprofile]
    norm_num
  have hseeded : exactStart.cache = .seeded 500 [⟨"bench", 0⟩, ⟨"bench", 1⟩] 0 := rfl
  have hnode : exactBench.topology.requireNode "bench" = .ok exactNode := rfl
  have hdeclines := scoreNode_declines_of_recordPlacement ofFile_exactBench coreCount_exactBench
    hseeded hsteps rfl (fun k => ⟨(hnonneg k).ipc, (hnonneg k).memRead, (hnonneg k).memWrite⟩)
    hreads hprofile hnode
  rcases hdeclines with ⟨t, hfailed, -⟩ | ⟨r, r', hr, hr', hdeclines⟩
  · have hscored : (exactBench.scoreNode "bench" s).1.toOption.isSome = true := by
      decide +kernel
    change (exactBench.scoreNode "bench" s).1 = .error t at hfailed
    rw [hfailed] at hscored
    cases hscored
  · have hneutral : HardwareClass.factor (exactBench.topology.classOf? exactNode) = 1 := by
      decide +kernel
    rw [hneutral] at hdeclines
    exact ⟨r, r', hr, hr', hdeclines⟩

end Deployment

end SocketRanking
