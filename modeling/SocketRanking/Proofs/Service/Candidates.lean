import SocketRanking.Proofs.Number.Ranks
import SocketRanking.Proofs.Scoring.Endings
import SocketRanking.Proofs.Service.CandidateOrder

/-!
# The candidates of a ranking

Every candidate ends up in one of the two lists of a ranking, as often as it was named:
among the priorities with what its own call came to, or among the failures with what
its own call met.  Scoring the candidates before it may have swept or filled the cache,
but that does not change what the call comes to.
-/

namespace SocketRanking

variable {σ α : Type} [Scalar α] {d : Deployment σ α} {s : State σ α}

/-- The list ranks the hosts: each of them has a row of its own, with what its call came
to or met, whichever hosts were scored from the state before it, and no host stands before
one with a higher final score. -/
structure PriorityList.IsRankingOf (list : PriorityList α) (d : Deployment σ α)
    (hosts : List String) (s : State σ α) : Prop where
  hosts_perm : (list.priorities.map (·.host) ++ list.failures.map (·.host)).Perm hosts
  scored : ∀ row ∈ list.priorities, ∃ r : ScoringResult α,
    (∀ earlier, (d.scoreNode row.host (d.tally earlier s).2).1 = .ok r) ∧
    r.node = row.host ∧ row.socket = r.socket ∧ row.score = r.score ∧
    row.coreCount = r.coreCount ∧ row.finalScore = r.finalScore ∧ row.windowSecs = r.windowSecs
  failed : ∀ failure ∈ list.failures, ∃ t : Trouble,
    (∀ earlier, (d.scoreNode failure.host (d.tally earlier s).2).1 = .error t) ∧
    (∀ e, t = .failed e → failure.reason = e.message) ∧
    (failure.retryable = true ↔
      (∃ reason, t = .failed (.telemetryUnavailable reason)) ∨ ∃ text, t = .crashed text)
  ranked : list.priorities.Pairwise fun a b =>
    ¬a.finalScore < b.finalScore ∧ Scalar.rankLE b.finalScore a.finalScore = true ∧
      (Scalar.rankLE a.finalScore b.finalScore = true → a.host ≤ b.host)
  sorted : list.failures.Pairwise fun a b => a.host ≤ b.host

/-! ## Calls of a ranking -/

namespace Basis

theorem scoreAll_append (d : Deployment σ α) (b : Basis σ α) (earlier later : List String) :
    (b.scoreAll d (earlier ++ later)).1 =
      (b.scoreAll d earlier).1 ++ ((b.scoreAll d earlier).2.scoreAll d later).1 := by
  induction earlier generalizing b with
  | nil => rfl
  | cons host rest ih => rw [List.cons_append, scoreAll, scoreAll, ih, List.cons_append]

/-- Whichever hosts have been scored before it, a host comes out as it would from the
cache after the first expiry check. -/
theorem score_scoreAll (hconsistent : d.topology.IsConsistent) (b : Basis σ α)
    (earlier : List String) (host : String) :
    ((b.scoreAll d earlier).2.score d host).1 = b.expire.outcome d host := by
  -- The call is the last one of a longer ranking, all of whose outcomes are known.
  have hcalls := scoreAll_append d b earlier [host]
  rw [scoreAll_outcomes hconsistent, scoreAll_outcomes hconsistent, List.map_append] at hcalls
  have hlast := List.head_eq_of_cons_eq (List.append_cancel_left hcalls)
  exact (congrArg Prod.snd hlast).symm

end Basis

theorem Deployment.scoreNode_tally (hconsistent : d.topology.IsConsistent) (s : State σ α)
    (earlier : List String) (host : String) :
    (d.scoreNode host (d.tally earlier s).2).1 = s.basis.expire.outcome d host := by
  rw [(scoreNode_basis hconsistent host _).1, (tally_basis hconsistent earlier s).2]
  exact Basis.score_scoreAll hconsistent s.basis earlier host

/-! ## Rows of a ranking -/

namespace Trouble

theorem retryable_hostFailure_iff (host : String) (t : Trouble) :
    (t.hostFailure host).retryable = true ↔
      (∃ reason, t = .failed (.telemetryUnavailable reason)) ∨ ∃ text, t = .crashed text := by
  cases t with
  | failed e => simp [hostFailure, Failure.isTelemetry_iff]
  | crashed text => simp [hostFailure]

end Trouble

namespace PriorityList

variable {f : String → Except Trouble (ScoringResult α)}

omit [Scalar α] in
/-- Each outcome makes one row for its host. -/
theorem hosts_ofOutcomes_perm (hname : ∀ host r, f host = .ok r → r.node = host)
    (hosts : List String) :
    let t := Tally.ofOutcomes (hosts.map fun host => (host, f host))
    (t.priorities.map (·.host) ++ t.failures.map (·.host)).Perm hosts := by
  intro t
  induction hosts with
  | nil => exact .nil
  | cons host rest ih =>
      cases hf : f host with
      | ok r =>
          have hhost : (HostPriority.ofResult r).host = host := hname host r hf
          simp only [t, List.map_cons, hf, Tally.ofOutcomes, hhost, List.cons_append]
          exact ih.cons host
      | error trouble =>
          simp only [t, List.map_cons, hf, Tally.ofOutcomes, trouble.host_hostFailure]
          exact List.perm_middle.trans (ih.cons host)

theorem pairwise_priorities [RankedScalar α] (workload : String) (t : Tally α) :
    (ofTally workload t).priorities.Pairwise fun a b =>
      ¬a.finalScore < b.finalScore ∧ Scalar.rankLE b.finalScore a.finalScore = true ∧
        (Scalar.rankLE a.finalScore b.finalScore = true → a.host ≤ b.host) := by
  have hsorted : (ofTally workload t).priorities.Pairwise (rankedBefore · · = true) :=
    List.pairwise_mergeSort rankedBefore_trans rankedBefore_total t.priorities
  refine hsorted.imp fun hbefore => ?_
  obtain ⟨hrank, hhosts⟩ := rankedBefore_iff.mp hbefore
  exact ⟨fun hlt => RankedScalar.not_rankLE_of_lt hlt hrank, hrank, hhosts⟩

theorem pairwise_failures (workload : String) (t : Tally α) :
    (ofTally workload t).failures.Pairwise fun a b => a.host ≤ b.host := by
  have hsorted : (ofTally workload t).failures.Pairwise fun a b =>
      decide (a.host ≤ b.host) = true :=
    List.pairwise_mergeSort HostFailure.hostLE_trans HostFailure.hostLE_total t.failures
  exact hsorted.imp fun hbefore => of_decide_eq_true hbefore

end PriorityList

namespace Deployment

/-- The row of a scored host is what the call for that host came to. -/
theorem outcome_of_mem_priorities (hconsistent : d.topology.IsConsistent) {workload : Workload}
    {hosts : List String} {row : HostPriority α}
    (hrow : row ∈ (d.prioritize workload hosts s).1.priorities) :
    ∃ r, s.basis.expire.outcome d row.host = .ok r ∧ row = .ofResult r := by
  have hmem : row ∈ (d.tally hosts s).1.priorities := List.mem_mergeSort.mp hrow
  rw [(tally_basis hconsistent hosts s).1, Basis.scoreAll_outcomes hconsistent,
    Tally.ofOutcomes_map fun host => s.basis.expire.outcome d host] at hmem
  obtain ⟨host, -, hhost⟩ := List.mem_filterMap.mp hmem
  obtain ⟨r, hr, rfl⟩ := HostPriority.ofOutcome?_eq_some_iff.mp hhost
  have hname : (HostPriority.ofResult r).host = host := Basis.node_of_outcome hconsistent hr
  refine ⟨r, ?_, rfl⟩
  rw [hname]
  exact hr

/-- The row of a failed host is what the call for that host met. -/
theorem outcome_of_mem_failures (hconsistent : d.topology.IsConsistent) {workload : Workload}
    {hosts : List String} {failure : HostFailure}
    (hfailure : failure ∈ (d.prioritize workload hosts s).1.failures) :
    ∃ t, s.basis.expire.outcome d failure.host = .error t ∧
      failure = t.hostFailure failure.host := by
  have hmem : failure ∈ (d.tally hosts s).1.failures := List.mem_mergeSort.mp hfailure
  rw [(tally_basis hconsistent hosts s).1, Basis.scoreAll_outcomes hconsistent,
    Tally.ofOutcomes_map fun host => s.basis.expire.outcome d host] at hmem
  obtain ⟨host, -, hhost⟩ := List.mem_filterMap.mp hmem
  obtain ⟨t, ht, rfl⟩ := HostFailure.ofOutcome?_eq_some_iff.mp hhost
  rw [t.host_hostFailure]
  exact ⟨t, ht, rfl⟩

/-- Every listed host is among the rows, as often as it was listed. -/
theorem hosts_prioritize_perm (hconsistent : d.topology.IsConsistent) (workload : Workload)
    (hosts : List String) (s : State σ α) :
    ((d.prioritize workload hosts s).1.priorities.map (·.host) ++
      (d.prioritize workload hosts s).1.failures.map (·.host)).Perm hosts := by
  have hperm := PriorityList.hosts_ofOutcomes_perm
    (fun _ _ hr => Basis.node_of_outcome (b := s.basis.expire) hconsistent hr) hosts
  rw [← Basis.scoreAll_outcomes hconsistent, ← (tally_basis hconsistent hosts s).1] at hperm
  refine List.Perm.trans ?_ hperm
  exact ((List.mergeSort_perm _ _).map _).append ((List.mergeSort_perm _ _).map _)

/-! ## Rankings -/

end Deployment

end SocketRanking
