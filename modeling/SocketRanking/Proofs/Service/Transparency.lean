import SocketRanking.Proofs.Service.Refresh

/-!
# Transparency of the cache

As long as no workload is placed and the content of the store stays the same,
the cache is a refresh of an empty one after every step: what it holds is what
the store would answer.  Therefore a call that is served from the cache, wholly
or in part, comes to the outcome that it would come to if nothing were cached.
-/

namespace SocketRanking

variable {σ α : Type}

/-- Whether a step leaves the store as it is and the cache to the measurements
of scoring calls. -/
def Step.keepsMeasurements : Step σ α → Bool
  | .recordPlacement _ => false
  | .updateCache .. => false
  | .changeStore _ => false
  | _ => true

variable [Scalar α]

namespace Basis

variable {d : Deployment σ α} {b₀ b : Basis σ α}

theorem IsRefreshOf.score_of_isBlank (hconsistent : d.topology.IsConsistent)
    (hblank₀ : b₀.cache.IsBlank) (hrefresh : b₀.IsRefreshOf d b) (name : String) :
    (b.score d name).1 = b₀.outcome d name ∧ b₀.IsRefreshOf d (b.score d name).2 := by
  have hexpire := hrefresh.expire hblank₀
  refine ⟨(score_outcome d b name).trans (hexpire.outcome name), ?_⟩
  rcases hexpire.score hconsistent name with hsame | hscored
  · rwa [hsame]
  · exact hscored

theorem IsRefreshOf.advance (hblank₀ : b₀.cache.IsBlank) (hrefresh : b₀.IsRefreshOf d b)
    (millis : Nat) : b₀.IsRefreshOf d (b.advance millis) := by
  rcases b.advance_cases millis with hlater | ⟨cache, hlater, hblank, -, -⟩
  · rw [hlater]
    exact ⟨hrefresh.store, hrefresh.entry⟩
  · rw [hlater]
    exact isRefreshOf_of_isBlank hrefresh.store hblank₀ hblank

/-- A step that keeps the measurements leaves a refresh of an empty cache. -/
theorem IsRefreshOf.step (hconsistent : d.topology.IsConsistent)
    (hblank₀ : b₀.cache.IsBlank) (hrefresh : b₀.IsRefreshOf d b) {step : Step σ α}
    (hkeeps : step.keepsMeasurements = true) : b₀.IsRefreshOf d (b.step d step) := by
  cases step with
  | score name => exact (hrefresh.score_of_isBlank hconsistent hblank₀ name).2
  | prioritize workload hosts =>
      exact (scoreAll_induction (fun _ host hb => hb.score_of_isBlank hconsistent hblank₀ host)
        hosts hrefresh).2
  | recordPlacement p => cases hkeeps
  | updateCache k p idle => cases hkeeps
  | changeStore change => cases hkeeps
  | flushCache =>
      exact isRefreshOf_of_isBlank hrefresh.store hblank₀ (Cache.isBlank_clean b.cache)
  | advance millis => exact hrefresh.advance hblank₀ millis
  | startSweeper =>
      have hstarted : b₀.IsRefreshOf d { b with sweeping := true } :=
        ⟨hrefresh.store, hrefresh.entry⟩
      exact hstarted.advance hblank₀ 0
  | stopSweeper => exact ⟨hrefresh.store, hrefresh.entry⟩
  | idleCapacity name => exact hrefresh
  | showCache => exact hrefresh
  | setReady ready => exact hrefresh
  | showHealth => exact hrefresh

/-- From a refresh of an empty cache, a step answers what it would answer from
the empty one. -/
theorem IsRefreshOf.answer? (hconsistent : d.topology.IsConsistent)
    (hblank₀ : b₀.cache.IsBlank) (hrefresh : b₀.IsRefreshOf d b) :
    (∀ name, b.answer? d (.score name) = some (.ofOutcome (b₀.outcome d name))) ∧
      ∀ workload hosts, b.answer? d (.prioritize workload hosts) =
        some (.ofOutcomes workload (hosts.map fun host => (host, b₀.outcome d host))) := by
  refine ⟨fun name => ?_, fun workload hosts => ?_⟩
  · rw [Basis.answer?, (hrefresh.score_of_isBlank hconsistent hblank₀ name).1]
  · rw [Basis.answer?, (scoreAll_induction
      (fun _ host hb => hb.score_of_isBlank hconsistent hblank₀ host) hosts hrefresh).1]

end Basis

namespace Deployment

/-- After any steps that keep the measurements, scoring and ranking answer what
they would answer in a state in which nothing is cached. -/
theorem answer_eq_uncached (d : Deployment σ α) {file : TopologyFile α}
    (haccepted : Topology.ofFile file = .ok d.topology) (ttl : Nat) (threshold : UInt32)
    {steps : List (Step σ α)} (hkeeps : ∀ step ∈ steps, step.keepsMeasurements = true)
    {uncached : State σ α} (hblank : ∀ k, uncached.cache.get k = .unknown) (i : Nat) :
    (∀ name, steps[i]? = some (.score name) →
      (d.run (d.start ttl threshold uncached.store) steps).1[i]? =
        some (.ofOutcome (d.scoreNode name uncached).1)) ∧
      ∀ workload hosts, steps[i]? = some (.prioritize workload hosts) →
        (d.run (d.start ttl threshold uncached.store) steps).1[i]? =
          some (.ofOutcomes workload
            (hosts.map fun host => (host, (d.scoreNode host uncached).1))) := by
  have hconsistent := Topology.isConsistent_of_ofFile haccepted
  have hblank₀ : uncached.basis.cache.IsBlank := hblank
  have huncached : ∀ name, (d.scoreNode name uncached).1 = uncached.basis.outcome d name := by
    intro name
    rw [(scoreNode_basis hconsistent name uncached).1]
    exact ((Basis.IsRefreshOf.refl d _).score_of_isBlank hconsistent hblank₀ name).1
  have hreached : uncached.basis.IsRefreshOf d
      (d.run (d.start ttl threshold uncached.store) (steps.take i)).2.basis := by
    refine basis_run_induction hconsistent ?_ ?_
    · exact Basis.isRefreshOf_of_isBlank rfl hblank₀ (Cache.isBlank_seeded ttl _ 0)
    · exact fun b step hmem hb =>
        hb.step hconsistent hblank₀ (hkeeps step (List.mem_of_mem_take hmem))
  obtain ⟨hscored, hranked⟩ := hreached.answer? hconsistent hblank₀
  constructor
  · intro name hstep
    rw [run_answer, hstep, huncached]
    exact congrArg some (step_answer hconsistent (hscored name))
  · intro workload hosts hstep
    simp only [huncached]
    rw [run_answer, hstep]
    exact congrArg some (step_answer hconsistent (hranked workload hosts))

/-- Scoring a node that was scored before answers what a first call answers. -/
theorem answer_eq_uncached_bench :
    (bench.run (bench.start 500 3 .steady)
        [.score "bench", .advance 100, .startSweeper, .score "bench"]).1[3]? =
      some (.ofOutcome (bench.scoreNode "bench" (bench.start 500 3 .steady)).1) := by
  have hkeeps : ∀ step ∈ ([.score "bench", .advance 100, .startSweeper, .score "bench"] :
      List (Step Source Float)), step.keepsMeasurements = true := by
    decide
  have hblank : ∀ k, (bench.start 500 3 .steady).cache.get k = .unknown :=
    Cache.get_seeded 500 _ 0
  have hanswers := answer_eq_uncached bench Topology.ofFile_benchFile 500 3 hkeeps hblank 3
  exact hanswers.1 "bench" rfl

end Deployment

end SocketRanking
