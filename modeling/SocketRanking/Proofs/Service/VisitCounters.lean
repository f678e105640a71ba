import SocketRanking.Proofs.Scoring.Endings
import SocketRanking.Proofs.Scoring.Replay
import SocketRanking.Service.Scoring

/-!
# What a visit counts

A visit counts as a hit exactly if the metrics of its socket are served from the cache.
Then it asks nothing, learns nothing and measures the socket.  Any other visit is a miss.
It fails at most one query, its last one, and it does so exactly if it ends in an outage.
-/

namespace SocketRanking

def Source.fails (source : Source) (q : Query) : Bool :=
  match source q with
  | .error (.failed _) => true
  | _ => false

theorem Call.isFailed_make (source : Source) (q : Query) :
    (make source q).isFailed = source.fails q := by
  unfold make isFailed Source.fails
  rcases source q with (f | text) | rows <;> rfl

variable {α : Type} {source : Source}

/-- Calls that the source answered failed where the source fails. -/
theorem Call.countP_fails_queries {calls : List Call}
    (hmade : ∀ c ∈ calls, c = .make source c.query) :
    (calls.map (·.query)).countP source.fails = calls.countP isFailed := by
  rw [List.countP_map]
  apply List.countP_congr
  intro c hc
  rw [hmade c hc, isFailed_make]
  rfl

/-! ## Measurements -/

/-- The query of the measurement failed exactly if its result is an outage. -/
inductive Measurement.IsCounted (m : Measurement α) : Prop
  | failed (hcall : m.call.isFailed = true) {e : Failure} (htelemetry : e.isTelemetry = true)
      (hresult : m.result = .error (.failed e))
  | spared (hcall : m.call.isFailed = false)
      (hspares : ∀ e, m.result = .error (.failed e) → e.isTelemetry = false)

theorem Measurement.isCounted_of_aggregate {q : Query}
    {aggregate : List Sample → Except Failure α} (hspares : ∀ rows, SparesStore (aggregate rows))
    {m : Measurement α} (hcall : m.call = .make source q)
    (hresult : m.result = match m.call.answer with
      | .ok rows => unusable (aggregate rows)
      | .error trouble => .error trouble) : m.IsCounted := by
  rw [hcall] at hresult
  have hfailed := Call.isFailed_make source q
  rw [← hcall] at hfailed
  unfold Call.make at hresult
  unfold Source.fails at hfailed
  rcases hanswer : source q with (f | text) | rows
  · rw [hanswer] at hfailed hresult
    exact .failed hfailed (Call.isTelemetry_unavailable f) hresult
  · rw [hanswer] at hfailed hresult
    refine .spared hfailed fun e he => ?_
    rw [hresult] at he
    cases he
  · rw [hanswer] at hfailed hresult
    refine .spared hfailed fun e he => ?_
    rw [hresult] at he
    exact (hspares rows).isTelemetry_of_unusable he

variable [Scalar α] {settings : Settings} {uuid : String} {socket : Socket}

theorem isCounted_measurePerformance :
    (measurePerformance settings source uuid socket : Measurement (MetricSet α)).IsCounted :=
  Measurement.isCounted_of_aggregate
    (fun rows => Aggregate.sparesStore_weightedAverage rows settings.strategy.fetched) rfl rfl

theorem isCounted_measureIdle :
    (measureIdle settings source uuid socket : Measurement α).IsCounted := by
  refine Measurement.isCounted_of_aggregate (fun rows => ?_) rfl rfl
  apply (Aggregate.sparesStore_weightedAverageOfCores rows [.c6res]).bind
  intro pooled
  exact pooled.sparesStore_require .c6res

/-- A cacheable strategy scores whatever the cache holds. -/
theorem Strategy.exists_score_toSet {s : Strategy} (hcacheable : s.isCacheable = true)
    (p : Performance α) : ∃ base, s.score p.toSet = .ok base := by
  cases s with
  | ipcPerBandwidth => exact ⟨_, rfl⟩
  | ipcOnly => exact ⟨_, rfl⟩
  | inverseL3Misses => exact absurd hcacheable (by decide)
  | inverseEnergy => exact absurd hcacheable (by decide)

namespace Visit

/-! ## Hits -/

theorem served_finish (entry : Entry α) (served : Bool) (calls : List Call)
    (metrics : MetricSet α) :
    (finish settings source uuid socket entry served calls metrics).served = served := by
  unfold finish
  split
  · rfl
  · split
    · rfl
    · dsimp only
      split
      · rfl
      · split <;> rfl

/-- Metrics are served from a fresh entry if the strategy needs no others. -/
theorem served_run (entry : Entry α) :
    (run settings source uuid socket entry).served =
      (entry.isFresh && settings.strategy.isCacheable) := by
  unfold run
  cases hcached : cached? settings.strategy entry with
  | some metrics =>
      obtain ⟨hfresh, hcacheable, -⟩ := cached?_eq_some_iff.mp hcached
      rw [hfresh, hcacheable]
      exact served_finish entry true [] metrics
  | none =>
      have hunserved : (entry.isFresh && settings.strategy.isCacheable) = false := by
        by_contra hserved
        obtain ⟨hfresh, hcacheable⟩ := Bool.and_eq_true_iff.mp (Bool.not_eq_false _ ▸ hserved)
        rw [cached?_eq_some_iff.mpr ⟨hfresh, hcacheable, rfl⟩] at hcached
        cases hcached
      rw [hunserved]
      dsimp only
      split
      · rfl
      · exact served_finish entry false _ _

/-- A hit measures its socket without asking and without learning anything. -/
theorem of_served_run {entry : Entry α}
    (hserved : (run settings source uuid socket entry).served = true) :
    (run settings source uuid socket entry).calls = [] ∧
      (run settings source uuid socket entry).learned = none ∧
      ∃ score, (run settings source uuid socket entry).outcome = .ok score := by
  rw [served_run, Bool.and_eq_true] at hserved
  obtain ⟨hfresh, hcacheable⟩ := hserved
  obtain ⟨base, hbase⟩ :=
    Strategy.exists_score_toSet hcacheable ⟨entry.ipc, entry.memRead, entry.memWrite⟩
  have hhit : run settings source uuid socket entry =
      { served := true, calls := [], outcome := .ok (.measured socket base entry.c6res)
        learned := none } := by
    simp only [run, cached?_eq_some_iff.mpr ⟨hfresh, hcacheable, rfl⟩, finish, hbase,
      Entry.idle?_eq_some_of_isFresh hfresh]
  rw [hhit]
  exact ⟨rfl, rfl, _, rfl⟩

/-! ## Failed queries -/

/-- Whether the visit ended because the store failed. -/
def metOutage (v : Visit α) : Bool :=
  v.failure?.any Failure.isTelemetry

omit [Scalar α] in
theorem metOutage_iff {v : Visit α} : v.metOutage = true ↔ v.IsOutage := by
  unfold metOutage failure? IsOutage
  rcases v.outcome with (e | text) | score <;> simp

theorem countP_isFailed_finish {entry : Entry α} {served : Bool} {calls : List Call}
    (hcalls : calls.countP Call.isFailed = 0) (metrics : MetricSet α) :
    let v := finish settings source uuid socket entry served calls metrics
    v.calls.countP Call.isFailed = if v.metOutage then 1 else 0 := by
  unfold finish
  cases hscore : settings.strategy.score metrics with
  | error e =>
      have hspared := settings.strategy.sparesStore_score metrics e hscore
      simp [metOutage, failure?, hspared, hcalls]
  | ok base =>
      cases hidle : entry.idle? with
      | some c6 => simp [metOutage, failure?, hcalls]
      | none =>
          rcases (isCounted_measureIdle : (measureIdle settings source uuid socket :
              Measurement α).IsCounted) with ⟨hcall, htelemetry, hresult⟩ | ⟨hcall, hspares⟩
          · simp [hresult, metOutage, failure?, htelemetry, hcalls, hcall]
          · cases hresult : (measureIdle settings source uuid socket : Measurement α).result with
            | error trouble =>
                cases trouble with
                | failed e =>
                    have hspared := hspares e hresult
                    simp [hresult, metOutage, failure?, hspared, hcalls, hcall]
                | crashed text => simp [hresult, metOutage, failure?, hcalls, hcall]
            | ok pooled =>
                cases hp : Performance.ofSet metrics with
                | error e =>
                    have hspared := Performance.sparesStore_ofSet metrics e hp
                    simp [hresult, metOutage, failure?, hspared, hcalls, hcall]
                | ok p => simp [hresult, metOutage, failure?, hcalls, hcall]

/-- A visit fails one query if it ends in an outage, and none otherwise. -/
theorem countP_isFailed_run (entry : Entry α) :
    let v := run settings source uuid socket entry
    v.calls.countP Call.isFailed = if v.metOutage then 1 else 0 := by
  unfold run
  cases hcached : cached? settings.strategy entry with
  | some metrics => exact countP_isFailed_finish rfl metrics
  | none =>
      rcases (isCounted_measurePerformance : (measurePerformance settings source uuid socket :
          Measurement (MetricSet α)).IsCounted) with ⟨hcall, htelemetry, hresult⟩ | ⟨hcall, hspares⟩
      · simp [hresult, metOutage, failure?, htelemetry, hcall]
      · have hcalls : [(measurePerformance settings source uuid socket :
            Measurement (MetricSet α)).call].countP Call.isFailed = 0 := by
          simp [hcall]
        cases hresult : (measurePerformance settings source uuid socket :
            Measurement (MetricSet α)).result with
        | error trouble =>
            cases trouble with
            | failed e =>
                have hspared := hspares e hresult
                simp [hresult, metOutage, failure?, hspared, hcall]
            | crashed text => simp [hresult, metOutage, failure?, hcall]
        | ok metrics =>
            simp only [hresult]
            exact countP_isFailed_finish hcalls metrics

/-- What a visit calls is what its source answers. -/
theorem eq_make_of_mem_calls_run {entry : Entry α} {c : Call}
    (hc : c ∈ (run settings source uuid socket entry).calls) : c = .make source c.query := by
  rcases mem_calls_run hc with rfl | rfl <;> rfl

theorem countP_fails_queries_run (entry : Entry α) :
    let v := run settings source uuid socket entry
    v.queries.countP source.fails = if v.metOutage then 1 else 0 := by
  intro v
  rw [← countP_isFailed_run]
  exact Call.countP_fails_queries fun c hc => eq_make_of_mem_calls_run hc

end Visit

end SocketRanking
