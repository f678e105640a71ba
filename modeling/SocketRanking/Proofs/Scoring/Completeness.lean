import SocketRanking.Proofs.Number.Comparison
import SocketRanking.Proofs.Scoring.Endings
import SocketRanking.Proofs.Scoring.Replay
import SocketRanking.Proofs.Telemetry.Verdicts

/-!
# Completeness of what is measured

What a strategy reads, what is fetched for it, what the cache holds and what is written back
are four sets of metrics that are told apart.  They fit together: once metrics are at hand,
from the cache or from an aggregation, the strategy has its score and the cache its entry.
A measurement therefore stands and falls with its query, and a visit with the queries it
makes.
-/

namespace SocketRanking

variable {α β : Type}

/-! ## Queries -/

namespace Query

/-- The store answers with rows in which every metric asked for can be used. -/
def IsServed (source : Source) (q : Query) : Prop :=
  ∃ rows, source q = .ok rows ∧ ∀ m ∈ q.metrics, Aggregate.IsUsable m rows

/-- What is wrong with a query: the store fails it or breaks down over it, or answers with rows
in which a metric asked for holds a malformed value or is carried by none. -/
inductive IsAtFault (source : Source) (q : Query) : Trouble → Prop
  | failed {f : Failure} (hfailed : source q = .error (.failed f)) :
      IsAtFault source q (.failed (Call.unavailable f))
  | crashed {text : String} (hcrashed : source q = .error (.crashed text)) :
      IsAtFault source q (.crashed text)
  | unusable {rows : List Sample} (hrows : source q = .ok rows) {m : Metric} (hm : m ∈ q.metrics)
      (hunusable : ¬Aggregate.IsUsable m rows) {e : Failure}
      (hblames : Aggregate.Blames m rows e) : IsAtFault source q (.failed e)

variable {source : Source} {q : Query} {t : Trouble}

theorem IsAtFault.not_isServed (hfault : q.IsAtFault source t) : ¬q.IsServed source := by
  rintro ⟨rows, hrows, husable⟩
  cases hfault with
  | failed hfailed => cases hrows.symm.trans hfailed
  | crashed hcrashed => cases hrows.symm.trans hcrashed
  | unusable hrows' hm hunusable hblames =>
      obtain rfl := Except.ok.inj (hrows.symm.trans hrows')
      exact hunusable (husable _ hm)

/-- No query is at fault for a metric that is missing from what was aggregated. -/
theorem IsAtFault.ne_missingMetric (hfault : q.IsAtFault source t) (m : Metric) :
    t ≠ .failed (.missingMetric m) := by
  cases hfault with
  | @failed f hfailed =>
      intro hmissing
      have htelemetry := Call.isTelemetry_unavailable f
      rw [Trouble.failed.inj hmissing] at htelemetry
      cases htelemetry
  | crashed hcrashed => simp
  | unusable hrows hm hunusable hblames => cases hblames <;> simp

end Query

/-! ## Aggregations -/

namespace Aggregate

/-- What came of aggregating the metrics of some rows: something exactly if all of them can be
used, and otherwise a failure that one of them is to blame for. -/
structure Judges (metrics : List Metric) (rows : List Sample) (x : Except Failure β) : Prop where
  succeeds_iff : (∃ b, x = .ok b) ↔ ∀ m ∈ metrics, IsUsable m rows
  fails : ∀ e, x = .error e → ∃ m ∈ metrics, ¬IsUsable m rows ∧ Blames m rows e

theorem AnswersBy.judges {average : Metric → Option α}
    {aggregate : List Sample → List Metric → Except Failure (MetricSet α)} {rows : List Sample}
    {metrics : List Metric} (hanswers : AnswersBy average aggregate rows metrics) :
    Judges metrics rows (aggregate rows metrics) where
  succeeds_iff := hanswers.succeeds_iff
  fails e he := by
    obtain ⟨earlier, m, later, rfl, -, hunusable, hblames⟩ := hanswers.fails e he
    exact ⟨m, by simp, hunusable, hblames⟩

/-- What is made of the result without fail changes nothing about this. -/
theorem Judges.bind {γ : Type} {metrics : List Metric} {rows : List Sample}
    {x : Except Failure β} (hx : Judges metrics rows x) {f : β → Except Failure γ}
    (hf : ∀ b, x = .ok b → ∃ c, f b = .ok c) : Judges metrics rows (x >>= f) := by
  cases x with
  | error e =>
      constructor
      case succeeds_iff =>
        rw [← hx.succeeds_iff]
        refine iff_of_false ?_ ?_
        · rintro ⟨c, hc⟩
          cases hc
        · rintro ⟨b, hb⟩
          cases hb
      case fails =>
        intro e' he'
        obtain rfl : e = e' := Except.error.inj he'
        exact hx.fails e rfl
  | ok b =>
      obtain ⟨c, hc⟩ := hf b rfl
      refine ⟨iff_of_true ⟨c, hc⟩ (hx.succeeds_iff.mp ⟨b, rfl⟩), fun e he => ?_⟩
      cases hc.symm.trans he

end Aggregate

/-! ## Strategies -/

theorem MetricSet.require_eq_ok {metrics : MetricSet α} {m : Metric} {x : α}
    (hx : metrics.get m = some x) : metrics.require m = .ok x := by
  rw [require, hx]

theorem Performance.exists_ofSet {metrics : MetricSet α}
    (hmetrics : ∀ m ∈ Metric.performance, ∃ x, metrics.get m = some x) :
    ∃ p, ofSet metrics = .ok p := by
  obtain ⟨ipc, hipc⟩ := hmetrics .ipc (by decide)
  obtain ⟨read, hread⟩ := hmetrics .memRead (by decide)
  obtain ⟨write, hwrite⟩ := hmetrics .memWrite (by decide)
  exact ⟨⟨ipc, read, write⟩, ofSet_eq_ok_iff.mpr ⟨hipc, hread, hwrite⟩⟩

namespace Strategy

theorem mem_fetched_of_mem_performance (s : Strategy) {m : Metric} (hm : m ∈ Metric.performance) :
    m ∈ s.fetched :=
  List.mem_append_left _ hm

theorem mem_fetched_of_mem_required {s : Strategy} {m : Metric} (hm : m ∈ s.required) :
    m ∈ s.fetched := by
  by_cases hcached : m ∈ Metric.performance
  · exact s.mem_fetched_of_mem_performance hcached
  · exact List.mem_append_right _ (List.mem_filter.mpr ⟨hm, by simpa using hcached⟩)

variable [Scalar α]

/-- The base score of a socket with these metrics.  Whatever it divides by is no less than
`epsilon`. -/
inductive Rates (metrics : MetricSet α) : Strategy → α → Prop
  | ipcPerBandwidth {ipc read write divisor : α} (hipc : metrics.get .ipc = some ipc)
      (hread : metrics.get .memRead = some read) (hwrite : metrics.get .memWrite = some write)
      (hdivisor : divisor = Scalar.atLeast epsilon (read + write)) (hfloor : epsilon ≤ divisor) :
      Rates metrics .ipcPerBandwidth (ipc / divisor)
  | ipcOnly {ipc : α} (hipc : metrics.get .ipc = some ipc) : Rates metrics .ipcOnly ipc
  | inverseL3Misses {misses divisor : α} (hmisses : metrics.get .l3Misses = some misses)
      (hdivisor : divisor = Scalar.atLeast epsilon misses) (hfloor : epsilon ≤ divisor) :
      Rates metrics .inverseL3Misses (1.0 / divisor)
  | inverseEnergy {energy divisor : α} (henergy : metrics.get .energy = some energy)
      (hdivisor : divisor = Scalar.atLeast epsilon energy) (hfloor : epsilon ≤ divisor) :
      Rates metrics .inverseEnergy (1.0 / divisor)

/-- Metrics that are at hand for a strategy: those of a cache entry that serves it, or an
average of what is fetched for it. -/
inductive Obtains (s : Strategy) (metrics : MetricSet α) : Prop
  | cached {entry : Entry α} (hcached : Visit.cached? s entry = some metrics)
  | averaged {rows : List Sample}
      (haverage : Aggregate.weightedAverage rows s.fetched = .ok metrics)

/-- The metrics are enough for the score and for the entry to be written back. -/
structure IsContentWith (s : Strategy) (metrics : MetricSet α) : Prop where
  score : ∃ base, s.score metrics = .ok base ∧ Rates metrics s base
  performance : ∃ p, Performance.ofSet metrics = .ok p

variable {s : Strategy} {metrics : MetricSet α}

/-- Nothing is divided by less than `epsilon`: neither by something negative nor by something
that is no number. -/
theorem epsilon_le_atLeast [LawfulOrder α] (x : α) : epsilon ≤ Scalar.atLeast epsilon x := by
  unfold Scalar.atLeast
  split
  next hlt => exact LawfulOrder.le_of_lt hlt
  next => exact LawfulOrder.le_self_of_lt LawfulScalar.minusOne_lt_floor

theorem exists_score [LawfulOrder α] (hmetrics : ∀ m ∈ s.required, ∃ x, metrics.get m = some x) :
    ∃ base, s.score metrics = .ok base ∧ Rates metrics s base := by
  cases s with
  | ipcPerBandwidth =>
      obtain ⟨ipc, hipc⟩ := hmetrics .ipc (by decide)
      obtain ⟨read, hread⟩ := hmetrics .memRead (by decide)
      obtain ⟨write, hwrite⟩ := hmetrics .memWrite (by decide)
      refine ⟨_, ?_, .ipcPerBandwidth hipc hread hwrite rfl (epsilon_le_atLeast _)⟩
      rw [score, MetricSet.require_eq_ok hipc, MetricSet.require_eq_ok hread,
        MetricSet.require_eq_ok hwrite]
      rfl
  | ipcOnly =>
      obtain ⟨ipc, hipc⟩ := hmetrics .ipc (by decide)
      exact ⟨ipc, MetricSet.require_eq_ok hipc, .ipcOnly hipc⟩
  | inverseL3Misses =>
      obtain ⟨misses, hmisses⟩ := hmetrics .l3Misses (by decide)
      refine ⟨_, ?_, .inverseL3Misses hmisses rfl (epsilon_le_atLeast _)⟩
      rw [score, MetricSet.require_eq_ok hmisses]
      rfl
  | inverseEnergy =>
      obtain ⟨energy, henergy⟩ := hmetrics .energy (by decide)
      refine ⟨_, ?_, .inverseEnergy henergy rfl (epsilon_le_atLeast _)⟩
      rw [score, MetricSet.require_eq_ok henergy]
      rfl

theorem get_of_obtains (hobtains : s.Obtains metrics) :
    (∀ m ∈ s.required, ∃ x, metrics.get m = some x) ∧
      ∀ m ∈ Metric.performance, ∃ x, metrics.get m = some x := by
  cases hobtains with
  | cached hcached =>
      obtain ⟨-, hcacheable, rfl⟩ := Visit.cached?_eq_some_iff.mp hcached
      have hholds : ∀ p : Performance α, ∀ m ∈ Metric.performance, ∃ x, p.toSet.get m = some x := by
        simp [Metric.performance, Performance.toSet, MetricSet.get]
      refine ⟨fun m hm => hholds _ m ?_, hholds _⟩
      -- A strategy that the cache serves reads nothing that the cache does not hold.
      simpa using List.all_eq_true.mp hcacheable m hm
  | @averaged rows haverage =>
      have hrequested :=
        (Aggregate.weightedAverage_answersBy rows s.fetched).requested metrics haverage
      have hfetched : ∀ m ∈ s.fetched, ∃ x, metrics.get m = some x := fun m hm =>
        (hrequested m hm).imp fun x hx => hx.2
      exact ⟨fun m hm => hfetched m (mem_fetched_of_mem_required hm),
        fun m hm => hfetched m (s.mem_fetched_of_mem_performance hm)⟩

/-- Metrics that are at hand are enough. -/
theorem isContentWith_of_obtains [LawfulOrder α] (hobtains : s.Obtains metrics) :
    s.IsContentWith metrics where
  score := exists_score (get_of_obtains hobtains).1
  performance := Performance.exists_ofSet (get_of_obtains hobtains).2

end Strategy

/-- What is pooled over cores holds the idle residency that was asked for. -/
theorem MetricSet.exists_require_of_pooled [Scalar α] {rows : List Sample} {pooled : MetricSet α}
    (hpooled : Aggregate.weightedAverageOfCores rows [.c6res] = .ok pooled) :
    ∃ c6, pooled.require .c6res = .ok c6 := by
  obtain ⟨c6, -, hc6⟩ := (Aggregate.weightedAverageOfCores_answersBy rows
    [.c6res]).requested pooled hpooled .c6res (List.mem_singleton_self _)
  exact ⟨c6, require_eq_ok hc6⟩

/-! ## Measurements -/

/-- A measurement comes to something exactly if its query is served, and otherwise fails with
what is wrong with the query.  It never fails because a metric is missing. -/
structure Measurement.DependsOnQuery (source : Source) (m : Measurement β) : Prop where
  succeeds_iff : (∃ b, m.result = .ok b) ↔ m.call.query.IsServed source
  fails : ∀ t, m.result = .error t → m.call.query.IsAtFault source t
  complete : ∀ k, m.result ≠ .error (.failed (.missingMetric k))

theorem Measurement.dependsOnQuery_of_judges {source : Source} {q : Query}
    {aggregate : List Sample → Except Failure β}
    (hjudges : ∀ rows, Aggregate.Judges q.metrics rows (aggregate rows)) {m : Measurement β}
    (hcall : m.call = .make source q)
    (hresult : m.result = match m.call.answer with
      | .ok rows => unusable (aggregate rows)
      | .error trouble => .error trouble) : m.DependsOnQuery source := by
  have hquery : m.call.query = q := congrArg Call.query hcall
  suffices hends : (∃ b, m.result = .ok b) ∧ q.IsServed source ∨
      ∃ t, m.result = .error t ∧ q.IsAtFault source t by
    rcases hends with ⟨⟨b, hb⟩, hserved⟩ | ⟨t, ht, hfault⟩
    · refine ⟨iff_of_true ⟨b, hb⟩ (hquery ▸ hserved), fun t ht => ?_, fun k hk => ?_⟩
      · cases hb.symm.trans ht
      · cases hb.symm.trans hk
    · refine ⟨iff_of_false ?_ (hquery ▸ hfault.not_isServed), fun t' ht' => ?_, fun k hk => ?_⟩
      · rintro ⟨b, hb⟩
        cases hb.symm.trans ht
      · obtain rfl := Except.error.inj (ht.symm.trans ht')
        exact hquery ▸ hfault
      · exact hfault.ne_missingMetric k (Except.error.inj (ht.symm.trans hk))
  rw [hresult, hcall, Call.make]
  rcases hsource : source q with (f | text) | rows <;> dsimp only
  · exact Or.inr ⟨_, rfl, .failed hsource⟩
  · exact Or.inr ⟨_, rfl, .crashed hsource⟩
  · cases haggregate : aggregate rows with
    | ok b =>
        exact Or.inl ⟨⟨b, rfl⟩, rows, hsource, (hjudges rows).succeeds_iff.mp ⟨b, haggregate⟩⟩
    | error e =>
        obtain ⟨k, hk, hunusable, hblames⟩ := (hjudges rows).fails e haggregate
        exact Or.inr ⟨_, rfl, .unusable hsource hk hunusable hblames⟩

variable [Scalar α] {settings : Settings} {source : Source} {uuid : String} {socket : Socket}

theorem dependsOnQuery_measurePerformance :
    (measurePerformance settings source uuid socket :
      Measurement (MetricSet α)).DependsOnQuery source :=
  Measurement.dependsOnQuery_of_judges
    (fun rows => (Aggregate.weightedAverage_answersBy rows settings.strategy.fetched).judges)
    rfl rfl

theorem dependsOnQuery_measureIdle :
    (measureIdle settings source uuid socket : Measurement α).DependsOnQuery source := by
  refine Measurement.dependsOnQuery_of_judges (fun rows => ?_) rfl rfl
  have hjudges := (Aggregate.weightedAverageOfCores_answersBy (α := α) rows [.c6res]).judges
  exact hjudges.bind fun pooled => MetricSet.exists_require_of_pooled

/-- An average that was measured is at hand. -/
theorem Strategy.obtains_of_measurePerformance {metrics : MetricSet α}
    (hmetrics : (measurePerformance settings source uuid socket).result = .ok metrics) :
    settings.strategy.Obtains metrics := by
  unfold measurePerformance at hmetrics
  dsimp only at hmetrics
  split at hmetrics
  next rows _ =>
    cases haverage : (Aggregate.weightedAverage rows settings.strategy.fetched :
        Except Failure (MetricSet α)) with
    | error e =>
        rw [haverage] at hmetrics
        cases hmetrics
    | ok metrics' =>
        rw [haverage] at hmetrics
        obtain rfl := Except.ok.inj hmetrics
        exact .averaged haverage
  next => cases hmetrics

/-! ## Visits -/

namespace Visit

/-- A visit measures its socket exactly if all of its queries are served, and otherwise ends
with what is wrong with the last of them.  It never ends because a metric is missing. -/
structure DependsOnQueries (source : Source) (v : Visit α) : Prop where
  succeeds_iff : (∃ score, v.outcome = .ok score) ↔ ∀ q ∈ v.queries, q.IsServed source
  fails : ∀ t, v.outcome = .error t →
    ∃ q, v.queries.getLast? = some q ∧ q.IsAtFault source t
  complete : ∀ m, v.outcome ≠ .error (.failed (.missingMetric m))

variable {v : Visit α}

omit [Scalar α] in
theorem DependsOnQueries.of_served {score : SocketScore α} (hscore : v.outcome = .ok score)
    (hserved : ∀ q ∈ v.queries, q.IsServed source) : v.DependsOnQueries source where
  succeeds_iff := iff_of_true ⟨score, hscore⟩ hserved
  fails _ ht := nomatch hscore.symm.trans ht
  complete _ hm := nomatch hscore.symm.trans hm

omit [Scalar α] in
/-- A visit ends with a measurement that fails. -/
theorem DependsOnQueries.of_failed {m : Measurement β} (hm : m.DependsOnQuery source)
    {t : Trouble} (ht : m.result = .error t) (houtcome : v.outcome = .error t)
    {calls : List Call} (hcalls : v.calls = calls ++ [m.call]) : v.DependsOnQueries source := by
  have hfault := hm.fails t ht
  have hlast : v.queries.getLast? = some m.call.query := by
    rw [queries, hcalls, List.map_append]
    exact List.getLast?_concat
  constructor
  case succeeds_iff =>
    refine iff_of_false ?_ fun hserved => ?_
    · rintro ⟨score, hscore⟩
      cases hscore.symm.trans houtcome
    · exact hfault.not_isServed (hserved _ (List.mem_of_getLast? hlast))
  case fails =>
    intro t' ht'
    obtain rfl := Except.error.inj (houtcome.symm.trans ht')
    exact ⟨_, hlast, hfault⟩
  case complete =>
    intro k hk
    obtain rfl := Except.error.inj (houtcome.symm.trans hk)
    exact hm.complete k ht

theorem dependsOnQueries_finish {entry : Entry α} {served : Bool} {calls : List Call}
    (hcalls : ∀ q ∈ calls.map (·.query), q.IsServed source) {metrics : MetricSet α}
    (hmetrics : settings.strategy.IsContentWith metrics) :
    (finish settings source uuid socket entry served calls metrics).DependsOnQueries source := by
  obtain ⟨base, hbase, -⟩ := hmetrics.score
  obtain ⟨p, hp⟩ := hmetrics.performance
  have hmeasure : (measureIdle settings source uuid socket : Measurement α).DependsOnQuery source :=
    dependsOnQuery_measureIdle
  -- The score and the entry are certain, so only the idle residency can still go wrong.
  unfold finish
  simp only [hbase, hp]
  cases entry.idle? with
  | some c6 => exact .of_served rfl hcalls
  | none =>
      cases hidle : (measureIdle settings source uuid socket : Measurement α).result with
      | error t => exact .of_failed hmeasure hidle rfl rfl
      | ok pooled =>
          refine .of_served rfl fun q hq => ?_
          rw [queries, List.map_append, List.mem_append] at hq
          rcases hq with hearlier | hlast
          · exact hcalls q hearlier
          · obtain rfl := List.mem_singleton.mp hlast
            exact hmeasure.succeeds_iff.mp ⟨pooled, hidle⟩

/-- Whatever the cache holds and the store answers, a visit depends on its queries alone. -/
theorem dependsOnQueries_run [LawfulOrder α] (settings : Settings) (source : Source)
    (uuid : String) (socket : Socket) (entry : Entry α) :
    (run settings source uuid socket entry).DependsOnQueries source := by
  unfold run
  cases hcached : cached? settings.strategy entry with
  | some metrics =>
      exact dependsOnQueries_finish (List.forall_mem_nil _)
        (Strategy.isContentWith_of_obtains (.cached hcached))
  | none =>
      have hmeasure : (measurePerformance settings source uuid socket :
          Measurement (MetricSet α)).DependsOnQuery source := dependsOnQuery_measurePerformance
      cases hperformance : (measurePerformance settings source uuid socket :
          Measurement (MetricSet α)).result with
      | error t =>
          simp only [hperformance]
          exact .of_failed hmeasure hperformance rfl (List.nil_append _).symm
      | ok metrics =>
          have hmetrics := Strategy.isContentWith_of_obtains
            (Strategy.obtains_of_measurePerformance hperformance)
          simp only [hperformance]
          refine dependsOnQueries_finish (List.forall_mem_singleton.mpr ?_) hmetrics
          exact hmeasure.succeeds_iff.mp ⟨metrics, hperformance⟩

end Visit

end SocketRanking
