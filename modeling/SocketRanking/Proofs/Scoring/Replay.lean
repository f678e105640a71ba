import SocketRanking.Proofs.Cache.View
import SocketRanking.Scoring.Visit

/-!
# Visiting a socket again

A visit writes an entry back only when it measured the socket completely and the
cache knew no idle fraction for it.  Visiting the socket again from the entry
that was written comes to the same outcome, whether the entry serves the whole
visit, a part of it or, when a measurement happens to be the sentinel, nothing
at all.
-/

namespace SocketRanking

variable {α : Type} [Scalar α]

/-! ## Performance in and out of metric sets -/

omit [Scalar α] in
theorem Performance.ofSet_eq_ok_iff {metrics : MetricSet α} {p : Performance α} :
    Performance.ofSet metrics = .ok p ↔
      metrics.ipc = some p.ipc ∧ metrics.memRead = some p.memRead ∧
        metrics.memWrite = some p.memWrite := by
  obtain ⟨ipc, memRead, memWrite, -, -, -⟩ := metrics
  obtain ⟨i, r, w⟩ := p
  rcases ipc with _ | ipc <;> rcases memRead with _ | memRead <;>
    rcases memWrite with _ | memWrite <;>
    simp [Performance.ofSet, MetricSet.require, MetricSet.get, bind, Except.bind,
      pure, Except.pure]

/-- A cacheable strategy scores what the cache holds like the whole set. -/
theorem Strategy.score_toSet {s : Strategy} (hcacheable : s.isCacheable = true)
    {metrics : MetricSet α} {p : Performance α}
    (hp : Performance.ofSet metrics = .ok p) :
    s.score p.toSet = s.score metrics := by
  obtain ⟨hipc, hread, hwrite⟩ := Performance.ofSet_eq_ok_iff.mp hp
  cases s with
  | ipcPerBandwidth =>
      simp [score, MetricSet.require, MetricSet.get, Performance.toSet, hipc, hread, hwrite]
  | ipcOnly => simp [score, MetricSet.require, MetricSet.get, Performance.toSet, hipc]
  | inverseL3Misses => exact absurd hcacheable (by decide)
  | inverseEnergy => exact absurd hcacheable (by decide)

namespace Visit

variable {settings : Settings} {source : Source} {uuid : String} {socket : Socket}

theorem cached?_eq_some_iff {strategy : Strategy} {entry : Entry α}
    {metrics : MetricSet α} :
    cached? strategy entry = some metrics ↔
      entry.isFresh = true ∧ strategy.isCacheable = true ∧
        metrics = Performance.toSet ⟨entry.ipc, entry.memRead, entry.memWrite⟩ := by
  unfold cached?
  by_cases hfresh : entry.isFresh = true
  · have hknown : entry.performance? = some ⟨entry.ipc, entry.memRead, entry.memWrite⟩ := by
      simp only [Entry.isFresh, Bool.and_eq_true] at hfresh
      simp [Entry.performance?, hfresh.1]
    by_cases hcacheable : strategy.isCacheable = true
    · simp [hfresh, hcacheable, hknown, eq_comm]
    · simp [hcacheable]
  · simp [hfresh]

/-- The store answers so that the socket has this base score, performance and
idle fraction when nothing is cached. -/
structure Measures (settings : Settings) (source : Source) (uuid : String)
    (socket : Socket) (base : α) (p : Performance α) (idle : α) : Prop where
  performance : ∃ metrics,
    (measurePerformance settings source uuid socket).result = .ok metrics ∧
      settings.strategy.score metrics = .ok base ∧ Performance.ofSet metrics = .ok p
  idle : ∃ pooled,
    (measureIdle settings source uuid socket).result = .ok pooled ∧
      Scalar.atLeast Entry.idleEpsilon pooled = idle

/-! ## What a visit writes back -/

theorem exists_of_learned_finish {entry e : Entry α} {served : Bool}
    {calls : List Call} {metrics : MetricSet α}
    (hlearned : (finish settings source uuid socket entry served calls metrics).learned =
      some e) :
    entry.idle? = none ∧ ∃ base p idle,
      e = .measured p idle ∧ settings.strategy.score metrics = .ok base ∧
        Performance.ofSet metrics = .ok p ∧
        (finish settings source uuid socket entry served calls metrics).outcome =
          .ok (.measured socket base idle) ∧
        ∃ pooled, (measureIdle settings source uuid socket).result = .ok pooled ∧
          Scalar.atLeast Entry.idleEpsilon pooled = idle := by
  unfold finish at hlearned ⊢
  cases hscore : settings.strategy.score metrics with
  | error e' => simp [hscore] at hlearned
  | ok base =>
      cases hidle : entry.idle? with
      | some idle => simp [hscore, hidle] at hlearned
      | none =>
          cases hpooled : (measureIdle settings source uuid socket : Measurement α).result with
          | error trouble => simp [hscore, hidle, hpooled] at hlearned
          | ok pooled =>
              cases hp : Performance.ofSet metrics with
              | error e' => simp [hscore, hidle, hpooled, hp] at hlearned
              | ok p =>
                  obtain rfl : Entry.measured p (Scalar.atLeast Entry.idleEpsilon pooled) = e := by
                    simpa [hscore, hidle, hpooled, hp] using hlearned
                  exact ⟨rfl, base, p, _, rfl, rfl, rfl, by simp [hpooled], pooled, rfl, rfl⟩

/-- What a visit writes back was measured at the store, for a socket of which
the cache knew no idle fraction, and is what the visit reports. -/
theorem exists_measures_of_learned {entry e : Entry α}
    (hlearned : (run settings source uuid socket entry).learned = some e) :
    entry.idle? = none ∧ ∃ base p idle,
      e = .measured p idle ∧ Measures settings source uuid socket base p idle ∧
        (run settings source uuid socket entry).outcome =
          .ok (.measured socket base idle) := by
  unfold run at hlearned ⊢
  cases hcached : cached? settings.strategy entry with
  | some metrics =>
      simp only [hcached] at hlearned
      obtain ⟨hidle, -⟩ := exists_of_learned_finish hlearned
      rw [Entry.idle?_eq_some_of_isFresh (cached?_eq_some_iff.mp hcached).1] at hidle
      cases hidle
  | none =>
      simp only [hcached] at hlearned ⊢
      cases hperformance : (measurePerformance settings source uuid socket :
          Measurement (MetricSet α)).result with
      | error trouble => simp [hperformance] at hlearned
      | ok metrics =>
          simp only [hperformance] at hlearned ⊢
          obtain ⟨hidle, base, p, idle, rfl, hscore, hp, houtcome, hpooled⟩ :=
            exists_of_learned_finish hlearned
          exact ⟨hidle, base, p, idle, rfl,
            ⟨⟨metrics, hperformance, hscore, hp⟩, hpooled⟩, houtcome⟩

/-! ## Replaying a visit -/

theorem finish_measured {p : Performance α} {pooled base : α}
    (hpooled : (measureIdle settings source uuid socket).result = .ok pooled)
    {metrics : MetricSet α} (hscore : settings.strategy.score metrics = .ok base)
    (hp : Performance.ofSet metrics = .ok p) (served : Bool) (calls : List Call) :
    let e := Entry.measured p (Scalar.atLeast Entry.idleEpsilon pooled)
    (finish settings source uuid socket e served calls metrics).outcome =
        .ok (.measured socket base (Scalar.atLeast Entry.idleEpsilon pooled)) ∧
      ∀ e', (finish settings source uuid socket e served calls metrics).learned = some e' →
        e' = e := by
  intro e
  cases hidle : e.idle? with
  | none => simp [finish, hscore, hidle, hpooled, hp, e, eq_comm]
  | some c6 =>
      obtain rfl : Scalar.atLeast Entry.idleEpsilon pooled = c6 := by
        have hc6 := hidle
        simp only [Entry.idle?] at hc6
        split at hc6
        · exact Option.some.inj hc6
        · cases hc6
      simp [finish, hscore, hidle]

/-- From an entry that the store bears out, a visit reports what the store says
and writes nothing else. -/
theorem run_measured {base : α} {p : Performance α} {idle : α}
    (hmeasures : Measures settings source uuid socket base p idle) :
    (run settings source uuid socket (.measured p idle)).outcome =
        .ok (.measured socket base idle) ∧
      ∀ e, (run settings source uuid socket (.measured p idle)).learned = some e →
        e = .measured p idle := by
  obtain ⟨⟨metrics, hperformance, hscore, hp⟩, pooled, hpooled, rfl⟩ := hmeasures
  unfold run
  cases hcached : cached? settings.strategy
      (Entry.measured p (Scalar.atLeast Entry.idleEpsilon pooled)) with
  | some served =>
      obtain ⟨-, hcacheable, rfl⟩ := cached?_eq_some_iff.mp hcached
      refine finish_measured hpooled ?_ (Performance.ofSet_eq_ok_iff.mpr ⟨rfl, rfl, rfl⟩) true []
      exact (Strategy.score_toSet hcacheable hp).trans hscore
  | none =>
      simp only [hperformance]
      exact finish_measured hpooled hscore hp false _

/-- Visiting a socket again from the entry that a visit wrote back comes to the
same outcome. -/
theorem outcome_run_of_learned {entry e : Entry α}
    (hlearned : (run settings source uuid socket entry).learned = some e) :
    (run settings source uuid socket e).outcome =
      (run settings source uuid socket entry).outcome := by
  obtain ⟨-, base, p, idle, rfl, hmeasures, houtcome⟩ :=
    exists_measures_of_learned hlearned
  rw [houtcome]
  exact (run_measured hmeasures).1

/-- Visiting a socket again writes no other entry back. -/
theorem learned_run_of_learned {entry e e' : Entry α}
    (hlearned : (run settings source uuid socket entry).learned = some e)
    (hagain : (run settings source uuid socket e).learned = some e') : e' = e := by
  obtain ⟨-, base, p, idle, rfl, hmeasures, -⟩ := exists_measures_of_learned hlearned
  exact (run_measured hmeasures).2 e' hagain

/-! ## What a visit takes from its entry -/

/-- The visit took the performance metrics or the idle fraction from the entry:
an idle fraction that was measured would have been written back. -/
def UsesEntry (v : Visit α) : Prop :=
  v.served = true ∨ (∃ score, v.outcome = .ok score) ∧ v.learned = none

theorem not_usesEntry_finish {entry : Entry α} (hidle : entry.idle? = none)
    (calls : List Call) (metrics : MetricSet α) :
    ¬(finish settings source uuid socket entry false calls metrics).UsesEntry := by
  unfold finish UsesEntry
  cases settings.strategy.score metrics with
  | error e => simp
  | ok base =>
      cases hpooled : (measureIdle settings source uuid socket : Measurement α).result with
      | error trouble => simp [hidle, hpooled]
      | ok pooled => cases Performance.ofSet metrics <;> simp [hidle, hpooled]

theorem isSome_idle?_of_usesEntry {entry : Entry α}
    (huses : (run settings source uuid socket entry).UsesEntry) :
    entry.idle?.isSome = true := by
  rw [Option.isSome_iff_ne_none]
  intro hidle
  unfold run at huses
  cases hcached : cached? settings.strategy entry with
  | some metrics =>
      rw [Entry.idle?_eq_some_of_isFresh (cached?_eq_some_iff.mp hcached).1] at hidle
      cases hidle
  | none =>
      simp only [hcached] at huses
      cases hperformance : (measurePerformance settings source uuid socket :
          Measurement (MetricSet α)).result with
      | error trouble => simp [hperformance, UsesEntry] at huses
      | ok metrics =>
          simp only [hperformance] at huses
          exact not_usesEntry_finish hidle _ _ huses

/-- A visit that takes nothing from its entry goes as if nothing were known. -/
theorem run_eq_of_not_usesEntry [LawfulScalar α] {entry : Entry α}
    (hunused : ¬(run settings source uuid socket entry).UsesEntry) :
    run settings source uuid socket entry = run settings source uuid socket .unknown := by
  have hunknown : cached? settings.strategy (.unknown : Entry α) = none := by
    simp [cached?, Entry.isFresh, Entry.unknown]
  unfold run at hunused ⊢
  rw [hunknown]
  cases hcached : cached? settings.strategy entry with
  | some metrics =>
      refine absurd (Or.inl ?_) hunused
      simp only [hcached]
      unfold finish
      cases settings.strategy.score metrics with
      | error e => rfl
      | ok base =>
          rw [Entry.idle?_eq_some_of_isFresh (cached?_eq_some_iff.mp hcached).1]
  | none =>
      simp only [hcached] at hunused ⊢
      cases hperformance : (measurePerformance settings source uuid socket :
          Measurement (MetricSet α)).result with
      | error trouble => rfl
      | ok metrics =>
          simp only [hperformance] at hunused ⊢
          unfold finish at hunused ⊢
          cases hscore : settings.strategy.score metrics with
          | error e => rfl
          | ok base =>
              cases hidle : entry.idle? with
              | some idle => simp [hscore, hidle, UsesEntry] at hunused
              | none => rw [Entry.idle?_unknown]

end Visit

end SocketRanking
