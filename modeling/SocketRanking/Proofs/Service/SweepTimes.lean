import SocketRanking.Config.Daemon
import SocketRanking.Proofs.Cache.Wakeups
import SocketRanking.Proofs.Scoring.Outcome
import SocketRanking.Proofs.Service.Run
import SocketRanking.Proofs.Service.Totals

/-!
# How often the sweeper acts

While nothing else happens, the sweeper acts once for every time that the cache holds, and it
makes no difference into which spans the time is sliced.  Between two of its rounds the clock
has to move on, unless the cache is configured not to hold at all: then the sweeper goes round
for ever at one instant.
-/

namespace SocketRanking

variable {σ α : Type}

/-- An accepted configuration settles how the scorer works. -/
theorem DaemonConfig.exists_settings_of_load {file : Option String}
    {environment : List (String × String)} {config : DaemonConfig}
    (hload : load file environment = .ok config) : ∃ settings, config.settings = .ok settings := by
  unfold load at hload
  obtain ⟨layers, -, hread⟩ := exists_of_bind_eq_ok hload
  split at hread
  · cases hread
  · next found _ =>
      obtain ⟨settings, hsettings, hfound⟩ := exists_of_bind_eq_ok hread
      obtain rfl : found = config := Except.ok.inj hfound
      exact ⟨settings, hsettings⟩

namespace State

/-- How many sweeps are due in a span: one for every time that the cache has held by its end. -/
def sweepsDue (s : State σ α) (millis : ℕ) : ℕ :=
  (s.now + millis - s.cache.refreshedAt) / s.cache.ttl

/-- The sweeper, and nothing else, has acted while the clock moved on by `millis`: the sweeps
that were due are made and counted, and the timer is set back to the last of them.  The loop
of the sweeper comes out there as well, whatever deadline it had read before. -/
structure SweepsOnTime [Scalar α] (millis : ℕ) (s s' : State σ α) : Prop where
  rest : s' = { s with cache := s'.cache, activity := s'.activity, now := s.now + millis }
  activity : s'.activity = s.activity + { cacheSweeps := s.sweepsDue millis }
  ttl : s'.cache.ttl = s.cache.ttl
  refreshedAt : s'.cache.refreshedAt = s.cache.refreshedAt + s.sweepsDue millis * s.cache.ttl
  holding : s'.now - s'.cache.refreshedAt < s'.cache.ttl
  untouched : s.sweepsDue millis = 0 → s'.cache = s.cache
  blank : 0 < s.sweepsDue millis → s'.cache.IsBlank
  keys : ∀ k, k ∈ s'.cache.entries ↔ k ∈ s.cache.entries
  loop : ∀ alarm ≤ s.cache.deadline, ∃ alarm' ≤ s'.cache.deadline,
    Watch.RunsTo s'.now s.now ⟨s.cache, alarm⟩ (s.sweepsDue millis) ⟨s'.cache, alarm'⟩

end State

variable [Scalar α]

namespace Deployment

/-! ## Spans of time -/

theorem advance_eq {s : State σ α} (hsweeping : s.sweeping = true) (millis : ℕ) :
    advance millis s =
      { s with
        cache := (s.cache.sweepUntil s.now (s.now + millis) 0).1
        activity := s.activity +
          { cacheSweeps := (s.cache.sweepUntil s.now (s.now + millis) 0).2 }
        now := s.now + millis } := by
  rw [advance, if_pos hsweeping]
  rfl

/-- A span of time may be sliced. -/
theorem advance_advance {s : State σ α} (hholds : 0 < s.cache.ttl)
    (hsweeping : s.sweeping = true) (a b : ℕ) :
    advance b (advance a s) = advance (a + b) s := by
  have hsplit := Cache.sweepUntil_sweepUntil hholds (Nat.le_add_right s.now a)
    (Nat.le_add_right (s.now + a) b) 0
  rw [← Nat.zero_add (s.cache.sweepUntil s.now (s.now + a) 0).2, Cache.sweepUntil_add] at hsplit
  have hcounts : ∀ m n : ℕ, s.activity + { cacheSweeps := m } + { cacheSweeps := n } =
      s.activity + { cacheSweeps := n + m } := by
    intro m n
    rw [add_assoc, Nat.add_comm n m]
    rfl
  have hsweeping' : (advance a s).sweeping = true := by
    rw [advance_eq hsweeping]
    exact hsweeping
  rw [advance_eq hsweeping', advance_eq hsweeping, advance_eq hsweeping, ← Nat.add_assoc,
    ← hsplit]
  dsimp only
  rw [hcounts]

theorem sweepsOnTime_advance {s : State σ α} (hsweeping : s.sweeping = true)
    (hfresh : s.now - s.cache.refreshedAt < s.cache.ttl) (millis : ℕ) :
    s.SweepsOnTime millis (advance millis s) := by
  have hholds : 0 < s.cache.ttl := Nat.zero_lt_of_lt hfresh
  have hbefore : s.now < s.cache.deadline := by
    rw [Cache.deadline]
    omega
  obtain ⟨hcount, hrefreshed⟩ :=
    Cache.sweepUntil_counts hholds hbefore (s.now + millis) 0
  rw [Nat.zero_add] at hcount
  change _ = s.sweepsDue millis at hcount
  change _ = s.cache.refreshedAt + s.sweepsDue millis * s.cache.ttl at hrefreshed
  rw [advance_eq hsweeping]
  refine ⟨rfl, by rw [hcount], Cache.ttl_sweepUntil .., hrefreshed, ?holding, ?untouched,
    ?blank, fun k => Cache.mem_entries_sweepUntil .., ?loop⟩
  case holding =>
    have hremainder := Nat.lt_div_mul_add (a := s.now + millis - s.cache.refreshedAt) hholds
    change _ < s.sweepsDue millis * s.cache.ttl + s.cache.ttl at hremainder
    dsimp only
    rw [Cache.ttl_sweepUntil, hrefreshed]
    omega
  case untouched => exact fun hnone => Cache.sweepUntil_of_count_eq (hcount.trans hnone)
  case blank =>
    intro hsome
    refine Cache.isBlank_sweepUntil (Nat.le_of_not_lt fun hlate => ?_) 0
    rw [Cache.sweepUntil_of_lt hlate] at hcount
    exact hsome.ne hcount
  case loop =>
    intro alarm halarm
    rw [← hcount]
    exact Watch.runsTo_sweepUntil hholds halarm s.now (s.now + millis)

/-- A sweeper of which the timer has not run out makes one sweep for every time that the cache
holds, the end of the span included, and empties the cache if it makes any.  Slicing the span
makes no difference, but for a measurement between two slices, which puts the next deadline
off to a full holding time later. -/
theorem advance_sweepsOnTime {s : State σ α} (hsweeping : s.sweeping = true)
    (hfresh : s.now - s.cache.refreshedAt < s.cache.ttl) (a b : ℕ) :
    s.SweepsOnTime a (advance a s) ∧
    advance b (advance a s) = advance (a + b) s ∧
    ∀ (d : Deployment σ α) (k : SocketKey) (p : Performance α) (idle : α),
      let s' := (d.step (advance a s) (.updateCache k p idle)).2
      s'.cache.deadline = s.now + a + s.cache.ttl ∧
      s'.sweepsDue b = b / s.cache.ttl ∧
      s'.SweepsOnTime b (advance b s') := by
  have hholds : 0 < s.cache.ttl := Nat.zero_lt_of_lt hfresh
  have hspan := sweepsOnTime_advance hsweeping hfresh a
  refine ⟨hspan, advance_advance hholds hsweeping a b, ?_⟩
  intro d k p idle s'
  have hsweeping' : s'.sweeping = true := by
    change (advance a s).sweeping = true
    rw [hspan.rest]
    exact hsweeping
  have hnow : s'.now = s.now + a := by
    change (advance a s).now = s.now + a
    rw [hspan.rest]
  have hrefreshed : s'.cache.refreshedAt = s'.now := rfl
  have httl : s'.cache.ttl = s.cache.ttl := hspan.ttl
  refine ⟨?_, ?_, sweepsOnTime_advance hsweeping' ?_ b⟩
  · rw [Cache.deadline, hrefreshed, hnow, httl]
  · rw [State.sweepsDue, hrefreshed, httl, Nat.add_sub_cancel_left]
  · rwa [hrefreshed, Nat.sub_self, httl]

/-- A span of two and a half holding times, sliced in the middle. -/
theorem advance_sweepsOnTime_bench :
    let s := { (bench.run (bench.start 500 3 .steady) [.advance 100, .score "bench"]).2 with
      sweeping := true }
    (advance 1250 s).activity = s.activity + { cacheSweeps := 2 } ∧
    (advance 1250 s).cache.refreshedAt = 1100 ∧
    (advance 1250 s).cache.IsBlank ∧
    advance 650 (advance 600 s) = advance 1250 s := by
  intro s
  have hs : s.now = 100 ∧ s.cache.refreshedAt = 100 ∧ s.cache.ttl = 500 := by
    simp only [s, start_bench]
    decide +kernel
  obtain ⟨hnow, hrefreshed, httl⟩ := hs
  have hfresh : s.now - s.cache.refreshedAt < s.cache.ttl := by
    rw [hnow, hrefreshed, httl]
    decide
  have hdue : s.sweepsDue 1250 = 2 := by
    rw [State.sweepsDue, hnow, hrefreshed, httl]
  have hspan := (advance_sweepsOnTime rfl hfresh 1250 0).1
  refine ⟨hdue ▸ hspan.activity, ?_, hspan.blank (hdue ▸ Nat.zero_lt_two),
    (advance_sweepsOnTime rfl hfresh 600 650).2.1⟩
  rw [hspan.refreshedAt, hdue, hrefreshed, httl]

end Deployment

/-! ## Rest -/

namespace Basis

/-- The cache was refreshed in the past, and holds for as long as ever. -/
structure IsTimed (ttl : ℕ) (b : Basis σ α) : Prop where
  ttl : b.cache.ttl = ttl
  past : b.cache.refreshedAt ≤ b.now

variable {d : Deployment σ α} {b : Basis σ α} {ttl : ℕ}

theorem IsTimed.score (htimed : b.IsTimed ttl) (name : String) :
    (b.score d name).2.IsTimed ttl := by
  unfold Basis.score
  cases d.topology.requireNode name with
  | error e => exact htimed
  | ok n =>
      refine ⟨by simpa [enter, Basis.expire] using htimed.ttl, ?_⟩
      have hexpired : b.expire.cache.refreshedAt ≤ b.now := by
        simp only [Basis.expire, Cache.invalidateIfExpired]
        split
        · exact le_rfl
        · exact htimed.past
      simp only [enter, Cache.refreshedAt_record]
      split
      · exact hexpired
      · exact le_rfl

theorem IsTimed.scoreAll (htimed : b.IsTimed ttl) (hosts : List String) :
    (b.scoreAll d hosts).2.IsTimed ttl := by
  induction hosts generalizing b with
  | nil => exact htimed
  | cons host rest ih => exact ih (htimed.score host)

theorem IsTimed.advance (htimed : b.IsTimed ttl) (millis : ℕ) :
    (b.advance millis).IsTimed ttl := by
  have hpast : b.cache.refreshedAt ≤ b.now + millis :=
    htimed.past.trans (Nat.le_add_right _ _)
  unfold Basis.advance
  split
  · exact ⟨(Cache.ttl_sweepUntil ..).trans htimed.ttl, Cache.refreshedAt_sweepUntil_le hpast 0⟩
  · exact ⟨htimed.ttl, hpast⟩

theorem IsTimed.place (htimed : b.IsTimed ttl) (p : Placement) : (b.place d p).IsTimed ttl := by
  unfold Basis.place
  cases d.resolve p with
  | error e => exact htimed
  | ok found => exact ⟨htimed.ttl, htimed.past⟩

theorem IsTimed.step (htimed : b.IsTimed ttl) (step : Step σ α) : (b.step d step).IsTimed ttl := by
  cases step with
  | score name => exact htimed.score name
  | prioritize workload hosts => exact htimed.scoreAll hosts
  | recordPlacement p => exact htimed.place p
  | updateCache k p idle => exact ⟨htimed.ttl, le_rfl⟩
  | advance millis => exact htimed.advance millis
  | startSweeper =>
      exact IsTimed.advance (b := { b with sweeping := true }) ⟨htimed.ttl, htimed.past⟩ 0
  | flushCache | idleCapacity name | showCache | stopSweeper | setReady ready | showHealth
  | changeStore change => exact ⟨htimed.ttl, htimed.past⟩

end Basis

namespace Deployment

theorem isTimed_run {d : Deployment σ α} (hconsistent : d.topology.IsConsistent) (ttl : ℕ)
    (threshold : UInt32) (store : σ) (steps : List (Step σ α)) :
    (d.run (d.start ttl threshold store) steps).2.basis.IsTimed ttl :=
  basis_run_induction hconsistent ⟨rfl, le_rfl⟩ fun _ step _ htimed => htimed.step step

/-- Whatever configuration is accepted, in every state that the service reaches with it and
whatever deadline the sweeper has read before, the sweeper comes to rest at a standing clock,
after one sweep at most, exactly if the configured cache holds for some time.  This is when
every round sets its alarm to a later instant. -/
theorem sweeper_rests_iff {file : Option String} {environment : List (String × String)}
    {config : DaemonConfig} (hload : DaemonConfig.load file environment = .ok config) :
    ∃ settings, config.settings = .ok settings ∧
      ∀ (d : Deployment σ α) (topologyFile : TopologyFile α) (store : σ)
        (steps : List (Step σ α)),
        d.settings = settings → Topology.ofFile topologyFile = .ok d.topology →
        let s := (d.run (d.start (config.cache.ttlSecs * 1000)
          config.scoring.failureThreshold store) steps).2
        ∀ alarm ≤ s.cache.deadline,
          let w : Watch α := ⟨s.cache, alarm⟩
          ((∃ sweeps w', w.RunsTo s.now s.now sweeps w') ↔ 0 < config.cache.ttlSecs) ∧
          (∀ sweeps w', w.RunsTo s.now s.now sweeps w' → sweeps ≤ 1) ∧
          (s.now < (w.wake s.now).alarm ↔ 0 < config.cache.ttlSecs) := by
  obtain ⟨settings, hsettings⟩ := DaemonConfig.exists_settings_of_load hload
  refine ⟨settings, hsettings, ?_⟩
  intro d topologyFile store steps _ haccepted s alarm halarm w
  have htimed := isTimed_run (Topology.isConsistent_of_ofFile haccepted)
    (config.cache.ttlSecs * 1000) config.scoring.failureThreshold store steps
  have httl : w.cache.ttl = config.cache.ttlSecs * 1000 := htimed.ttl
  have hholds : 0 < w.cache.ttl ↔ 0 < config.cache.ttlSecs := by
    rw [httl]
    omega
  have hrests : (∃ sweeps w', w.RunsTo s.now s.now sweeps w') → 0 < w.cache.ttl := by
    rintro ⟨sweeps, w', hruns⟩
    by_contra hnever
    have hzero : w.cache.ttl = 0 := Nat.eq_zero_of_not_pos hnever
    have hpassed : w.cache.deadline ≤ s.now := by
      rw [Cache.deadline, hzero]
      exact htimed.past
    exact Watch.not_runsTo_of_ttl_eq_zero hzero (max_le le_rfl (halarm.trans hpassed)) hruns
  refine ⟨⟨fun hrest => hholds.mp (hrests hrest), fun hconfigured => ?_⟩,
    fun sweeps w' hruns => ?_, Watch.lt_alarm_wake_iff.trans hholds⟩
  · obtain ⟨sweeps, -, w', hruns⟩ := Watch.exists_runsTo_self (hholds.mpr hconfigured) s.now
    exact ⟨sweeps, w', hruns⟩
  · obtain ⟨once, honce, w'', hruns'⟩ :=
      Watch.exists_runsTo_self (hrests ⟨sweeps, w', hruns⟩) s.now
    exact (hruns.unique hruns').1.trans_le honce

/-- A cache that is configured to hold for half a minute, at the end of it. -/
theorem sweeper_rests_iff_bench :
    let s := (bench.run (bench.start 30000 3 .steady) [.score "bench", .advance 30000]).2
    let w : Watch Float := ⟨s.cache, s.cache.deadline⟩
    (∃ sweeps w', w.RunsTo s.now s.now sweeps w') ∧ s.now < (w.wake s.now).alarm := by
  have hload : DaemonConfig.load none [("SCORER__CACHE__TTL_SECS", "30")] =
      .ok { instanceName := "scorerd", cache := { ttlSecs := 30 } } := by
    decide +kernel
  obtain ⟨settings, hsettings, hrests⟩ := sweeper_rests_iff (σ := Source) (α := Float) hload
  have hdefault : bench.settings = settings := by
    have hneutral : ({ instanceName := "scorerd", cache := { ttlSecs := 30 } } :
        DaemonConfig).settings = .ok bench.settings := by
      decide +kernel
    exact Except.ok.inj (hneutral.symm.trans hsettings)
  obtain ⟨hrest, -, hlater⟩ := hrests bench Topology.benchFile .steady
    [.score "bench", .advance 30000] hdefault Topology.ofFile_benchFile _ le_rfl
  exact ⟨hrest.mpr (by decide), hlater.mpr (by decide)⟩

/-- A configuration with a cache that never holds is accepted, and the sweeper that is started
with it goes round for ever before the clock moves on. -/
theorem sweeper_spins_bench :
    ∃ config, DaemonConfig.load none [("SCORER__CACHE__TTL_SECS", "0")] = .ok config ∧
      config.settings = .ok bench.settings ∧
      let s := bench.start (config.cache.ttlSecs * 1000) config.scoring.failureThreshold .steady
      let w : Watch Float := ⟨s.cache, s.cache.deadline⟩
      (¬∃ sweeps w', w.RunsTo s.now s.now sweeps w') ∧ (w.wake s.now).alarm = s.now := by
  refine ⟨{ instanceName := "scorerd", cache := { ttlSecs := 0 } }, by decide +kernel,
    by decide +kernel, ?_⟩
  intro s w
  have hnever : w.cache.ttl = 0 := rfl
  have hdue : max s.now w.alarm ≤ s.now := le_rfl
  refine ⟨?_, rfl⟩
  rintro ⟨sweeps, w', hruns⟩
  exact Watch.not_runsTo_of_ttl_eq_zero hnever hdue hruns

end Deployment

end SocketRanking
