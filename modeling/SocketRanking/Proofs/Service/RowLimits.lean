import SocketRanking.Proofs.Service.Outages
import SocketRanking.Proofs.Service.SweepTimes
import SocketRanking.Proofs.Telemetry.Pooling

/-!
# Row limits

To measure a socket the scorer asks for as many rows as cover the window, and to measure its
cores for that many rows of each of them.  Both numbers are kept in machine words.  They are
exact as long as they fit into one; where they do not, they start over from zero, and a longer
window may be measured with fewer rows than a shorter one.
-/

namespace SocketRanking

variable {σ α : Type}

/-- The queries by which a socket is measured, and their limits. -/
inductive Socket.Asks (settings : Settings) (uuid : String) (s : Socket) : Query → Prop
  | performance : Asks settings uuid s
      { metrics := settings.strategy.fetched, uuid, socket := s.id, cores := none
        limit := settings.rowsPerWindow }
  | idle : Asks settings uuid s
      { metrics := [.c6res], uuid, socket := s.id, cores := some s.cores
        limit := settings.rowsForCores s.cores.length }

/-! ## Limits -/

theorem word64_lt (n : ℕ) : word64 n < 2 ^ 64 :=
  Nat.mod_lt n (by decide)

theorem word64_of_lt {n : ℕ} (hfits : n < 2 ^ 64) : word64 n = n :=
  Nat.mod_eq_of_lt hfits

namespace Settings

/-- How many samples the window spans, whatever their number. -/
def samplesInWindow (s : Settings) : ℕ :=
  s.window.nanos / s.sampleInterval.nanos

/-- The limits of queries are the numbers of rows that cover the window, exactly as long as
these fit into a word, and up to there they grow with the window. -/
structure LimitsRows (s : Settings) : Prop where
  perWindow : s.rowsPerWindow = max 1 s.samplesInWindow ↔ s.samplesInWindow < 2 ^ 64
  perCore : ∀ cores, s.rowsForCores cores = max 1 s.samplesInWindow * max 1 cores ↔
    max 1 s.samplesInWindow * max 1 cores < 2 ^ 64
  monotone : s.samplesInWindow < 2 ^ 64 → ∀ window : Duration, window.nanos ≤ s.window.nanos →
    { s with window }.rowsPerWindow ≤ s.rowsPerWindow

variable {s : Settings}

theorem rowsPerWindow_eq_max_word64 (hinterval : 0 < s.sampleInterval.nanos) :
    s.rowsPerWindow = max 1 (word64 s.samplesInWindow) := by
  rw [rowsPerWindow, if_neg hinterval.ne', max_comm]
  rfl

theorem rowsPerWindow_eq_iff (hinterval : 0 < s.sampleInterval.nanos) :
    s.rowsPerWindow = max 1 s.samplesInWindow ↔ s.samplesInWindow < 2 ^ 64 := by
  rw [rowsPerWindow_eq_max_word64 hinterval]
  constructor
  · intro hexact
    have hword : max 1 (word64 s.samplesInWindow) < 2 ^ 64 :=
      max_lt (by norm_num) (word64_lt _)
    rw [hexact] at hword
    exact (le_max_right _ _).trans_lt hword
  · intro hfits
    rw [word64_of_lt hfits]

theorem rowsForCores_eq_iff (hinterval : 0 < s.sampleInterval.nanos) (cores : ℕ) :
    s.rowsForCores cores = max 1 s.samplesInWindow * max 1 cores ↔
      max 1 s.samplesInWindow * max 1 cores < 2 ^ 64 := by
  constructor
  · intro hexact
    rw [← hexact]
    exact word64_lt _
  · intro hfits
    -- One core needs no more rows than all of them, so the factor has not been cut either.
    have hone : max 1 s.samplesInWindow ≤ max 1 s.samplesInWindow * max 1 cores :=
      Nat.le_mul_of_pos_right _ (by omega)
    have hsamples : s.samplesInWindow < 2 ^ 64 :=
      ((le_max_right _ _).trans hone).trans_lt hfits
    rw [rowsForCores, (rowsPerWindow_eq_iff hinterval).mpr hsamples, max_comm cores 1]
    exact word64_of_lt hfits

theorem limitsRows (hinterval : 0 < s.sampleInterval.nanos) : s.LimitsRows where
  perWindow := rowsPerWindow_eq_iff hinterval
  perCore := rowsForCores_eq_iff hinterval
  monotone := by
    intro hfits window hwindow
    have hsamples : { s with window }.samplesInWindow ≤ s.samplesInWindow :=
      Nat.div_le_div_right hwindow
    have hinterval' : 0 < { s with window }.sampleInterval.nanos := hinterval
    rw [(rowsPerWindow_eq_iff hinterval).mpr hfits,
      (rowsPerWindow_eq_iff hinterval').mpr (hsamples.trans_lt hfits)]
    exact max_le_max le_rfl hsamples

end Settings

/-- The scorer works with the configured window, and with an interval of some length. -/
theorem DaemonConfig.window_of_settings {config : DaemonConfig} {settings : Settings}
    (hsettings : config.settings = .ok settings) :
    settings.window.nanos = config.scoring.windowSecs * 1000000000 ∧
      0 < settings.sampleInterval.nanos := by
  unfold DaemonConfig.settings at hsettings
  split at hsettings
  · next interval hinterval =>
      obtain rfl := Except.ok.inj hsettings
      refine ⟨Nat.add_zero _, Nat.pos_of_ne_zero ?_⟩
      simpa using (Option.filter_eq_some_iff.mp hinterval).2
  · cases hsettings

/-! ## Queries of a visit -/

variable [Scalar α]

/-- A visit makes the queries of its socket and no others. -/
theorem Visit.asks_of_mem_queries_run {settings : Settings} {source : Source} {uuid : String}
    {socket : Socket} {entry : Entry α} {q : Query}
    (hq : q ∈ (run settings source uuid socket entry).queries) : socket.Asks settings uuid q := by
  obtain ⟨c, hc, rfl⟩ := List.mem_map.mp hq
  rcases mem_calls_run hc with rfl | rfl
  · exact .performance
  · exact .idle

namespace Deployment

variable {d : Deployment σ α} {s s' s'' : State σ α}

/-- The query measures a socket of the topology. -/
def Asks (d : Deployment σ α) (q : Query) : Prop :=
  ∃ name n, d.topology.requireNode name = .ok n ∧ ∃ socket ∈ n.sockets,
    socket.Asks d.settings n.uuid q

/-- From `s` to `s'` nothing was asked but queries that measure sockets of the topology. -/
def OnlyMeasures (d : Deployment σ α) (s s' : State σ α) : Prop :=
  ∃ made, s'.queries = s.queries ++ made ∧ ∀ q ∈ made, d.Asks q

namespace OnlyMeasures

omit [Scalar α] in
theorem of_queries_eq (hsame : s'.queries = s.queries) : d.OnlyMeasures s s' :=
  ⟨[], hsame.trans (List.append_nil _).symm, List.forall_mem_nil _⟩

omit [Scalar α] in
theorem trans (hfirst : d.OnlyMeasures s s') (hsecond : d.OnlyMeasures s' s'') :
    d.OnlyMeasures s s'' := by
  obtain ⟨made, hmade, hasks⟩ := hfirst
  obtain ⟨made', hmade', hasks'⟩ := hsecond
  refine ⟨made ++ made', ?_, List.forall_mem_append.mpr ⟨hasks, hasks'⟩⟩
  rw [hmade', hmade, List.append_assoc]

end OnlyMeasures

/-! ## Queries of a call -/

variable {n : Node} {name : String}

theorem visitAll_onlyMeasures (hn : d.topology.requireNode name = .ok n) {sockets : List Socket}
    (hsockets : ∀ socket ∈ sockets, socket ∈ n.sockets) (s : State σ α) :
    d.OnlyMeasures s (d.visitAll n sockets s).2 := by
  induction sockets generalizing s with
  | nil => exact .of_queries_eq rfl
  | cons socket rest ih =>
      obtain ⟨hsocket, hrest⟩ := List.forall_mem_cons.mp hsockets
      have hfirst : d.OnlyMeasures s (d.recordVisit (n.key socket) (d.visit n socket s) s) :=
        ⟨_, queries_recordVisit .., fun q hq =>
          ⟨name, n, hn, socket, hsocket, Visit.asks_of_mem_queries_run hq⟩⟩
      rw [visitAll_cons]
      dsimp only
      split
      · exact hfirst
      · exact hfirst.trans (ih hrest _)

theorem scoreNode_onlyMeasures (d : Deployment σ α) (name : String) (s : State σ α) :
    d.OnlyMeasures s (d.scoreNode name s).2 := by
  unfold scoreNode
  cases hn : d.topology.requireNode name with
  | error e => exact .of_queries_eq rfl
  | ok n =>
      have hexpire : (expire s).queries = s.queries := by
        unfold expire
        split <;> rfl
      obtain ⟨made, hmade, hasks⟩ := visitAll_onlyMeasures hn (fun _ hsocket => hsocket) (expire s)
      rw [hexpire] at hmade
      dsimp only
      split
      · exact ⟨made, hmade, hasks⟩
      · split <;> exact ⟨made, hmade, hasks⟩

theorem tally_onlyMeasures (d : Deployment σ α) (hosts : List String) (s : State σ α) :
    d.OnlyMeasures s (d.tally hosts s).2 := by
  induction hosts generalizing s with
  | nil => exact .of_queries_eq rfl
  | cons host rest ih =>
      have hfirst := scoreNode_onlyMeasures d host s
      rw [tally]
      rcases hscore : d.scoreNode host s with ⟨trouble | r, s'⟩ <;> rw [hscore] at hfirst
      · exact hfirst.trans (ih (s'.report (.scoringFailed host trouble.reason)))
      · exact hfirst.trans (ih (s'.report (.ofResult r)))

theorem idleOver_onlyMeasures (hn : d.topology.requireNode name = .ok n) {sockets : List Socket}
    (hsockets : ∀ socket ∈ sockets, socket ∈ n.sockets) (total : α) (failures : List Failure)
    (s : State σ α) : d.OnlyMeasures s (d.idleOver n sockets total failures s).2 := by
  induction sockets generalizing total failures s with
  | nil => exact .of_queries_eq rfl
  | cons socket rest ih =>
      obtain ⟨hsocket, hrest⟩ := List.forall_mem_cons.mp hsockets
      have hasks : ∀ q ∈ (d.idleFraction n socket s).2.map (·.query), d.Asks q := by
        unfold idleFraction
        split
        · exact List.forall_mem_nil _
        · exact List.forall_mem_singleton.mpr ⟨name, n, hn, socket, hsocket, .idle⟩
      rw [idleOver]
      rcases hfound : d.idleFraction n socket s with ⟨(e | text) | c6, calls⟩
      all_goals
        rw [hfound] at hasks
        have hfirst : d.OnlyMeasures s ((d.recordCalls calls s).count (Call.activity calls)) :=
          ⟨_, rfl, hasks⟩
      · exact hfirst.trans (ih hrest _ _ _)
      · exact hfirst
      · exact hfirst.trans (ih hrest _ _ _)

theorem idleCapacity_onlyMeasures (d : Deployment σ α) (name : String) (s : State σ α) :
    d.OnlyMeasures s (d.idleCapacity name s).2 := by
  unfold idleCapacity
  cases hn : d.topology.requireNode name with
  | error e => exact .of_queries_eq rfl
  | ok n =>
      have hidle := idleOver_onlyMeasures hn (fun _ hsocket => hsocket) 0.0 [] s
      dsimp only
      rcases hover : d.idleOver n n.sockets 0.0 [] s with ⟨trouble | ⟨total, failures⟩, s'⟩
      · rw [hover] at hidle
        exact hidle
      · rw [hover] at hidle
        dsimp only
        split
        · split <;> exact hidle
        · exact hidle

/-! ## Queries of a run -/

theorem step_onlyMeasures (d : Deployment σ α) (s : State σ α) (step : Step σ α) :
    d.OnlyMeasures s (d.step s step).2 := by
  cases step with
  | score name =>
      have hscored := scoreNode_onlyMeasures d name s
      rw [Deployment.step, score]
      rcases hscore : d.scoreNode name s with ⟨(failure | text) | r, s'⟩ <;>
        rw [hscore] at hscored <;> exact hscored
  | prioritize workload hosts => exact tally_onlyMeasures d hosts s
  | idleCapacity name =>
      have hasked := idleCapacity_onlyMeasures d name s
      rw [Deployment.step]
      rcases hidle : d.idleCapacity name s with ⟨trouble | cores, s'⟩ <;>
        rw [hidle] at hasked <;> exact hasked
  | recordPlacement p =>
      simp only [Deployment.step, recordPlacement]
      rcases d.resolve p with e | ⟨n, socket, profile⟩ <;> exact .of_queries_eq rfl
  | advance millis | startSweeper =>
      simp only [Deployment.step, advance]
      split <;> exact .of_queries_eq rfl
  | flushCache | showCache | updateCache k p idle | stopSweeper | setReady ready | showHealth
  | changeStore change => exact .of_queries_eq rfl

/-- Along every run the store is asked for nothing but to measure sockets of the topology. -/
theorem run_onlyMeasures (d : Deployment σ α) (s : State σ α) (steps : List (Step σ α)) :
    d.OnlyMeasures s (d.run s steps).2 := by
  induction steps generalizing s with
  | nil => exact .of_queries_eq rfl
  | cons step rest ih => exact (step_onlyMeasures d s step).trans (ih _)

/-- Whatever configuration is accepted, the service that works with it asks for rows of the
sockets of its topology and of their cores, and limits every such query to the number of rows
that cover the configured window, one row at the least.  The limits are these numbers exactly
as long as they are below 2 to the power of 64, and as long as the number of samples in the
window is, they do not shrink when the window grows. -/
theorem queries_limitRows {file : Option String} {environment : List (String × String)}
    {config : DaemonConfig} (hload : DaemonConfig.load file environment = .ok config) :
    ∃ settings, config.settings = .ok settings ∧
      settings.window.nanos = config.scoring.windowSecs * 1000000000 ∧
      0 < settings.sampleInterval.nanos ∧ settings.LimitsRows ∧
      ∀ (d : Deployment σ α) (topologyFile : TopologyFile α) (ttl : ℕ) (threshold : UInt32)
        (store : σ) (steps : List (Step σ α)),
        d.settings = settings → Topology.ofFile topologyFile = .ok d.topology →
        ∀ q ∈ (d.run (d.start ttl threshold store) steps).2.queries,
          ∃ n ∈ topologyFile.nodes, ∃ socket ∈ n.sockets, socket.Asks settings n.uuid q := by
  obtain ⟨settings, hsettings⟩ := DaemonConfig.exists_settings_of_load hload
  obtain ⟨hwindow, hinterval⟩ := DaemonConfig.window_of_settings hsettings
  refine ⟨settings, hsettings, hwindow, hinterval, Settings.limitsRows hinterval, ?_⟩
  intro d topologyFile ttl threshold store steps hd haccepted q hq
  obtain ⟨made, hmade, hasks⟩ := run_onlyMeasures d (d.start ttl threshold store) steps
  rw [hmade] at hq
  obtain ⟨name, n, hn, socket, hsocket, hask⟩ := hasks q hq
  have hlisted := Topology.requireNode_eq_ok_iff.mp hn
  rw [Topology.node?_eq_some_iff_of_ofFile haccepted] at hlisted
  exact ⟨n, hlisted.1, socket, hsocket, hd ▸ hask⟩

/-- The service as it is configured by default, with five samples a second for 20 seconds. -/
theorem queries_limitRows_bench :
    bench.settings.rowsPerWindow = 100 ∧ bench.settings.rowsForCores 2 = 200 ∧
    ∀ q ∈ (bench.run (bench.start 500 3 .steady) [.score "bench"]).2.queries,
      q.limit = if q.cores = none then 100 else 200 := by
  have hload : DaemonConfig.load none [] = .ok { instanceName := "scorerd" } := by
    decide +kernel
  obtain ⟨settings, hsettings, -, -, hlimits, hqueries⟩ :=
    queries_limitRows (σ := Source) (α := Float) hload
  obtain rfl : bench.settings = settings := by
    have hneutral : ({ instanceName := "scorerd" } : DaemonConfig).settings =
        .ok bench.settings := by
      decide +kernel
    exact Except.ok.inj (hneutral.symm.trans hsettings)
  have hwindow := hlimits.perWindow.mpr (by decide)
  have hcores := (hlimits.perCore 2).mpr (by decide)
  have htwo : ∀ n ∈ Topology.benchFile.nodes, ∀ socket ∈ n.sockets, socket.cores.length = 2 := by
    decide +kernel
  refine ⟨hwindow, hcores, fun q hq => ?_⟩
  obtain ⟨n, hn, socket, hsocket, hask⟩ :=
    hqueries bench Topology.benchFile 500 3 .steady _ rfl Topology.ofFile_benchFile q hq
  cases hask with
  | performance => exact hwindow
  | idle => exact (congrArg bench.settings.rowsForCores (htwo n hn socket hsocket)).trans hcores

/-- With one sample in a nanosecond a window of 18446744074 seconds is accepted.  The number
of samples in it does not fit into a word, and the store is asked for far fewer rows than one
second earlier.  Half of this window fits, but not for two cores. -/
theorem rowsPerWindow_starts_over :
    ∃ config settings,
      DaemonConfig.load none [("SCORER__SCORING__WINDOW_SECS", "18446744074"),
        ("SCORER__TELEMETRY__SAMPLE_INTERVAL_SECS", "1e-9")] = .ok config ∧
      config.settings = .ok settings ∧
      settings.samplesInWindow = 18446744074000000000 ∧ settings.rowsPerWindow = 290448384 ∧
      { settings with window := .ofSecs 18446744073 }.rowsPerWindow = 18446744073000000000 ∧
      { settings with window := .ofSecs 9223372037 }.rowsPerWindow = 9223372037000000000 ∧
      { settings with window := .ofSecs 9223372037 }.rowsForCores 2 = 290448384 := by
  refine ⟨{ instanceName := "scorerd", telemetry := { sampleIntervalSecs := 1e-9 }
            scoring := { windowSecs := 18446744074 } },
    { window := .ofSecs 18446744074, sampleInterval := ⟨1⟩ }, ?_⟩
  decide +kernel

end Deployment

end SocketRanking
