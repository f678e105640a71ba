import SocketRanking.Proofs.Cache.Load
import SocketRanking.Proofs.Scoring.Gate
import SocketRanking.Proofs.Scoring.Outcome
import SocketRanking.Proofs.Scoring.Replay
import SocketRanking.Proofs.Telemetry.Averages

/-!
# Scores that decline

When no socket of a node does better than before, neither in its base score nor in
its idle fraction, then no gated score is higher than before, and the best of them is
not either.  The gate makes this more than a comparison socket by socket: a socket
that loses its last spare core exposes other sockets to the gate.  But a socket that
is weighed by its idle fraction has no spare core itself, so that its fraction is
below one and the gate only lowers its score.
-/

namespace SocketRanking

/-! ## The gate -/

namespace SocketScore

/-- A socket does no better than before, and its scores are not negative. -/
inductive DeclinesTo : SocketScore ℚ → SocketScore ℚ → Prop
  | ineligible (socket : Socket) : DeclinesTo (.ineligible socket) (.ineligible socket)
  | measured {socket : Socket} (hcores : 0 < socket.coreCount) {base base' c6 c6' : ℚ}
      (hbase' : 0 ≤ base') (hbase : base' ≤ base) (hc6' : 0 ≤ c6') (hc6 : c6' ≤ c6) :
      DeclinesTo (.measured socket base c6) (.measured socket base' c6')

theorem hasSpareCore_measured {socket : Socket} {base c6 : ℚ} :
    (measured socket base c6).hasSpareCore = true ↔ 1 ≤ c6 * socket.coreCount := by
  simp [hasSpareCore, idleCores, measured]
  norm_num

variable {s s' : SocketScore ℚ}

theorem DeclinesTo.hasSpareCore (hdeclines : s.DeclinesTo s')
    (hspare : s'.hasSpareCore = true) : s.hasSpareCore = true := by
  cases hdeclines with
  | ineligible socket => exact hspare
  | @measured socket _ base base' c6 c6' _ _ _ hc6 =>
      rw [hasSpareCore_measured] at hspare ⊢
      have hcores : (0 : ℚ) ≤ socket.coreCount := Nat.cast_nonneg _
      exact hspare.trans (mul_le_mul_of_nonneg_right hc6 hcores)

/-- A gated score declines when the socket does and the tally of spare cores, which
counts the socket itself, does not grow. -/
theorem DeclinesTo.gatedBy_le (hdeclines : s.DeclinesTo s') {spare spare' : Bool}
    (hspare : spare' = true → spare = true)
    (hself : s'.hasSpareCore = true → spare' = true) :
    s'.gatedBy spare' ≤ s.gatedBy spare := by
  cases hdeclines with
  | ineligible socket => exact le_rfl
  | @measured socket hcores base base' c6 c6' hbase' hbase hc6' hc6 =>
      cases hspare' : spare' with
      | true =>
          rw [hspare hspare']
          exact hbase
      | false =>
          have hown : (SocketScore.measured socket base' c6').hasSpareCore = false := by
            refine Bool.eq_false_of_not_eq_true fun hown => ?_
            rw [hself hown] at hspare'
            cases hspare'
          have hweighed : c6' ≤ 1 :=
            le_one_of_not_hasSpareCore (s := .measured socket base' c6') rfl rfl hcores hown
          cases spare with
          | true =>
              change base' * c6' ≤ base
              exact (mul_le_of_le_one_right hbase' hweighed).trans hbase
          | false =>
              change base' * c6' ≤ base * c6
              exact mul_le_mul hbase hc6 hc6' (hbase'.trans hbase)

/-- The same socket with no higher gated score. -/
structure GatedBelow (s s' : SocketScore ℚ) : Prop where
  socket : s'.socket = s.socket
  gatedScore : s'.gatedScore ≤ s.gatedScore

theorem DeclinesTo.socket_eq (hdeclines : s.DeclinesTo s') : s'.socket = s.socket := by
  cases hdeclines <;> rfl

end SocketScore

namespace IdleGate

open SocketScore

variable {sockets sockets' : List (SocketScore ℚ)}

theorem applyInOrder_gatedBelow (hdecline : List.Forall₂ DeclinesTo sockets sockets')
    {spare spare' : Bool} (hspare : spare' = true → spare = true) :
    List.Forall₂ GatedBelow (applyInOrder spare sockets) (applyInOrder spare' sockets') := by
  induction hdecline generalizing spare spare' with
  | nil => exact .nil
  | @cons s s' rest rest' hs _ ih =>
      have htally : (spare' || s'.hasSpareCore) = true → (spare || s.hasSpareCore) = true := by
        simp only [Bool.or_eq_true]
        exact Or.imp hspare hs.hasSpareCore
      have hself : s'.hasSpareCore = true → (spare' || s'.hasSpareCore) = true := by
        intro hown
        rw [hown, Bool.or_true]
      exact .cons ⟨hs.socket_eq, hs.gatedBy_le htally hself⟩ (ih htally)

theorem any_hasSpareCore (hdecline : List.Forall₂ DeclinesTo sockets sockets')
    (hspare : sockets'.any (·.hasSpareCore) = true) :
    sockets.any (·.hasSpareCore) = true := by
  induction hdecline with
  | nil => exact hspare
  | @cons s s' rest rest' hs _ ih =>
      rw [List.any_cons, Bool.or_eq_true] at hspare ⊢
      exact hspare.imp hs.hasSpareCore ih

/-- When all sockets decline, all gated scores do, in either mode of the gate. -/
theorem apply_gatedBelow (mode : IdleGate)
    (hdecline : List.Forall₂ DeclinesTo sockets sockets') :
    List.Forall₂ GatedBelow (mode.apply sockets) (mode.apply sockets') := by
  cases mode with
  | inOrder => exact applyInOrder_gatedBelow hdecline id
  | deferred =>
      -- The tally is that of all sockets, so the induction must not change it.
      have hspare := any_hasSpareCore hdecline
      have hself : ∀ s' ∈ sockets', s'.hasSpareCore = true →
          sockets'.any (·.hasSpareCore) = true :=
        fun s' hs' hown => List.any_eq_true.mpr ⟨s', hs', hown⟩
      change List.Forall₂ GatedBelow (sockets.map _) (sockets'.map _)
      generalize sockets.any (·.hasSpareCore) = spare at hspare ⊢
      generalize sockets'.any (·.hasSpareCore) = spare' at hspare hself ⊢
      induction hdecline with
      | nil => exact .nil
      | @cons s s' rest rest' hs _ ih =>
          obtain ⟨hfirst, hrest⟩ := List.forall_mem_cons.mp hself
          exact .cons ⟨hs.socket_eq, hs.gatedBy_le hspare hfirst⟩ (ih hrest)

end IdleGate

/-! ## The winner -/

section Winner

variable {sockets sockets' : List (SocketScore ℚ)}

/-- The gated score of the leader is the maximum. -/
theorem gatedScore_leader {highest : ℚ} {best : Option (SocketScore ℚ)}
    (hbest : best.elim 0 (·.gatedScore) = highest) :
    (leader highest best sockets).elim 0 (·.gatedScore) =
      (sockets.map (·.gatedScore)).foldl max highest := by
  induction sockets generalizing highest best with
  | nil => exact hbest
  | cons s rest ih =>
      rw [leader, List.map_cons, List.foldl_cons]
      split
      next hlt =>
        rw [max_eq_right hlt.le]
        exact ih rfl
      next hge =>
        rw [max_eq_left (not_lt.mp hge)]
        exact ih hbest

theorem lt_gatedScore_of_leader {highest : ℚ} {best : Option (SocketScore ℚ)}
    {w : SocketScore ℚ} (hw : leader highest best sockets = some w) :
    best = some w ∨ highest < w.gatedScore := by
  induction sockets generalizing highest best with
  | nil => exact Or.inl hw
  | cons s rest ih =>
      rw [leader] at hw
      split at hw
      next hlt =>
        right
        rcases ih hw with hself | hlater
        · obtain rfl := Option.some.inj hself
          exact hlt
        · exact hlt.trans hlater
      next => exact ih hw

/-- The score of a node whose sockets are gated like this. -/
def winningScore (sockets : List (SocketScore ℚ)) : ℚ :=
  (winner? sockets).elim 0 (·.gatedScore)

theorem winningScore_eq :
    winningScore sockets = (sockets.map (·.gatedScore)).foldl max 0 := by
  have hzero : (0.0 : ℚ) = 0 := by norm_num
  unfold winningScore winner?
  rw [hzero]
  exact gatedScore_leader rfl

/-- There is a winner exactly if the score is positive. -/
theorem isSome_winner?_iff : (winner? sockets).isSome = true ↔ 0 < winningScore sockets := by
  constructor
  · intro hsome
    obtain ⟨w, hw⟩ := Option.isSome_iff_exists.mp hsome
    rcases lt_gatedScore_of_leader hw with hnone | hpositive
    · cases hnone
    · rw [winningScore, hw]
      norm_num at hpositive
      exact hpositive
  · intro hpositive
    unfold winningScore at hpositive
    cases hw : winner? sockets with
    | some w => rfl
    | none =>
        rw [hw] at hpositive
        exact absurd hpositive (lt_irrefl 0)

theorem foldl_max_le (hbelow : List.Forall₂ SocketScore.GatedBelow sockets sockets')
    {highest highest' : ℚ} (hle : highest' ≤ highest) :
    (sockets'.map (·.gatedScore)).foldl max highest' ≤
      (sockets.map (·.gatedScore)).foldl max highest := by
  induction hbelow generalizing highest highest' with
  | nil => exact hle
  | cons hs _ ih => exact ih (max_le_max hle hs.gatedScore)

theorem winningScore_le (hbelow : List.Forall₂ SocketScore.GatedBelow sockets sockets') :
    winningScore sockets' ≤ winningScore sockets := by
  rw [winningScore_eq, winningScore_eq]
  exact foldl_max_le hbelow le_rfl

end Winner

/-! ## Base scores -/

namespace Strategy

theorem epsilon_pos : (0 : ℚ) < epsilon := by
  norm_num [epsilon]

theorem divisor_pos (x : ℚ) : 0 < Scalar.atLeast epsilon x := by
  rw [Scalar.atLeast_eq_max]
  exact epsilon_pos.trans_le (le_max_left _ _)

/-- Metrics that are not negative have a base score that is not negative. -/
theorem score_nonneg {strategy : Strategy} {metrics : MetricSet ℚ}
    (hmetrics : ∀ m x, metrics.get m = some x → 0 ≤ x) {base : ℚ}
    (hbase : strategy.score metrics = .ok base) : 0 ≤ base := by
  have hrequired : ∀ m x, metrics.require m = .ok x → 0 ≤ x :=
    fun m x hx => hmetrics m x (MetricSet.get_of_require_eq_ok hx)
  have hinverse : ∀ x : ℚ, 0 ≤ 1.0 / Scalar.atLeast epsilon x := by
    intro x
    exact div_nonneg (by norm_num) (divisor_pos x).le
  cases strategy with
  | ipcPerBandwidth =>
      obtain ⟨ipc, hipc, hbase⟩ := exists_of_bind_eq_ok hbase
      obtain ⟨read, -, hbase⟩ := exists_of_bind_eq_ok hbase
      obtain ⟨write, -, hbase⟩ := exists_of_bind_eq_ok hbase
      obtain rfl := Except.ok.inj hbase
      exact div_nonneg (hrequired _ _ hipc) (divisor_pos _).le
  | ipcOnly => exact hrequired _ _ hbase
  | inverseL3Misses =>
      obtain ⟨misses, -, hbase⟩ := exists_of_bind_eq_ok hbase
      obtain rfl := Except.ok.inj hbase
      exact hinverse misses
  | inverseEnergy =>
      obtain ⟨energy, -, hbase⟩ := exists_of_bind_eq_ok hbase
      obtain rfl := Except.ok.inj hbase
      exact hinverse energy

/-- What the cache holds scores no better with more memory traffic. -/
theorem score_toSet_declines {strategy : Strategy} (hcacheable : strategy.isCacheable = true)
    (p p' : Performance ℚ) (hipc : p'.ipc = p.ipc) (hipc_nonneg : 0 ≤ p.ipc)
    (htraffic : p.memRead + p.memWrite ≤ p'.memRead + p'.memWrite) :
    ∃ base base', strategy.score p.toSet = .ok base ∧ strategy.score p'.toSet = .ok base' ∧
      0 ≤ base' ∧ base' ≤ base := by
  cases strategy with
  | ipcPerBandwidth =>
      refine ⟨_, _, rfl, rfl, ?_, ?_⟩
      · rw [hipc]
        exact div_nonneg hipc_nonneg (divisor_pos _).le
      · rw [hipc]
        refine div_le_div_of_nonneg_left hipc_nonneg (divisor_pos _) ?_
        rw [Scalar.atLeast_eq_max, Scalar.atLeast_eq_max]
        exact max_le_max le_rfl htraffic
  | ipcOnly => exact ⟨_, _, rfl, rfl, hipc ▸ hipc_nonneg, hipc.le⟩
  | inverseL3Misses => exact absurd hcacheable (by decide)
  | inverseEnergy => exact absurd hcacheable (by decide)

end Strategy

/-! ## Visits -/

namespace Visit

/-- Two visits that end in the same trouble, or that measure the socket, the second one
no better. -/
inductive DeclinesTo (v v' : Visit ℚ) : Prop
  | trouble {t : Trouble} (houtcome : v.outcome = .error t) (houtcome' : v'.outcome = .error t)
  | measured {s s' : SocketScore ℚ} (houtcome : v.outcome = .ok s)
      (houtcome' : v'.outcome = .ok s') (hdeclines : s.DeclinesTo s')

variable {settings : Settings} {source : Source} {uuid : String} {socket : Socket}
  {e e' : Entry ℚ}

theorem outcome_finish_of_idle? {c6 : ℚ} (hidle : e.idle? = some c6) (served : Bool)
    (calls : List Call) {metrics : MetricSet ℚ} :
    (finish settings source uuid socket e served calls metrics).outcome =
      match settings.strategy.score metrics with
      | .error failure => .error (.failed failure)
      | .ok base => .ok (.measured socket base c6) := by
  unfold finish
  cases settings.strategy.score metrics with
  | error failure => rfl
  | ok base => simp [hidle]

theorem outcome_run_of_idle? (source : Source) (uuid : String) (socket : Socket) {c6 : ℚ}
    (hidle : e.idle? = some c6)
    (hcached : cached? settings.strategy e = none) :
    (run settings source uuid socket e).outcome =
      match (measurePerformance settings source uuid socket).result with
      | .error t => .error t
      | .ok metrics =>
        match settings.strategy.score metrics with
        | .error failure => .error (.failed failure)
        | .ok base => .ok (.measured socket base c6) := by
  unfold run
  cases hmeasured : (measurePerformance settings source uuid socket :
      Measurement (MetricSet ℚ)).result with
  | error t => simp only [hcached, hmeasured]
  | ok metrics => simp only [hcached, hmeasured, outcome_finish_of_idle? hidle]

/-- Without an idle fraction nothing in the entry is used. -/
theorem run_eq_of_idle?_eq_none (hidle : e.idle? = none) :
    run settings source uuid socket e = run settings source uuid socket .unknown := by
  refine run_eq_of_not_usesEntry fun huses => ?_
  have hsome := isSome_idle?_of_usesEntry huses
  rw [hidle] at hsome
  cases hsome

theorem nonneg_of_measurePerformance
    (hreads : ∀ m, source.Reads m fun x : ℚ => 0 ≤ x) {metrics : MetricSet ℚ}
    (hmeasured : (measurePerformance settings source uuid socket).result = .ok metrics)
    {base : ℚ} (hbase : settings.strategy.score metrics = .ok base) : 0 ≤ base := by
  refine Strategy.score_nonneg (fun m x hx => ?_) hbase
  exact (hreads m).of_measurePerformance (Aggregate.inheritedByAverages_ge 0) hmeasured hx

/-- What is measured without a cache is not negative. -/
theorem run_unknown_declines (hcores : 0 < socket.coreCount)
    (hreads : ∀ m, source.Reads m fun x : ℚ => 0 ≤ x) :
    (run settings source uuid socket (.unknown : Entry ℚ)).DeclinesTo
      (run settings source uuid socket .unknown) := by
  cases houtcome : (run settings source uuid socket (.unknown : Entry ℚ)).outcome with
  | error t => exact .trouble houtcome houtcome
  | ok score =>
      obtain ⟨metrics, base, c6, rfl, hmetrics, hbase, hfrom⟩ := exists_of_outcome_run houtcome
      have hbase_nonneg : 0 ≤ base := by
        rcases hmetrics with hcached | hmeasured
        · have hfresh := (cached?_eq_some_iff.mp hcached).1
          rw [Entry.isFresh, Entry.unknown, Entry.isKnown_sentinel] at hfresh
          cases hfresh
        · exact nonneg_of_measurePerformance hreads hmeasured hbase
      have hc6_nonneg : 0 ≤ c6 := by
        generalize (run settings source uuid socket (.unknown : Entry ℚ)).learned = learned
          at hfrom
        cases hfrom with
        | cache hidle =>
            rw [Entry.idle?_unknown] at hidle
            cases hidle
        | store _ _ hfloor _ =>
            rw [hfloor, Scalar.atLeast_eq_max]
            exact Entry.idleEpsilon_nonneg.trans (le_max_left _ _)
      exact .measured houtcome houtcome
        (.measured hcores hbase_nonneg le_rfl hc6_nonneg le_rfl)

/-- Visits that are served from the cache. -/
theorem served_declines (hcores : 0 < socket.coreCount) (hloads : e.LoadsTo e') {c6 c6' : ℚ}
    (hidle : e.idle? = some c6) (hidle' : e'.idle? = some c6') (hc6' : 0 ≤ c6')
    (hc6 : c6' ≤ c6) (hfresh : e.isFresh = true)
    (hcacheable : settings.strategy.isCacheable = true) :
    (run settings source uuid socket e).DeclinesTo
      (run settings source uuid socket e') := by
  have hcached := cached?_eq_some_iff.mpr ⟨hfresh, hcacheable, rfl⟩
  have hcached' := cached?_eq_some_iff.mpr ⟨hloads.fresh.trans hfresh, hcacheable, rfl⟩
  obtain ⟨base, base', hbase, hbase', hnonneg, hle⟩ :=
    Strategy.score_toSet_declines hcacheable ⟨e.ipc, e.memRead, e.memWrite⟩
      ⟨e'.ipc, e'.memRead, e'.memWrite⟩ hloads.ipc (hloads.ipc_nonneg hfresh) hloads.traffic
  refine .measured ?_ ?_ (.measured hcores hnonneg hle hc6' hc6)
  · simp only [run, hcached, outcome_finish_of_idle? hidle, hbase]
  · simp only [run, hcached', outcome_finish_of_idle? hidle', hbase']

/-- Visits that ask the store for the performance and take the idle fraction as cached. -/
theorem asked_declines (hcores : 0 < socket.coreCount)
    (hreads : ∀ m, source.Reads m fun x : ℚ => 0 ≤ x) {c6 c6' : ℚ}
    (hidle : e.idle? = some c6) (hidle' : e'.idle? = some c6') (hc6' : 0 ≤ c6')
    (hc6 : c6' ≤ c6) (hcached : cached? settings.strategy e = none)
    (hcached' : cached? settings.strategy e' = none) :
    (run settings source uuid socket e).DeclinesTo
      (run settings source uuid socket e') := by
  have houtcome := outcome_run_of_idle? source uuid socket hidle hcached
  have houtcome' := outcome_run_of_idle? source uuid socket hidle' hcached'
  cases hmeasured : (measurePerformance settings source uuid socket :
      Measurement (MetricSet ℚ)).result with
  | error t =>
      rw [hmeasured] at houtcome houtcome'
      exact .trouble houtcome houtcome'
  | ok metrics =>
      cases hbase : settings.strategy.score metrics with
      | error failure =>
          simp only [hmeasured, hbase] at houtcome houtcome'
          exact .trouble houtcome houtcome'
      | ok base =>
          simp only [hmeasured, hbase] at houtcome houtcome'
          have hnonneg := nonneg_of_measurePerformance hreads hmeasured hbase
          exact .measured houtcome houtcome' (.measured hcores hnonneg le_rfl hc6' hc6)

theorem cached?_eq_none_iff {strategy : Strategy} :
    cached? strategy e = none ↔ ¬(e.isFresh = true ∧ strategy.isCacheable = true) := by
  constructor
  · rintro hnone ⟨hfresh, hcacheable⟩
    rw [cached?_eq_some_iff.mpr ⟨hfresh, hcacheable, rfl⟩] at hnone
    cases hnone
  · intro hunserved
    cases hcached : cached? strategy e with
    | none => rfl
    | some metrics =>
        obtain ⟨hfresh, hcacheable, -⟩ := cached?_eq_some_iff.mp hcached
        exact absurd ⟨hfresh, hcacheable⟩ hunserved

/-- A socket comes out no better from an entry with more load. -/
theorem run_declines (hcores : 0 < socket.coreCount)
    (hreads : ∀ m, source.Reads m fun x : ℚ => 0 ≤ x) (hloads : e.LoadsTo e') :
    (run settings source uuid socket e).DeclinesTo
      (run settings source uuid socket e') := by
  rcases hloads.idle with ⟨hnone, hnone'⟩ | ⟨c6, c6', hidle, hidle', hc6', hc6⟩
  · rw [run_eq_of_idle?_eq_none hnone, run_eq_of_idle?_eq_none hnone']
    exact run_unknown_declines hcores hreads
  · by_cases hserved : e.isFresh = true ∧ settings.strategy.isCacheable = true
    · exact served_declines hcores hloads hidle hidle' hc6' hc6 hserved.1 hserved.2
    · have hcached' : cached? settings.strategy e' = none := by
        rw [cached?_eq_none_iff, hloads.fresh]
        exact hserved
      exact asked_declines hcores hreads hidle hidle' hc6' hc6
        (cached?_eq_none_iff.mpr hserved) hcached'

end Visit

end SocketRanking
