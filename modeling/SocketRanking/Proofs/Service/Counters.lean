import SocketRanking.Proofs.Service.Isolation
import SocketRanking.Proofs.Service.Outages
import SocketRanking.Proofs.Service.Totals
import SocketRanking.Proofs.Service.VisitCounters

/-!
# The balance of the counters

Every socket that a call scores is a hit or a miss, and every call is a success or a failure;
only misses are ineligible, and the store fails at most one query about each socket.  So a
call fails exactly if the store failed a query about every socket, and a call of hits alone
changes nothing but counters.
-/

namespace SocketRanking

variable {σ α : Type} [Scalar α]

namespace Deployment

variable {d : Deployment σ α} {n : Node} {s : State σ α}

/-- One call that scores the node moved the counters by `moved` and made the queries
`made`, and the two agree with each other and with the answer. -/
structure Balances (d : Deployment σ α) (name : String) (n : Node) (s : State σ α)
    (moved : Activity) (made : List Query) : Prop where
  activity : (d.scoreNode name s).2.activity = s.activity + moved
  queries : (d.scoreNode name s).2.queries = s.queries ++ made
  lookups : moved.cacheHits + moved.cacheMisses = n.sockets.length
  hits : moved.cacheHits = n.sockets.countP fun socket =>
    ((s.cache.invalidateIfExpired s.now).get (n.key socket)).isFresh &&
      d.settings.strategy.isCacheable
  verdict : (moved.nodesScored = 1 ∧ moved.scoringFailures = 0 ∧
      ∃ r, (d.scoreNode name s).1 = .ok r) ∨
    (moved.nodesScored = 0 ∧ moved.scoringFailures = 1 ∧
      ∃ e, (d.scoreNode name s).1 = .error (.failed e))
  ineligible : ∀ r, (d.scoreNode name s).1 = .ok r →
    moved.ineligibleSockets = r.sockets.countP (!·.eligible)
  ineligible_of_failed : ∀ e, (d.scoreNode name s).1 = .error (.failed e) →
    moved.ineligibleSockets = n.sockets.length
  ineligible_le : moved.ineligibleSockets ≤ moved.cacheMisses
  hit_eligible : ∀ socket ∈ n.sockets, d.settings.strategy.isCacheable = true →
    ((s.cache.invalidateIfExpired s.now).get (n.key socket)).isFresh = true →
      ∃ r, (d.scoreNode name s).1 = .ok r ∧
        ∃ line ∈ r.sockets, line.socket = socket.id ∧ line.eligible = true
  errors : moved.telemetryErrors = made.countP (d.source s.store).fails
  errors_le : ∀ id, (made.filter (·.socket = id)).countP (d.source s.store).fails ≤ 1
  fails_iff : moved.scoringFailures = 1 ↔ moved.telemetryErrors = n.sockets.length
  all_hits : moved.cacheHits = n.sockets.length → made = [] ∧
    (d.scoreNode name s).2.cache = s.cache ∧ (d.scoreNode name s).2.health = s.health

/-! ## What the store is told -/

theorem health_visitAll (d : Deployment σ α) (n : Node) (sockets : List Socket)
    (s : State σ α) :
    (d.visitAll n sockets s).2.health =
      ((d.visitAll n sockets s).1.flatMap (·.calls)).foldl
        (Call.reportHealth · (d.clock s.now)) s.health := by
  have hrecord : ∀ (k : SocketKey) (v : Visit α) (s : State σ α),
      (d.recordVisit k v s).now = s.now ∧ (d.recordVisit k v s).health =
        v.calls.foldl (Call.reportHealth · (d.clock s.now)) s.health := by
    intro k v s
    unfold recordVisit
    cases v.learned <;> exact ⟨rfl, rfl⟩
  induction sockets generalizing s with
  | nil => rfl
  | cons socket rest ih =>
      obtain ⟨hnow, hhealth⟩ := hrecord (n.key socket) (d.visit n socket s) s
      rw [visitAll_cons]
      dsimp only
      split
      · rw [hhealth, List.flatMap_singleton]
      · rw [ih, hnow, hhealth, List.flatMap_cons, List.foldl_append]

theorem health_scoreNode (hconsistent : d.topology.IsConsistent) {name : String}
    (hn : d.topology.requireNode name = .ok n) (s : State σ α) :
    (d.scoreNode name s).2.health =
      ((s.basis.expire.visits d n).flatMap (·.calls)).foldl
        (Call.reportHealth · (d.clock s.now)) s.health := by
  have hexpire : (expire s).health = s.health ∧ (expire s).now = s.now := by
    unfold expire
    split <;> exact ⟨rfl, rfl⟩
  have hvisited := health_visitAll d n n.sockets (expire s)
  rw [visits_visitAll hconsistent hn, hexpire.1, hexpire.2] at hvisited
  rw [← hvisited, scoreNode, hn]
  dsimp only
  split
  · rfl
  · split <;> rfl

/-! ## Calls that do not break down -/

section

variable (hconsistent : d.topology.IsConsistent) {name : String}
  (hn : d.topology.requireNode name = .ok n)
  (hsound : ∀ text, (d.scoreNode name s).1 ≠ .error (.crashed text))

include hconsistent hn hsound

theorem crash?_visits : crash? (n.sockets.map (s.basis.expire.visit d n)) = none := by
  rw [← visits_of_not_crashed hconsistent hn hsound]
  by_contra hcrash
  obtain ⟨text, htext⟩ := Option.ne_none_iff_exists'.mp hcrash
  apply hsound text
  rw [answer_scoreNode hconsistent hn, conclude, htext]

theorem outcome_ne_crashed {socket : Socket} (hsocket : socket ∈ n.sockets) (text : String) :
    (s.basis.expire.visit d n socket).outcome ≠ .error (.crashed text) := by
  intro hcrashed
  have hnone := List.findSome?_eq_none_iff.mp (crash?_visits hconsistent hn hsound)
    _ (List.mem_map_of_mem hsocket)
  rw [hcrashed] at hnone
  cases hnone

/-- A line is eligible exactly if the visit of its socket did not fail. -/
theorem eligible_line {socket : Socket} (hsocket : socket ∈ n.sockets) :
    ((s.basis.expire.visit d n socket).line socket).eligible =
      !(s.basis.expire.visit d n socket).failure?.isSome := by
  have hsound := outcome_ne_crashed hconsistent hn hsound hsocket
  cases houtcome : (s.basis.expire.visit d n socket).outcome with
  | ok score =>
      obtain ⟨metrics, base, c6, rfl, -⟩ := Visit.exists_of_outcome_run houtcome
      rw [Visit.line, Visit.failure?, houtcome]
      rfl
  | error trouble =>
      cases trouble with
      | crashed text => exact absurd houtcome (hsound text)
      | failed e =>
          rw [Visit.line, Visit.failure?, houtcome]
          rfl

theorem answer_of_not_crashed :
    (d.scoreNode name s).1 = match outage? (n.sockets.map (s.basis.expire.visit d n)) with
      | some e => .error (.failed e)
      | none => .ok (d.result n (n.sockets.map fun socket =>
          (s.basis.expire.visit d n socket).line socket)) := by
  have hanswer := answer_scoreNode hconsistent hn s
  rw [visits_of_not_crashed hconsistent hn hsound, conclude,
    crash?_visits hconsistent hn hsound, breakdown_map] at hanswer
  exact hanswer

/-- A call fails exactly if every visit met an outage. -/
theorem failed_iff_metOutage (hsockets : n.sockets ≠ []) :
    (∃ e, (d.scoreNode name s).1 = .error (.failed e)) ↔
      ∀ socket ∈ n.sockets, (s.basis.expire.visit d n socket).metOutage = true := by
  rw [answer_of_not_crashed hconsistent hn hsound]
  constructor
  · rintro ⟨e, he⟩ socket hsocket
    cases houtage : outage? (n.sockets.map (s.basis.expire.visit d n)) with
    | none =>
        rw [houtage] at he
        cases he
    | some e' =>
        have hall := (outage?_eq_some_iff.mp houtage).1
        exact Visit.metOutage_iff.mpr (hall _ (List.mem_map_of_mem hsocket))
  · intro hall
    have hall' : ∀ v ∈ n.sockets.map (s.basis.expire.visit d n), v.IsOutage := by
      intro v hv
      obtain ⟨socket, hsocket, rfl⟩ := List.mem_map.mp hv
      exact Visit.metOutage_iff.mp (hall socket hsocket)
    have hlast := List.getLast_mem hsockets
    obtain ⟨e, houtcome, -⟩ := hall' _ (List.mem_map_of_mem hlast)
    have houtage : outage? (n.sockets.map (s.basis.expire.visit d n)) = some e := by
      refine outage?_eq_some_iff.mpr ⟨hall', _, ?_, houtcome⟩
      rw [List.getLast?_map, List.getLast?_eq_some_getLast hsockets]
      rfl
    rw [houtage]
    exact ⟨e, rfl⟩

end

end Deployment

/-! ## Failed queries of a call -/

/-- Queries that are made socket by socket, one of which fails at most, fail at most once
for each number. -/
theorem countP_filter_flatMap_le_one {queriesOf : Socket → List Query} {fails : Query → Bool}
    (hown : ∀ socket, ∀ q ∈ queriesOf socket, q.socket = socket.id)
    (hone : ∀ socket, (queriesOf socket).countP fails ≤ 1) {sockets : List Socket}
    (hnodup : (sockets.map Socket.id).Nodup) (id : UInt32) :
    ((sockets.flatMap queriesOf).filter (·.socket = id)).countP fails ≤ 1 := by
  induction sockets with
  | nil => exact Nat.zero_le 1
  | cons socket rest ih =>
      obtain ⟨hfirst, hrest⟩ := List.nodup_cons.mp hnodup
      rw [List.flatMap_cons, List.filter_append]
      by_cases hid : socket.id = id
      · -- The other sockets have other numbers.
        have hlater : (rest.flatMap queriesOf).filter (·.socket = id) = [] := by
          apply List.filter_eq_nil_iff.mpr
          intro q hq hsame
          obtain ⟨other, hother, hq⟩ := List.mem_flatMap.mp hq
          have hnumber : other.id = socket.id :=
            ((hown other q hq).symm.trans (of_decide_eq_true hsame)).trans hid.symm
          exact hfirst (hnumber ▸ List.mem_map_of_mem hother)
        rw [hlater, List.append_nil]
        exact (List.Sublist.countP_le List.filter_sublist).trans (hone socket)
      · have hnone : (queriesOf socket).filter (·.socket = id) = [] := by
          apply List.filter_eq_nil_iff.mpr
          intro q hq hsame
          exact hid ((hown socket q hq).symm.trans (of_decide_eq_true hsame))
        rw [hnone, List.nil_append]
        exact ih hrest

namespace Basis

theorem telemetryErrors_visits (d : Deployment σ α) (b : Basis σ α) (n : Node) :
    (Visit.total (n.sockets.map (b.visit d n))).telemetryErrors =
      (n.sockets.map (b.visit d n)).countP (·.metOutage) := by
  rw [Visit.telemetryErrors_total, ← Visit.sum_map_ite]
  congr 1
  apply List.map_congr_left
  intro v hv
  obtain ⟨socket, -, rfl⟩ := List.mem_map.mp hv
  exact Visit.countP_isFailed_run _

theorem countP_fails_visits (d : Deployment σ α) (b : Basis σ α) (n : Node) :
    ((n.sockets.map (b.visit d n)).flatMap Visit.queries).countP (d.source b.store).fails =
      (n.sockets.map (b.visit d n)).countP (·.metOutage) := by
  rw [List.countP_flatMap, ← Visit.sum_map_ite]
  congr 1
  apply List.map_congr_left
  intro v hv
  obtain ⟨socket, -, rfl⟩ := List.mem_map.mp hv
  exact Visit.countP_fails_queries_run _

end Basis

namespace Deployment

variable {d : Deployment σ α} {n : Node} {s : State σ α}

/-! ## The balance of a call -/

section

variable (hconsistent : d.topology.IsConsistent) {name : String}
  (hn : d.topology.requireNode name = .ok n)
  (hsound : ∀ text, (d.scoreNode name s).1 ≠ .error (.crashed text))

include hconsistent hn hsound

/-- A call moves its counters by what its visits and its answer count. -/
theorem counters_scoringActivity :
    let moved := d.scoringActivity name s
    let visits := n.sockets.map (s.basis.expire.visit d n)
    moved.cacheHits = visits.countP (·.served) ∧
      moved.cacheMisses = visits.countP (!·.served) ∧
      moved.ineligibleSockets = visits.countP (·.failure?.isSome) ∧
      moved.telemetryErrors = visits.countP (·.metOutage) ∧
      moved.nodesScored = (verdict (d.scoreNode name s).1).nodesScored ∧
      moved.scoringFailures = (verdict (d.scoreNode name s).1).scoringFailures := by
  intro moved visits
  have hverdict : ∀ answer : Except Trouble (ScoringResult α),
      (verdict answer).cacheHits = 0 ∧ (verdict answer).cacheMisses = 0 ∧
        (verdict answer).ineligibleSockets = 0 ∧ (verdict answer).telemetryErrors = 0 := by
    rintro ((e | text) | r) <;> exact ⟨rfl, rfl, rfl, rfl⟩
  have hmoved : moved = { cacheSweeps := if s.cache.isExpired s.now then 1 else 0 } +
      Visit.total visits + verdict (d.scoreNode name s).1 := by
    simp only [moved, scoringActivity, hn]
    rw [visits_visitAll hconsistent hn, visits_of_not_crashed hconsistent hn hsound]
  obtain ⟨hhits, hmisses, hineligible, herrors⟩ := hverdict (d.scoreNode name s).1
  have htotal : (Visit.total visits).telemetryErrors = visits.countP (·.metOutage) :=
    s.basis.expire.telemetryErrors_visits d n
  rw [← Visit.cacheHits_total, ← Visit.cacheMisses_total, ← Visit.ineligibleSockets_total,
    ← htotal, hmoved]
  simp only [Activity.add_def, hhits, hmisses, hineligible, herrors, Visit.nodesScored_total,
    Visit.scoringFailures_total]
  simp

/-- The ineligible lines of a result are those of visits that failed. -/
theorem countP_eligible {r : ScoringResult α} (hr : (d.scoreNode name s).1 = .ok r) :
    r.sockets.countP (!·.eligible) =
      (n.sockets.map (s.basis.expire.visit d n)).countP (·.failure?.isSome) := by
  obtain ⟨n', hn', rfl⟩ := eq_result_of_scoreNode_eq_ok hconsistent hr
  obtain rfl := Except.ok.inj (hn.symm.trans hn')
  have hgate := IdleGate.map_apply (f := fun line : SocketScore α => line.eligible)
    (fun _ _ => rfl) d.settings.idleGate
    (n.sockets.map fun socket => (s.basis.expire.visit d n socket).line socket)
  have hcount := congrArg (List.countP (!·)) hgate
  rw [List.countP_map, List.map_map, List.countP_map] at hcount
  rw [List.countP_map]
  refine hcount.trans (List.countP_congr ?_)
  intro socket hsocket
  have hline := eligible_line hconsistent hn hsound hsocket
  simp [hline]

/-- A socket that is served from the cache is reported as eligible. -/
theorem exists_eligible_of_served (hsockets : n.sockets ≠ []) {socket : Socket}
    (hsocket : socket ∈ n.sockets)
    (hserved : (s.basis.expire.visit d n socket).served = true) :
    ∃ r, (d.scoreNode name s).1 = .ok r ∧
      ∃ line ∈ r.sockets, line.socket = socket.id ∧ line.eligible = true := by
  obtain ⟨-, -, score, houtcome⟩ := Visit.of_served_run hserved
  change (s.basis.expire.visit d n socket).outcome = .ok score at houtcome
  rcases hanswer : (d.scoreNode name s).1 with (e | text) | r
  · -- The visit met no outage, so the call does not fail.
    have hall := (failed_iff_metOutage hconsistent hn hsound hsockets).mp ⟨e, hanswer⟩
    obtain ⟨e', he', -⟩ := Visit.metOutage_iff.mp (hall socket hsocket)
    rw [houtcome] at he'
    cases he'
  · exact absurd hanswer (hsound text)
  · obtain ⟨spare, hline⟩ := exists_mem_sockets_of_scoreNode hconsistent hn hanswer hsocket
    refine ⟨r, rfl, _, hline, (Basis.socket_line d s.basis.expire n socket).1, ?_⟩
    have heligible := eligible_line hconsistent hn hsound hsocket
    rw [Visit.failure?, houtcome] at heligible
    exact heligible

/-- A call that is served from the cache for every socket leaves everything but the
counters as it is. -/
theorem unchanged_of_served [LawfulScalar α] (hsockets : n.sockets ≠ [])
    (hserved : ∀ socket ∈ n.sockets, (s.basis.expire.visit d n socket).served = true) :
    s.basis.expire.queries d n = [] ∧ (d.scoreNode name s).2.cache = s.cache ∧
      (d.scoreNode name s).2.health = s.health := by
  have hvisits := visits_of_not_crashed hconsistent hn hsound
  have hidle : ∀ v ∈ s.basis.expire.visits d n, v.calls = [] ∧ v.learned = none := by
    intro v hv
    rw [hvisits] at hv
    obtain ⟨socket, hsocket, rfl⟩ := List.mem_map.mp hv
    obtain ⟨hcalls, hlearned, -⟩ := Visit.of_served_run (hserved socket hsocket)
    exact ⟨hcalls, hlearned⟩
  refine ⟨?_, ?_, ?_⟩
  · apply List.flatMap_eq_nil_iff.mpr
    intro v hv
    rw [Visit.queries, (hidle v hv).1]
    rfl
  · have hwrites : Visit.writes n n.sockets (s.basis.expire.visits d n) = [] := by
      apply List.eq_nil_iff_forall_not_mem.mpr
      rintro ⟨k, e⟩ hwrite
      obtain ⟨socket, v, hzip, -, hlearned⟩ := Visit.exists_of_mem_writes hwrite
      rw [(hidle v (List.of_mem_zip hzip).2).2] at hlearned
      cases hlearned
    have hrunning : s.cache.isExpired s.now ≠ true := by
      -- After a sweep nothing would be served.
      intro hexpired
      obtain ⟨socket, hsocket⟩ := List.exists_mem_of_ne_nil _ hsockets
      have hfresh := hserved socket hsocket
      rw [Basis.visit, Visit.served_run, Bool.and_eq_true] at hfresh
      have hblank : s.basis.expire.cache.get (n.key socket) = .unknown :=
        Cache.isBlank_invalidateIfExpired hexpired _
      rw [hblank] at hfresh
      simp [Entry.isFresh, Entry.unknown] at hfresh
    rw [cache_scoreNode hconsistent hn, hwrites, Cache.record_nil]
    exact if_neg hrunning
  · have hcalls : (s.basis.expire.visits d n).flatMap (·.calls) = [] :=
      List.flatMap_eq_nil_iff.mpr fun v hv => (hidle v hv).1
    rw [health_scoreNode hconsistent hn, hcalls]
    rfl

end

/-- The counters of a call that does not break down balance. -/
theorem scoreNode_balances [LawfulScalar α] (hconsistent : d.topology.IsConsistent)
    {name : String} (hn : d.topology.requireNode name = .ok n) (hsockets : n.sockets ≠ [])
    (hsound : ∀ text, (d.scoreNode name s).1 ≠ .error (.crashed text)) :
    d.Balances name n s (d.scoringActivity name s) (s.basis.expire.queries d n) := by
  obtain ⟨hhits, hmisses, hineligible, herrors, hscored, hfailures⟩ :=
    counters_scoringActivity hconsistent hn hsound
  have hfailed := failed_iff_metOutage hconsistent hn hsound hsockets
  have hnodup := hconsistent.nodup_sockets (Topology.requireNode_eq_ok_iff.mp hn)
  have hmade : s.basis.expire.queries d n =
      (n.sockets.map (s.basis.expire.visit d n)).flatMap Visit.queries := by
    rw [Basis.queries, visits_of_not_crashed hconsistent hn hsound]
  constructor
  case activity => exact activity_scoreNode d name s
  case queries => exact queries_scoreNode hconsistent hn s
  case lookups =>
    have hlength := List.length_eq_countP_add_countP (fun v : Visit α => v.served)
      (l := n.sockets.map (s.basis.expire.visit d n))
    rw [hhits, hmisses, ← List.length_map (s.basis.expire.visit d n), hlength]
    simp
  case hits =>
    rw [hhits, List.countP_map]
    apply List.countP_congr
    intro socket _
    change (s.basis.expire.visit d n socket).served = true ↔ _
    rw [Basis.visit, Visit.served_run]
    rfl
  case verdict =>
    rcases hanswer : (d.scoreNode name s).1 with (e | text) | r
    · rw [hanswer] at hscored hfailures
      exact Or.inr ⟨hscored, hfailures, e, rfl⟩
    · exact absurd hanswer (hsound text)
    · rw [hanswer] at hscored hfailures
      exact Or.inl ⟨hscored, hfailures, r, rfl⟩
  case ineligible =>
    intro r hr
    rw [hineligible, countP_eligible hconsistent hn hsound hr]
  case ineligible_of_failed =>
    intro e he
    have hall := hfailed.mp ⟨e, he⟩
    rw [hineligible, List.countP_map]
    apply List.countP_eq_length.mpr
    intro socket hsocket
    obtain ⟨e', he', -⟩ := Visit.metOutage_iff.mp (hall socket hsocket)
    simp [Visit.failure?, he']
  case ineligible_le =>
    rw [hineligible, hmisses]
    apply List.countP_mono_left
    intro v hv hfailure
    obtain ⟨socket, -, rfl⟩ := List.mem_map.mp hv
    by_contra hserved
    have hhit : (s.basis.expire.visit d n socket).served = true := by simpa using hserved
    obtain ⟨-, -, score, houtcome⟩ := Visit.of_served_run hhit
    change (s.basis.expire.visit d n socket).outcome = .ok score at houtcome
    simp [Visit.failure?, houtcome] at hfailure
  case hit_eligible =>
    intro socket hsocket hcacheable hfresh
    apply exists_eligible_of_served hconsistent hn hsound hsockets hsocket
    rw [Basis.visit, Visit.served_run, hcacheable, Bool.and_true]
    exact hfresh
  case errors =>
    rw [herrors, hmade]
    exact (s.basis.expire.countP_fails_visits d n).symm
  case errors_le =>
    intro id
    rw [hmade, List.flatMap_map]
    apply countP_filter_flatMap_le_one _ _ hnodup
    · intro socket q hq
      exact (Visit.of_mem_queries_run hq).2
    · intro socket
      have hcount : (s.basis.expire.visit d n socket).queries.countP (d.source s.store).fails =
          if (s.basis.expire.visit d n socket).metOutage then 1 else 0 :=
        Visit.countP_fails_queries_run _
      rw [hcount]
      split <;> decide
  case fails_iff =>
    have hfailure : (d.scoringActivity name s).scoringFailures = 1 ↔
        ∃ e, (d.scoreNode name s).1 = .error (.failed e) := by
      rw [hfailures]
      rcases hanswer : (d.scoreNode name s).1 with (e | text) | r <;> simp [verdict]
    rw [hfailure, hfailed, herrors, List.countP_map]
    exact List.countP_eq_length.symm
  case all_hits =>
    intro hall
    rw [hhits, List.countP_map] at hall
    exact unchanged_of_served hconsistent hn hsound hsockets (List.countP_eq_length.mp hall)

/-- Every call that scores a node of the topology moves the counters in balance, unless
the store breaks down; and along every run the counters of scoring are the sums of what
the calls of the run moved, queries of idle capacity that failed apart. -/
theorem scoring_counters_balance [LawfulScalar α] (d : Deployment σ α)
    {file : TopologyFile α} (haccepted : Topology.ofFile file = .ok d.topology) :
    (∀ (name : String) (n : Node) (s : State σ α), d.topology.requireNode name = .ok n →
      (∀ text, (d.scoreNode name s).1 ≠ .error (.crashed text)) →
        ∃ made, d.Balances name n s (d.scoringActivity name s) made) ∧
    ∀ (s : State σ α) (steps : List (Step σ α)),
      d.MovesBy (d.callsOfRun s steps) (d.idleErrorsOfRun s steps) s (d.run s steps).2 := by
  constructor
  · intro name n s hn hsound
    have hsockets := Topology.sockets_ne_nil_of_ofFile haccepted
      (Topology.requireNode_eq_ok_iff.mp hn)
    exact ⟨_, scoreNode_balances (Topology.isConsistent_of_ofFile haccepted) hn hsockets hsound⟩
  · intro s steps
    exact run_movesBy d s steps

/-- The store fails for one socket of the bench, also when idle capacity is asked for; when
it answers for both, a second call finds them in the cache. -/
theorem scoring_counters_balance_bench :
    let s := bench.start 500 3 halfDown
    let steps : List (Step Source Float) := [.score "bench", .flushCache, .idleCapacity "bench"]
    (∃ made, bench.Balances "bench" exactNode s
      { nodesScored := 1, ineligibleSockets := 1, cacheMisses := 2, telemetryErrors := 1
        scoringLatencies := 1, queryLatencies := 3 } made) ∧
    bench.scoringActivity "bench" (bench.scoreNode "bench" (bench.start 500 3 .steady)).2 =
      { nodesScored := 1, cacheHits := 2, scoringLatencies := 1 } ∧
    bench.idleErrorsOfRun s steps = 1 ∧
    bench.MovesBy (bench.callsOfRun s steps) (bench.idleErrorsOfRun s steps) s
      (bench.run s steps).2 := by
  intro s steps
  obtain ⟨hbalance, hrun⟩ := scoring_counters_balance bench Topology.ofFile_benchFile
  have hstart : s = _ := start_bench 500 3 halfDown
  refine ⟨?_, ?_, ?_, hrun s steps⟩
  · have hcall : (bench.scoreNode "bench" s).1.toOption.any (fun _ => true) = true := by
      rw [hstart]
      decide +kernel
    obtain ⟨r, hr, -⟩ := exists_of_any_toOption hcall
    have hmoved : bench.scoringActivity "bench" s =
        { nodesScored := 1, ineligibleSockets := 1, cacheMisses := 2, telemetryErrors := 1
          scoringLatencies := 1, queryLatencies := 3 } := by
      rw [hstart]
      decide +kernel
    rw [← hmoved]
    exact hbalance "bench" exactNode s rfl (by simp [hr])
  · rw [start_bench]
    decide +kernel
  · rw [hstart]
    decide +kernel

end Deployment

end SocketRanking
