import SocketRanking.Proofs.Scoring.Completeness
import SocketRanking.Proofs.Service.Counters

/-!
# Why sockets are ineligible

A call that scores a node reports a line for each of its sockets.  Whether a line is eligible
can be told from the queries of the call about its socket and from what the store answered to
them: no socket is dropped for a metric that was not asked for or got lost on the way.
-/

namespace SocketRanking

variable {σ α : Type} [Scalar α]

/-- The gate leaves every line in its place and enters a gated score. -/
theorem IdleGate.forall₂_apply (mode : IdleGate) (lines : List (SocketScore α)) :
    List.Forall₂ (fun line gated => ∃ spare, gated = line.gate spare) lines (mode.apply lines) := by
  cases mode with
  | inOrder =>
      rw [apply]
      generalize false = spare
      induction lines generalizing spare with
      | nil => exact .nil
      | cons line rest ih => exact .cons ⟨_, rfl⟩ (ih _)
  | deferred => exact List.forall₂_map_right_iff.mpr (List.forall₂_same.mpr fun _ _ => ⟨_, rfl⟩)

/-- Lines of sockets that were measured are eligible, and no others. -/
theorem Visit.eligible_line_run_iff {settings : Settings} {source : Source} {uuid : String}
    {socket : Socket} {entry : Entry α} :
    ((run settings source uuid socket entry).line socket).eligible = true ↔
      ∃ score, (run settings source uuid socket entry).outcome = .ok score := by
  cases houtcome : (run settings source uuid socket entry).outcome with
  | ok score =>
      obtain ⟨metrics, base, c6, rfl, -⟩ := exists_of_outcome_run houtcome
      rw [line, houtcome]
      exact iff_of_true rfl ⟨_, rfl⟩
  | error t =>
      rw [line, houtcome]
      refine iff_of_false (by simp [SocketScore.ineligible]) ?_
      rintro ⟨score, hscore⟩
      cases hscore

/-- The line is eligible exactly if the store served every query of the call about the socket,
and otherwise one of these queries is at fault. -/
structure SocketScore.FollowsFrom (source : Source) (made : List Query) (socket : Socket)
    (line : SocketScore α) : Prop where
  socket_eq : line.socket = socket.id
  eligible_iff : line.eligible = true ↔ ∀ q ∈ made, q.socket = socket.id → q.IsServed source
  ineligible : line.eligible = false →
    ∃ q ∈ made, q.socket = socket.id ∧ ∃ e, q.IsAtFault source (.failed e)

namespace Deployment

variable {d : Deployment σ α} {n : Node} {name : String} {s : State σ α} {r : ScoringResult α}

section

variable (hconsistent : d.topology.IsConsistent) (hn : d.topology.requireNode name = .ok n)
  (hsound : ∀ text, (d.scoreNode name s).1 ≠ .error (.crashed text))

include hconsistent hn hsound

/-- The queries of a call about a socket are those of its visit. -/
theorem mem_queries_visit_iff {socket : Socket} (hsocket : socket ∈ n.sockets) {q : Query} :
    q ∈ (s.basis.expire.visit d n socket).queries ↔
      q ∈ (d.scoreNode name s).2.queries.drop s.queries.length ∧ q.socket = socket.id := by
  have hmade : q ∈ (d.scoreNode name s).2.queries.drop s.queries.length ↔
      ∃ other ∈ n.sockets, q ∈ (s.basis.expire.visit d n other).queries := by
    rw [queries_scoreNode hconsistent hn, List.drop_left, Basis.queries,
      visits_of_not_crashed hconsistent hn hsound]
    simp
  rw [hmade]
  constructor
  · intro hq
    exact ⟨⟨socket, hsocket, hq⟩, (Visit.of_mem_queries_run hq).2⟩
  · rintro ⟨⟨other, hother, hq⟩, hid⟩
    -- Sockets are numbered apart, so the query tells which of them it was made for.
    have hnodup := hconsistent.nodup_sockets (Topology.requireNode_eq_ok_iff.mp hn)
    have hsame : other.id = socket.id := (Visit.of_mem_queries_run hq).2.symm.trans hid
    obtain rfl := List.inj_on_of_nodup_map hnodup hother hsocket hsame
    exact hq

theorem followsFrom_line [LawfulOrder α] {socket : Socket} (hsocket : socket ∈ n.sockets)
    (spare : Bool) :
    (((s.basis.expire.visit d n socket).line socket).gate spare).FollowsFrom (d.source s.store)
      ((d.scoreNode name s).2.queries.drop s.queries.length) socket := by
  have hqueries := fun q : Query => mem_queries_visit_iff hconsistent hn hsound hsocket (q := q)
  have hdepends : (s.basis.expire.visit d n socket).DependsOnQueries (d.source s.store) :=
    Visit.dependsOnQueries_run ..
  have heligible : ((s.basis.expire.visit d n socket).line socket).eligible = true ↔ _ :=
    Visit.eligible_line_run_iff
  constructor
  case socket_eq => exact (Basis.socket_line d _ n socket).1
  case eligible_iff =>
    have hserved := hdepends.succeeds_iff
    simp only [hqueries, and_imp] at hserved
    exact heligible.trans hserved
  case ineligible =>
    intro hnot
    cases houtcome : (s.basis.expire.visit d n socket).outcome with
    | ok score =>
        have hline := heligible.mpr ⟨score, houtcome⟩
        cases hline.symm.trans hnot
    | error t =>
        obtain ⟨q, hlast, hfault⟩ := hdepends.fails t houtcome
        obtain ⟨hmade, hid⟩ := (hqueries q).mp (List.mem_of_getLast? hlast)
        cases t with
        | failed e => exact ⟨q, hmade, hid, e, hfault⟩
        | crashed text =>
            exact absurd houtcome (outcome_ne_crashed hconsistent hn hsound hsocket text)

end

/-- Every line in the result of a call follows from the queries about its socket. -/
theorem forall₂_followsFrom_of_scoreNode [LawfulOrder α] (hconsistent : d.topology.IsConsistent)
    (hn : d.topology.requireNode name = .ok n) (hr : (d.scoreNode name s).1 = .ok r) :
    List.Forall₂ (fun socket line => line.FollowsFrom (d.source s.store)
        ((d.scoreNode name s).2.queries.drop s.queries.length) socket) n.sockets r.sockets := by
  obtain ⟨n', hn', hresult⟩ := eq_result_of_scoreNode_eq_ok hconsistent hr
  obtain rfl := Except.ok.inj (hn.symm.trans hn')
  have hgated := d.settings.idleGate.forall₂_apply
    (n.sockets.map fun socket => (s.basis.expire.visit d n socket).line socket)
  rw [List.forall₂_map_left_iff] at hgated
  have hlines := (List.forall₂_and_left n.sockets _).mpr ⟨fun _ hsocket => hsocket, hgated⟩
  have hsound : ∀ text, (d.scoreNode name s).1 ≠ .error (.crashed text) := by
    intro text hcrashed
    cases hr.symm.trans hcrashed
  rw [hresult]
  refine hlines.imp ?_
  rintro socket line ⟨hsocket, spare, rfl⟩
  exact followsFrom_line hconsistent hn hsound hsocket spare

/-- Metrics that are at hand for a strategy, in a cache entry or as an average of rows, give
it a score in which nothing is divided by less than `epsilon`, and give the cache its entry;
what is pooled over cores gives an idle residency.  A visit of a socket and a measurement of
its idle residency therefore succeed exactly if the store serves the queries that they make,
and otherwise report what is wrong with a query, never a missing metric.  In the result of a
call a line is ineligible only because the store failed a query about its socket, or answered
it with a malformed value of a metric or with no row that carries one. -/
theorem scoring_lacks_no_metric [LawfulOrder α] :
    (∀ (strategy : Strategy) (metrics : MetricSet α),
      strategy.Obtains metrics → strategy.IsContentWith metrics) ∧
    (∀ (rows : List Sample) (pooled : MetricSet α),
      Aggregate.weightedAverageOfCores rows [.c6res] = .ok pooled →
      ∃ c6, pooled.require .c6res = .ok c6) ∧
    (∀ (settings : Settings) (source : Source) (uuid : String) (socket : Socket)
      (entry : Entry α),
      (Visit.run settings source uuid socket entry).DependsOnQueries source ∧
      (measureIdle settings source uuid socket : Measurement α).DependsOnQuery source) ∧
    ∀ (d : Deployment σ α) (file : TopologyFile α), Topology.ofFile file = .ok d.topology →
      ∀ (name : String) (s : State σ α) (r : ScoringResult α),
        (d.scoreNode name s).1 = .ok r → ∃ n ∈ file.nodes, n.name = name ∧
          List.Forall₂ (fun socket line => line.FollowsFrom (d.source s.store)
              ((d.scoreNode name s).2.queries.drop s.queries.length) socket)
            n.sockets r.sockets := by
  refine ⟨fun _ _ => Strategy.isContentWith_of_obtains, fun _ _ =>
    MetricSet.exists_require_of_pooled, fun settings source uuid socket entry => ?_, ?_⟩
  · exact ⟨Visit.dependsOnQueries_run settings source uuid socket entry, dependsOnQuery_measureIdle⟩
  · intro d file haccepted name s r hr
    have hconsistent := Topology.isConsistent_of_ofFile haccepted
    obtain ⟨n, hn, -⟩ := eq_result_of_scoreNode_eq_ok hconsistent hr
    obtain ⟨hlisted, hname⟩ := (Topology.node?_eq_some_iff_of_ofFile haccepted).mp
      (Topology.requireNode_eq_ok_iff.mp hn)
    exact ⟨n, hlisted, hname, forall₂_followsFrom_of_scoreNode hconsistent hn hr⟩

/-- A cached entry, an idle core, and the bench with a store that fails for its first socket. -/
theorem scoring_lacks_no_metric_bench :
    let idling : List Sample :=
      [{ timestamp := 0, core := some 0, values := [("c6res", .float 0.5)] }]
    Strategy.ipcPerBandwidth.IsContentWith (Performance.toSet ⟨2, 1, 1⟩ : MetricSet Float) ∧
    (∃ pooled : MetricSet Float, Aggregate.weightedAverageOfCores idling [.c6res] = .ok pooled ∧
      ∃ c6, pooled.require .c6res = .ok c6) ∧
    ∃ r, (bench.scoreNode "bench" (bench.start 500 3 halfDown)).1 = .ok r ∧
      ∃ line ∈ r.sockets, line.eligible = false ∧
        ∃ (q : Query) (e : Failure), q.socket = line.socket ∧ q.IsAtFault halfDown (.failed e) := by
  intro idling
  obtain ⟨hcontent, hpools, -, hlines⟩ := scoring_lacks_no_metric (σ := Source) (α := Float)
  refine ⟨?_, ?_, ?_⟩
  · have hserved : Visit.cached? .ipcPerBandwidth (⟨2, 1, 1, 0.5⟩ : Entry Float) =
        some (Performance.toSet ⟨2, 1, 1⟩) := by
      decide +kernel
    exact hcontent _ _ (.cached hserved)
  · have hpooled : ∃ pooled : MetricSet Float,
        Aggregate.weightedAverageOfCores idling [.c6res] = .ok pooled := ⟨_, rfl⟩
    obtain ⟨pooled, hpooled⟩ := hpooled
    exact ⟨pooled, hpooled, hpools idling pooled hpooled⟩
  · have hcall : (bench.scoreNode "bench" (bench.start 500 3 halfDown)).1.toOption.any
        (·.sockets.any (!·.eligible)) = true := by
      rw [start_bench]
      decide +kernel
    obtain ⟨r, hr, hsome⟩ := exists_of_any_toOption hcall
    obtain ⟨line, hline, hineligible⟩ := List.any_eq_true.mp hsome
    rw [Bool.not_eq_true'] at hineligible
    obtain ⟨n, -, -, hfollow⟩ := hlines bench _ Topology.ofFile_benchFile "bench" _ r hr
    obtain ⟨⟨i, hi⟩, rfl⟩ := List.mem_iff_get.mp hline
    have hfollows := hfollow.get (hfollow.length_eq ▸ hi) hi
    obtain ⟨q, -, hid, e, hfault⟩ := hfollows.ineligible hineligible
    exact ⟨r, hr, _, hline, hineligible, q, e, hid.trans hfollows.socket_eq.symm, hfault⟩

end Deployment

end SocketRanking
