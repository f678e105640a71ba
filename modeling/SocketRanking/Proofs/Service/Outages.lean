import SocketRanking.Proofs.Scoring.Endings
import SocketRanking.Proofs.Service.Breakdown

/-!
# Outages

Visits of the sockets of a node fail one by one, and what they fail with is kept apart:
a call that scores the node fails only if every visit ended because the store failed,
and then with the failure of the last visit.  The idle query goes the same way.  So
nothing but an unknown node and an outage ever makes such a call fail.
-/

namespace SocketRanking

variable {σ α : Type} {source : Source}

/-- The call asked the store about sockets of the node only.  It failed exactly if some
query about each of them failed, and then with an outage that the last socket met. -/
structure FailsByOutage (source : Source) (n : Node) (made : List Query)
    (answer : Except Trouble (ScoringResult α)) : Prop where
  asked : ∀ q ∈ made, q.uuid = n.uuid ∧ ∃ socket ∈ n.sockets, q.socket = socket.id
  fails_iff : (∃ t, answer = .error t) ↔ ∀ socket ∈ n.sockets,
    ∃ q ∈ made, q.socket = socket.id ∧ ∃ f, source q = .error (.failed f)
  from_last : ∀ t, answer = .error t → ∃ last, n.sockets.getLast? = some last ∧
    ∃ q ∈ made, q.socket = last.id ∧ ∃ f reason, source q = .error (.failed f) ∧
      Call.unavailable f = .telemetryUnavailable reason ∧
      t = .failed (.telemetryUnavailable reason)

namespace Deployment

/-! ## Visits that end in outages -/

theorem outage?_concat (earlier : List (Visit α)) {v : Visit α} {e : Failure}
    (hearlier : ∀ w ∈ earlier, w.IsOutage) (hv : v.outcome = .error (.failed e))
    (htelemetry : e.isTelemetry = true) : outage? (earlier ++ [v]) = some e := by
  have hfailure : ∀ (w : Visit α) (e' : Failure), w.outcome = .error (.failed e') →
      e'.isTelemetry = true → w.failure?.filter Failure.isTelemetry = some e' := by
    intro w e' hw htelemetry'
    rw [Visit.failure?, hw]
    exact Option.filter_eq_some_iff.mpr ⟨rfl, htelemetry'⟩
  have hlast : storeFailures (earlier ++ [v]) = storeFailures earlier ++ [e] := by
    have hone : storeFailures [v] = [e] :=
      List.filterMap_cons_some (hfailure v e hv htelemetry)
    rw [← hone]
    exact List.filterMap_append
  have hlength : (storeFailures earlier).length = earlier.length := by
    refine List.filterMap_length_eq_length.mpr fun w hw => ?_
    obtain ⟨e', hw', htelemetry'⟩ := hearlier w hw
    rw [hfailure w e' hw' htelemetry']
    rfl
  rw [outage?, hlast, List.getLast?_concat]
  exact if_pos (by rw [List.length_append, List.length_append, hlength]; rfl)

/-- A call meets an outage exactly if every visit does, and reports the last one. -/
theorem outage?_eq_some_iff {visits : List (Visit α)} {e : Failure} :
    outage? visits = some e ↔ (∀ v ∈ visits, v.IsOutage) ∧
      ∃ v, visits.getLast? = some v ∧ v.outcome = .error (.failed e) := by
  constructor
  · intro houtage
    have hall : ∀ v ∈ visits, v.IsOutage := fun v hv => isTelemetry_of_outage? houtage hv
    refine ⟨hall, ?_⟩
    -- Failures are collected in the order of the visits; the last one is split off.
    rcases List.eq_nil_or_concat' visits with rfl | ⟨earlier, v, rfl⟩
    · cases houtage
    · obtain ⟨hearlier, hlast⟩ := List.forall_mem_append.mp hall
      obtain ⟨e', houtcome, htelemetry⟩ := hlast v (List.mem_singleton_self v)
      rw [outage?_concat earlier hearlier houtcome htelemetry] at houtage
      obtain rfl := Option.some.inj houtage
      exact ⟨v, List.getLast?_concat, houtcome⟩
  · rintro ⟨hall, v, hv, houtcome⟩
    obtain ⟨earlier, rfl⟩ := List.getLast?_eq_some_iff.mp hv
    obtain ⟨hearlier, hlast⟩ := List.forall_mem_append.mp hall
    obtain ⟨e', houtcome', htelemetry⟩ := hlast v (List.mem_singleton_self v)
    obtain rfl : e = e' := by simpa [houtcome] using houtcome'
    exact outage?_concat earlier hearlier houtcome htelemetry

theorem throughCrash_of_ends {visits : List (Visit α)} (hends : ∀ v ∈ visits, v.Ends source) :
    Visit.throughCrash visits = visits := by
  induction visits with
  | nil => rfl
  | cons v rest ih =>
      obtain ⟨hv, hrest⟩ := List.forall_mem_cons.mp hends
      rw [Visit.throughCrash]
      split
      next text hcrashed => exact absurd hcrashed (hv.ne_crashed text)
      next => rw [ih hrest]

theorem crash?_of_ends {visits : List (Visit α)} (hends : ∀ v ∈ visits, v.Ends source) :
    crash? visits = none := by
  rw [crash?, List.findSome?_eq_none_iff]
  intro v hv
  split
  next text hcrashed => exact absurd hcrashed ((hends v hv).ne_crashed text)
  next => rfl

end Deployment

variable [Scalar α] {d : Deployment σ α} {n : Node}

namespace Basis

variable {b : Basis σ α}

/-- The queries of a call that scores a node. -/
def queries (d : Deployment σ α) (b : Basis σ α) (n : Node) : List Query :=
  (b.visits d n).flatMap Visit.queries

theorem ends_of_mem_map_visit (hsource : (d.source b.store).NeverCrashes) :
    ∀ v ∈ n.sockets.map (b.visit d n), v.Ends (d.source b.store) := by
  intro v hv
  obtain ⟨socket, -, rfl⟩ := List.mem_map.mp hv
  exact Visit.ends_run hsource _

theorem visits_of_neverCrashes (hsource : (d.source b.store).NeverCrashes) :
    b.visits d n = n.sockets.map (b.visit d n) :=
  Deployment.throughCrash_of_ends (ends_of_mem_map_visit hsource)

theorem mem_queries_iff (hsource : (d.source b.store).NeverCrashes) {q : Query} :
    q ∈ b.queries d n ↔ ∃ socket ∈ n.sockets, q ∈ (b.visit d n socket).queries := by
  rw [queries, visits_of_neverCrashes hsource]
  simp

/-- A visit ends in an outage exactly if a query of the call about its socket failed. -/
theorem isOutage_visit_iff (hsource : (d.source b.store).NeverCrashes)
    (hnodup : (n.sockets.map Socket.id).Nodup) {socket : Socket} (hsocket : socket ∈ n.sockets) :
    (b.visit d n socket).IsOutage ↔ ∃ q ∈ b.queries d n, q.socket = socket.id ∧
      ∃ f, d.source b.store q = .error (.failed f) := by
  have hends : (b.visit d n socket).Ends (d.source b.store) := Visit.ends_run hsource _
  rw [hends.isOutage_iff]
  constructor
  · rintro ⟨q, hq, hfailed⟩
    have hmade := (mem_queries_iff hsource).mpr ⟨socket, hsocket, hq⟩
    exact ⟨q, hmade, (Visit.of_mem_queries_run hq).2, hfailed⟩
  · rintro ⟨q, hmade, hid, hfailed⟩
    obtain ⟨socket', hsocket', hq⟩ := (mem_queries_iff hsource).mp hmade
    -- Sockets are numbered apart, so the query tells which of them it was made for.
    have hsame : socket'.id = socket.id := (Visit.of_mem_queries_run hq).2.symm.trans hid
    obtain rfl := List.inj_on_of_nodup_map hnodup hsocket' hsocket hsame
    exact ⟨q, hq, hfailed⟩

theorem conclude_visits_eq_error_iff (hsource : (d.source b.store).NeverCrashes) {t : Trouble} :
    d.conclude n (b.visits d n) = .error t ↔
      (∀ socket ∈ n.sockets, (b.visit d n socket).IsOutage) ∧
        ∃ last e, n.sockets.getLast? = some last ∧
          (b.visit d n last).outcome = .error (.failed e) ∧ t = .failed e := by
  have hfails : d.conclude n (n.sockets.map (b.visit d n)) = .error t ↔
      ∃ e, Deployment.outage? (n.sockets.map (b.visit d n)) = some e ∧ t = .failed e := by
    rw [Deployment.conclude, Deployment.crash?_of_ends (ends_of_mem_map_visit hsource)]
    cases Deployment.outage? (n.sockets.map (b.visit d n)) <;> simp [eq_comm]
  rw [visits_of_neverCrashes hsource, hfails]
  simp only [Deployment.outage?_eq_some_iff, List.forall_mem_map, List.getLast?_map,
    Option.map_eq_some_iff]
  constructor
  · rintro ⟨e, ⟨hall, -, ⟨last, hlast, rfl⟩, houtcome⟩, ht⟩
    exact ⟨hall, last, e, hlast, houtcome, ht⟩
  · rintro ⟨hall, last, e, hlast, houtcome, ht⟩
    exact ⟨e, ⟨hall, _, ⟨last, hlast, rfl⟩, houtcome⟩, ht⟩

theorem failsByOutage_conclude (hsource : (d.source b.store).NeverCrashes)
    (hnodup : (n.sockets.map Socket.id).Nodup) (hsockets : n.sockets ≠ []) :
    FailsByOutage (d.source b.store) n (b.queries d n) (d.conclude n (b.visits d n)) where
  asked := by
    intro q hq
    obtain ⟨socket, hsocket, hq⟩ := (mem_queries_iff hsource).mp hq
    obtain ⟨huuid, hid⟩ := Visit.of_mem_queries_run hq
    exact ⟨huuid, socket, hsocket, hid⟩
  fails_iff := by
    simp only [conclude_visits_eq_error_iff hsource]
    constructor
    · rintro ⟨t, hall, -⟩ socket hsocket
      exact (isOutage_visit_iff hsource hnodup hsocket).mp (hall socket hsocket)
    · intro hfailed
      have hall : ∀ socket ∈ n.sockets, (b.visit d n socket).IsOutage := by
        intro socket hsocket
        exact (isOutage_visit_iff hsource hnodup hsocket).mpr (hfailed socket hsocket)
      obtain ⟨e, houtcome, -⟩ := hall _ (List.getLast_mem hsockets)
      exact ⟨.failed e, hall, _, e, List.getLast?_eq_some_getLast hsockets, houtcome, rfl⟩
  from_last := by
    intro t ht
    obtain ⟨hall, last, e, hlast, houtcome, rfl⟩ := (conclude_visits_eq_error_iff hsource).mp ht
    have hsocket : last ∈ n.sockets := List.mem_of_getLast? hlast
    have hends : (b.visit d n last).Ends (d.source b.store) := Visit.ends_run hsource _
    refine ⟨last, hlast, ?_⟩
    cases hends with
    | @outage q hq f hfailed hunavailable =>
        obtain ⟨reason, hreason⟩ := Failure.isTelemetry_iff.mp (Call.isTelemetry_unavailable f)
        rw [houtcome, hreason] at hunavailable
        exact ⟨q, (mem_queries_iff hsource).mpr ⟨last, hsocket, hq⟩,
          (Visit.of_mem_queries_run hq).2, f, reason, hfailed, hreason,
          Except.error.inj hunavailable⟩
    | @answered hrows x hspares hx =>
        -- The visit is an outage like all others, so the store has failed it.
        obtain ⟨e', houtcome', htelemetry⟩ := hall last hsocket
        rw [hx] at houtcome'
        rw [hspares.isTelemetry_of_unusable houtcome'] at htelemetry
        cases htelemetry

end Basis

namespace Deployment

variable {s : State σ α}

/-! ## Queries of a call -/

omit [Scalar α] in
theorem queries_recordVisit (d : Deployment σ α) (k : SocketKey) (v : Visit α)
    (s : State σ α) : (d.recordVisit k v s).queries = s.queries ++ v.queries := by
  unfold recordVisit
  cases v.learned <;> rfl

theorem queries_visitAll (d : Deployment σ α) (n : Node) (sockets : List Socket)
    (s : State σ α) :
    (d.visitAll n sockets s).2.queries =
      s.queries ++ (d.visitAll n sockets s).1.flatMap Visit.queries := by
  induction sockets generalizing s with
  | nil => exact (List.append_nil _).symm
  | cons socket rest ih =>
      rw [visitAll_cons]
      dsimp only
      split
      · rw [queries_recordVisit, List.flatMap_singleton]
      · rw [ih, queries_recordVisit, List.flatMap_cons, List.append_assoc]

theorem queries_scoreNode (hconsistent : d.topology.IsConsistent) {name : String}
    (hn : d.topology.requireNode name = .ok n) (s : State σ α) :
    (d.scoreNode name s).2.queries = s.queries ++ s.basis.expire.queries d n := by
  have hsockets := hconsistent.nodup_sockets (Topology.requireNode_eq_ok_iff.mp hn)
  have hvisits : (d.visitAll n n.sockets (expire s)).1 = s.basis.expire.visits d n := by
    rw [(visitAll_basis d n hsockets (expire s)).1, basis_expire]
    rfl
  have hexpire : (expire s).queries = s.queries := by
    unfold expire
    split <;> rfl
  have hmade := queries_visitAll d n n.sockets (expire s)
  rw [hvisits, hexpire] at hmade
  rw [Basis.queries, ← hmade, scoreNode, hn]
  dsimp only
  split
  · rfl
  · split <;> rfl

/-! ## The idle query -/

theorem idleFraction_ne_crashed (hsource : (d.source s.store).NeverCrashes) (socket : Socket)
    (text : String) : (d.idleFraction n socket s).1 ≠ .error (.crashed text) := by
  intro hcrashed
  unfold idleFraction at hcrashed
  split at hcrashed
  · cases hcrashed
  · have hends : (measureIdle d.settings (d.source s.store) n.uuid socket :
        Measurement α).Ends (d.source s.store) := ends_measureIdle hsource
    exact hends.ne_crashed text hcrashed

/-- The query goes through all sockets and collects nothing but outages. -/
theorem exists_idleOver_eq_ok (hsource : (d.source s.store).NeverCrashes)
    (sockets : List Socket) (total : α) {failures : List Failure}
    (hfailures : ∀ e ∈ failures, e.isTelemetry = true) :
    ∃ total' failures', (d.idleOver n sockets total failures s).1 = .ok (total', failures') ∧
      ∀ e ∈ failures', e.isTelemetry = true := by
  induction sockets generalizing total failures s with
  | nil => exact ⟨total, failures, rfl, hfailures⟩
  | cons socket rest ih =>
      rw [idleOver]
      rcases hcall : d.idleFraction n socket s with ⟨(e | text) | c6, calls⟩
      · refine ih (s := (d.recordCalls calls s).count (Call.activity calls)) hsource total ?_
        split
        next htelemetry =>
          refine List.forall_mem_append.mpr ⟨hfailures, ?_⟩
          intro e' he'
          rw [List.mem_singleton.mp he']
          exact htelemetry
        next => exact hfailures
      · have hcrashed := idleFraction_ne_crashed (n := n) hsource socket text
        rw [hcall] at hcrashed
        exact absurd rfl hcrashed
      · exact ih (s := (d.recordCalls calls s).count (Call.activity calls)) hsource _ hfailures

theorem idleCapacity_eq_error {name : String} (hsource : (d.source s.store).NeverCrashes)
    {t : Trouble} (ht : (d.idleCapacity name s).1 = .error t) :
    t = .failed (.unknownNode name) ∨ ∃ reason, t = .failed (.telemetryUnavailable reason) := by
  unfold idleCapacity at ht
  cases hn : d.topology.requireNode name with
  | error e =>
      rw [hn] at ht
      obtain ⟨-, rfl⟩ := Topology.requireNode_eq_error_iff.mp hn
      exact Or.inl (Except.error.inj ht).symm
  | ok n =>
      have hnone : ∀ e ∈ ([] : List Failure), e.isTelemetry = true := by simp
      obtain ⟨total, failures, hover, hfailures⟩ :=
        exists_idleOver_eq_ok (n := n) hsource n.sockets 0.0 hnone
      rw [hn] at ht
      dsimp only at ht
      rcases hcall : d.idleOver n n.sockets 0.0 [] s with ⟨outcome, s'⟩
      rw [hcall] at hover ht
      obtain rfl := hover
      dsimp only at ht
      split at ht
      next e he =>
        split at ht
        · obtain ⟨reason, rfl⟩ :=
            Failure.isTelemetry_iff.mp (hfailures e (List.mem_of_getLast? he))
          exact Or.inr ⟨reason, (Except.error.inj ht).symm⟩
        · cases ht
      next => cases ht

end Deployment

end SocketRanking
