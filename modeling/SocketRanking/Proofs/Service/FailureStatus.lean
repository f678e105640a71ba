import SocketRanking.Proofs.Service.IdleResidency
import SocketRanking.Proofs.Service.Outages
import SocketRanking.Service.Api

/-!
# What failed calls say

A scoring call fails because the node is unknown or because the store failed for every
socket of it, and the idle query fails in the same two ways.  Whatever the store itself
reports is passed on as an outage, and faults of single rows stay with their socket.
The interface therefore answers these calls with a value, with "not found" or with
"unavailable", and never blames the request or the service itself.
-/

namespace SocketRanking

variable {σ α : Type} [Scalar α]

namespace Deployment

/-! ## Failures of a call -/

theorem scoreNode_of_unknown {d : Deployment σ α} {name : String}
    (hn : d.topology.node? name = none) (s : State σ α) :
    d.scoreNode name s = (.error (.failed (.unknownNode name)), s) := by
  have hrequire := Topology.requireNode_eq_error_iff.mpr ⟨hn, rfl⟩
  rw [scoreNode, hrequire]

theorem failsByOutage_scoreNode {d : Deployment σ α} {file : TopologyFile α}
    (haccepted : Topology.ofFile file = .ok d.topology) {s : State σ α}
    (hsource : (d.source s.store).NeverCrashes) {name : String} {n : Node}
    (hn : d.topology.node? name = some n) :
    ∃ made, (d.scoreNode name s).2.queries = s.queries ++ made ∧
      FailsByOutage (d.source s.store) n made (d.scoreNode name s).1 := by
  have hconsistent := Topology.isConsistent_of_ofFile haccepted
  have hrequire := Topology.requireNode_eq_ok_iff.mpr hn
  refine ⟨_, queries_scoreNode hconsistent hrequire s, ?_⟩
  rw [answer_scoreNode hconsistent hrequire]
  exact Basis.failsByOutage_conclude (b := s.basis.expire) hsource
    (hconsistent.nodup_sockets hn) (Topology.sockets_ne_nil_of_ofFile haccepted hn)

/-- The two ways in which a call for a node can fail. -/
def IsUnknownOrOutage (name : String) (t : Trouble) : Prop :=
  t = .failed (.unknownNode name) ∨ ∃ reason, t = .failed (.telemetryUnavailable reason)

theorem isUnknownOrOutage_scoreNode {d : Deployment σ α} {file : TopologyFile α}
    (haccepted : Topology.ofFile file = .ok d.topology) {s : State σ α}
    (hsource : (d.source s.store).NeverCrashes) {name : String} {t : Trouble}
    (ht : (d.scoreNode name s).1 = .error t) : IsUnknownOrOutage name t := by
  cases hn : d.topology.node? name with
  | none =>
      rw [scoreNode_of_unknown hn] at ht
      exact Or.inl (Except.error.inj ht).symm
  | some n =>
      obtain ⟨made, -, hfails⟩ := failsByOutage_scoreNode haccepted hsource hn
      obtain ⟨last, -, q, -, -, f, reason, -, -, hreason⟩ := hfails.from_last t ht
      exact Or.inr ⟨reason, hreason⟩

theorem score_fst (d : Deployment σ α) (name : String) (s : State σ α) :
    (d.score name s).1 = (d.scoreNode name s).1 := by
  unfold score
  rcases d.scoreNode name s with ⟨(e | text) | r, s'⟩ <;> rfl

/-! ## Statuses -/

/-- The statuses of responses about a node: its score or its idle capacity, a name that
does not decode, an unknown node, a method that is not served, and an outage. -/
def nodeStatuses : List Nat :=
  [200, 400, 404, 405, 503]

theorem IsUnknownOrOutage.status_mem {name : String} {t : Trouble}
    (ht : IsUnknownOrOutage name t) : t.response.status ∈ nodeStatuses := by
  rcases ht with rfl | ⟨reason, rfl⟩
  · change 404 ∈ nodeStatuses
    decide
  · change 503 ∈ nodeStatuses
    decide

theorem status_perform_score {d : Deployment σ Float} {file : TopologyFile Float}
    (haccepted : Topology.ofFile file = .ok d.topology) {s : State σ Float}
    (hsource : (d.source s.store).NeverCrashes) (r : Request) (coded : String) :
    (d.perform r s (.score coded)).1.status ∈ nodeStatuses := by
  rw [perform]
  cases Text.percentDecode? coded with
  | none =>
      change 400 ∈ nodeStatuses
      decide
  | some name =>
      dsimp only
      rcases hcall : d.score name s with ⟨t | result, s'⟩
      · have ht : (d.scoreNode name s).1 = .error t := by
          rw [← score_fst, hcall]
        exact (isUnknownOrOutage_scoreNode haccepted hsource ht).status_mem
      · change 200 ∈ nodeStatuses
        decide

theorem status_perform_showIdleCapacity {d : Deployment σ Float} {s : State σ Float}
    (hsource : (d.source s.store).NeverCrashes) (r : Request) (coded : String) :
    (d.perform r s (.showIdleCapacity coded)).1.status ∈ nodeStatuses := by
  rw [perform]
  cases Text.percentDecode? coded with
  | none =>
      change 400 ∈ nodeStatuses
      decide
  | some name =>
      dsimp only
      rcases hcall : d.idleCapacity name s with ⟨t | cores, s'⟩
      · have ht : IsUnknownOrOutage name t := idleCapacity_eq_error hsource (by rw [hcall])
        exact ht.status_mem
      · change 200 ∈ nodeStatuses
        decide

theorem status_handle {d : Deployment σ Float} {s : State σ Float} {r : Request}
    {endpoint : Endpoint} (hendpoint : Endpoint.ofPath? r.path = some endpoint)
    {statuses : List Nat} (hmethod : 405 ∈ statuses)
    (hperform : ∀ method operation, endpoint.operation? method = some operation →
      (d.perform r s operation).1.status ∈ statuses) :
    (d.handle r s).1.status ∈ statuses := by
  rw [handle, hendpoint]
  dsimp only
  split
  · exact hmethod
  next operation hoperation =>
    have hstatus := hperform _ operation hoperation
    split
    · exact hstatus
    · exact hstatus

theorem status_handle_node {d : Deployment σ Float} {file : TopologyFile Float}
    (haccepted : Topology.ofFile file = .ok d.topology) {s : State σ Float}
    (hsource : (d.source s.store).NeverCrashes) {r : Request} {coded : String}
    (hendpoint : Endpoint.ofPath? r.path = some (.score coded) ∨
      Endpoint.ofPath? r.path = some (.idleCapacity coded)) :
    (d.handle r s).1.status ∈ nodeStatuses := by
  have hmethod : 405 ∈ nodeStatuses := by decide
  rcases hendpoint with hendpoint | hendpoint
  · refine status_handle hendpoint hmethod ?_
    intro method operation hoperation
    obtain ⟨-, hsome⟩ := Option.ite_none_right_eq_some.mp hoperation
    obtain rfl := Option.some.inj hsome
    exact status_perform_score haccepted hsource r coded
  · refine status_handle hendpoint hmethod ?_
    intro method operation hoperation
    obtain ⟨-, hsome⟩ := Option.ite_none_right_eq_some.mp hoperation
    obtain rfl := Option.some.inj hsome
    exact status_perform_showIdleCapacity hsource r coded

/-! ## When scoring a node fails -/

/-- With a store that answers or fails every query, a scoring call fails as unknown
exactly for a node that is not in the topology, and then nothing has changed.  For a node
of the topology it fails exactly if a query about every socket failed, and then with an
outage that the last socket met.  The idle query fails with nothing else either, and the
interface answers both with a status that is neither 422 nor 500. -/
theorem scoring_fails_by_outage :
    (∀ {σ α : Type} [Scalar α] (d : Deployment σ α) {file : TopologyFile α},
      Topology.ofFile file = .ok d.topology →
      ∀ s : State σ α, (d.source s.store).NeverCrashes → ∀ name : String,
        ((d.scoreNode name s).1 = .error (.failed (.unknownNode name)) ↔
          d.topology.node? name = none) ∧
        (d.topology.node? name = none → (d.scoreNode name s).2 = s) ∧
        (∀ n, d.topology.node? name = some n →
          ∃ made, (d.scoreNode name s).2.queries = s.queries ++ made ∧
            FailsByOutage (d.source s.store) n made (d.scoreNode name s).1) ∧
        ∀ t, (d.idleCapacity name s).1 = .error t → IsUnknownOrOutage name t) ∧
    ∀ {σ : Type} (d : Deployment σ Float) {file : TopologyFile Float},
      Topology.ofFile file = .ok d.topology →
      ∀ s : State σ Float, (d.source s.store).NeverCrashes →
      ∀ (r : Request) (coded : String),
        Endpoint.ofPath? r.path = some (.score coded) ∨
          Endpoint.ofPath? r.path = some (.idleCapacity coded) →
        (d.handle r s).1.status ∈ nodeStatuses := by
  constructor
  · intro σ α _ d file haccepted s hsource name
    refine ⟨⟨?_, ?_⟩, ?_, ?_, ?_⟩
    · intro hunknown
      cases hn : d.topology.node? name with
      | none => rfl
      | some n =>
          obtain ⟨made, -, hfails⟩ := failsByOutage_scoreNode haccepted hsource hn
          obtain ⟨last, -, q, -, -, f, reason, -, -, hreason⟩ := hfails.from_last _ hunknown
          cases hreason
    · intro hn
      rw [scoreNode_of_unknown hn]
    · intro hn
      rw [scoreNode_of_unknown hn]
    · intro n hn
      exact failsByOutage_scoreNode haccepted hsource hn
    · intro t ht
      exact idleCapacity_eq_error hsource ht
  · intro σ d file haccepted s hsource r coded hendpoint
    exact status_handle_node haccepted hsource hendpoint

/-- A store that refuses every query in words of its own. -/
theorem scoring_fails_by_outage_bench :
    let s := bench.start 500 3 fun _ => .error (.failed (.noSamples .ipc))
    (bench.scoreNode "ghost" s).2 = s ∧
      (∃ made, (bench.scoreNode "bench" s).2.queries = s.queries ++ made ∧
        FailsByOutage (bench.source s.store) exactNode made (bench.scoreNode "bench" s).1) ∧
      (∃ t, (bench.idleCapacity "bench" s).1 = .error t ∧ IsUnknownOrOutage "bench" t) ∧
      (bench.handle ⟨"GET", "/api/v1/nodes/bench/score", none, ""⟩ s).1.status ∈
        nodeStatuses := by
  intro s
  have hsource : (bench.source s.store).NeverCrashes := by
    intro q text hcrashed
    cases hcrashed
  obtain ⟨hcalls, hstatus⟩ := scoring_fails_by_outage
  obtain ⟨-, hghost, -, -⟩ := hcalls bench Topology.ofFile_benchFile s hsource "ghost"
  obtain ⟨-, -, hbench, hidle⟩ := hcalls bench Topology.ofFile_benchFile s hsource "bench"
  refine ⟨hghost rfl, hbench exactNode rfl, ?_, ?_⟩
  · have ht : (bench.idleCapacity "bench" s).1 =
        .error (.failed (Call.unavailable (.noSamples .ipc))) := by
      change (bench.idleCapacity "bench" (bench.start 500 3 _)).1 = _
      rw [start_bench]
      decide +kernel
    exact ⟨_, ht, hidle _ ht⟩
  · have hpath : Request.path ⟨"GET", "/api/v1/nodes/bench/score", none, ""⟩ =
        "/api/v1/nodes/bench/score" := by
      decide +kernel
    have hendpoint : Endpoint.ofPath? "/api/v1/nodes/bench/score" = some (.score "bench") := by
      simp +decide [Endpoint.ofPath?, String.splitOn, String.splitOnAux]
    exact hstatus bench Topology.ofFile_benchFile s hsource _ "bench"
      (Or.inl (hpath ▸ hendpoint))

end Deployment

end SocketRanking
