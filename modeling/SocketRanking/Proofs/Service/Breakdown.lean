import SocketRanking.Proofs.Scoring.Gate
import SocketRanking.Proofs.Scoring.Outcome
import SocketRanking.Proofs.Service.Refresh

/-!
# The breakdown of a call

A call that succeeds has visited every socket of its node.  Its result then has
one line for each socket: what the visit came to, with the gated score entered,
or an ineligible line.  This module reads results socket by socket and visits
off the state in which the call was made.
-/

namespace SocketRanking

variable {σ α : Type} [Scalar α]

/-! ## Lines of visits -/

namespace Visit

/-- The line of a visited socket before the gate. -/
def line (socket : Socket) (v : Visit α) : SocketScore α :=
  match v.outcome with
  | .ok score => score
  | .error _ => .ineligible socket

theorem line_of_outcome {v : Visit α} {score : SocketScore α} (hscore : v.outcome = .ok score)
    (socket : Socket) : v.line socket = score := by
  rw [line, hscore]

end Visit

namespace Basis

variable {d : Deployment σ α} {b : Basis σ α} {n : Node} {socket : Socket}

/-- An eligible line is that of a socket that was measured. -/
theorem exists_measured_of_eligible
    (heligible : ((b.visit d n socket).line socket).eligible = true) :
    ∃ base c6, (b.visit d n socket).outcome = .ok (.measured socket base c6) ∧
      Visit.IdleFrom d.settings (d.source b.store) n.uuid socket
        (b.cache.get (n.key socket)) c6 (b.visit d n socket).learned := by
  cases houtcome : (b.visit d n socket).outcome with
  | error trouble =>
      simp only [Visit.line, houtcome] at heligible
      cases heligible
  | ok score =>
      obtain ⟨metrics, base, c6, rfl, -, -, hfrom⟩ := Visit.exists_of_outcome_run houtcome
      exact ⟨base, c6, rfl, hfrom⟩

/-- A line carries the number of its socket and counts the cores on it. -/
theorem socket_line (d : Deployment σ α) (b : Basis σ α) (n : Node) (socket : Socket) :
    ((b.visit d n socket).line socket).socket = socket.id ∧
      ((b.visit d n socket).line socket).cores = socket.coreCount := by
  cases houtcome : (b.visit d n socket).outcome with
  | error trouble =>
      simp only [Visit.line, houtcome]
      exact ⟨rfl, rfl⟩
  | ok score =>
      obtain ⟨metrics, base, c6, rfl, -⟩ := Visit.exists_of_outcome_run houtcome
      rw [Visit.line_of_outcome houtcome]
      exact ⟨rfl, rfl⟩

end Basis

namespace Deployment

variable {d : Deployment σ α} {n : Node} {r : ScoringResult α}

omit [Scalar α] in
/-- Without a breakdown every socket has been visited. -/
theorem throughCrash_eq_self {visits : List (Visit α)}
    (hcrash : crash? (Visit.throughCrash visits) = none) :
    Visit.throughCrash visits = visits := by
  induction visits with
  | nil => rfl
  | cons v rest ih =>
      rw [Visit.throughCrash] at hcrash ⊢
      split at hcrash
      next text htext => simp [crash?, htext] at hcrash
      next hsound =>
        rw [crash?, List.findSome?_cons] at hcrash
        split at hcrash
        · cases hcrash
        · rw [ih hcrash]

theorem breakdown_map (f : Socket → Visit α) (sockets : List Socket) :
    breakdown sockets (sockets.map f) = sockets.map fun socket => (f socket).line socket := by
  induction sockets with
  | nil => rfl
  | cons socket rest ih =>
      rw [List.map_cons, List.map_cons, breakdown, ih]
      rfl

/-- A call that succeeds reports every socket. -/
theorem eq_result_of_conclude_eq_ok {f : Socket → Visit α}
    (hr : d.conclude n (Visit.throughCrash (n.sockets.map f)) = .ok r) :
    r = d.result n (n.sockets.map fun socket => (f socket).line socket) := by
  unfold conclude at hr
  cases hcrash : crash? (Visit.throughCrash (n.sockets.map f)) with
  | some text =>
      rw [hcrash] at hr
      cases hr
  | none =>
      rw [hcrash, throughCrash_eq_self hcrash, breakdown_map] at hr
      dsimp only at hr
      split at hr
      · cases hr
      · exact (Except.ok.inj hr).symm

omit [Scalar α] in
/-- The store fails a call only if it failed every visit. -/
theorem isTelemetry_of_outage? {visits : List (Visit α)} {e : Failure}
    (houtage : outage? visits = some e) {v : Visit α} (hv : v ∈ visits) :
    ∃ e', v.outcome = .error (.failed e') ∧ e'.isTelemetry = true := by
  unfold outage? at houtage
  dsimp only at houtage
  split at houtage
  next hall =>
    have hfailed := List.filterMap_length_eq_length.mp hall v hv
    obtain ⟨e', he'⟩ := Option.isSome_iff_exists.mp hfailed
    obtain ⟨hfailure, htelemetry⟩ := Option.filter_eq_some_iff.mp he'
    refine ⟨e', ?_, htelemetry⟩
    unfold Visit.failure? at hfailure
    split at hfailure
    next e'' houtcome =>
      obtain rfl := Option.some.inj hfailure
      exact houtcome
    next => cases hfailure
  next => cases houtage

/-- The answer of a call follows from the visits that it makes. -/
theorem answer_scoreNode (hconsistent : d.topology.IsConsistent) {name : String}
    (hn : d.topology.requireNode name = .ok n) (s : State σ α) :
    (d.scoreNode name s).1 = d.conclude n (s.basis.expire.visits d n) := by
  rw [(scoreNode_basis hconsistent name s).1, Basis.score, hn]

/-- The result of scoring a node, visit by visit. -/
theorem eq_result_of_scoreNode_eq_ok (hconsistent : d.topology.IsConsistent)
    {name : String} {s : State σ α} (hr : (d.scoreNode name s).1 = .ok r) :
    ∃ n, d.topology.requireNode name = .ok n ∧
      r = d.result n (n.sockets.map fun socket =>
        (s.basis.expire.visit d n socket).line socket) := by
  rw [(scoreNode_basis hconsistent name s).1, Basis.score_outcome] at hr
  unfold Basis.outcome at hr
  cases hn : d.topology.requireNode name with
  | error e =>
      rw [hn] at hr
      cases hr
  | ok n =>
      rw [hn] at hr
      exact ⟨n, rfl, eq_result_of_conclude_eq_ok hr⟩

/-- The line of a socket in the result of a call. -/
theorem exists_mem_sockets_of_scoreNode (hconsistent : d.topology.IsConsistent)
    {name : String} {s : State σ α} (hn : d.topology.requireNode name = .ok n)
    (hr : (d.scoreNode name s).1 = .ok r) {socket : Socket} (hsocket : socket ∈ n.sockets) :
    ∃ spare, ((s.basis.expire.visit d n socket).line socket).gate spare ∈ r.sockets := by
  obtain ⟨n', hn', rfl⟩ := eq_result_of_scoreNode_eq_ok hconsistent hr
  obtain rfl := Except.ok.inj (hn.symm.trans hn')
  exact d.settings.idleGate.exists_gate_mem_apply (List.mem_map_of_mem hsocket)

/-- Every line in the result of a call is the line of a socket. -/
theorem exists_of_mem_sockets_of_scoreNode (hconsistent : d.topology.IsConsistent)
    {name : String} {s : State σ α} (hr : (d.scoreNode name s).1 = .ok r)
    {score : SocketScore α} (hscore : score ∈ r.sockets) :
    ∃ n, d.topology.requireNode name = .ok n ∧ ∃ socket ∈ n.sockets, ∃ spare,
      score = ((s.basis.expire.visit d n socket).line socket).gate spare := by
  obtain ⟨n, hn, rfl⟩ := eq_result_of_scoreNode_eq_ok hconsistent hr
  obtain ⟨line, hline, spare, rfl⟩ := IdleGate.exists_gate_of_mem_apply hscore
  obtain ⟨socket, hsocket, rfl⟩ := List.mem_map.mp hline
  exact ⟨n, hn, socket, hsocket, spare, rfl⟩

end Deployment

end SocketRanking
