import Mathlib.Algebra.BigOperators.Group.List.Basic
import SocketRanking.Proofs.Service.Basis
import SocketRanking.Proofs.Service.VisitCounters

/-!
# What moves the counters

Scoring a node moves the counters by what its visits count and by its verdict.  Nothing else
moves the counters of scoring, so that along a run they are the sums of what its calls moved.
Only idle capacity is asked of the store as well, and it counts the queries that fail.
-/

namespace SocketRanking

variable {σ α : Type}

/-! ## Adding up counters -/

namespace Activity

instance : Zero Activity :=
  ⟨{}⟩

theorem add_def (a b : Activity) : a + b =
    { nodesScored := a.nodesScored + b.nodesScored
      scoringFailures := a.scoringFailures + b.scoringFailures
      ineligibleSockets := a.ineligibleSockets + b.ineligibleSockets
      cacheHits := a.cacheHits + b.cacheHits
      cacheMisses := a.cacheMisses + b.cacheMisses
      cacheSweeps := a.cacheSweeps + b.cacheSweeps
      telemetryErrors := a.telemetryErrors + b.telemetryErrors
      placementsRecorded := a.placementsRecorded + b.placementsRecorded
      scoringLatencies := a.scoringLatencies + b.scoringLatencies
      queryLatencies := a.queryLatencies + b.queryLatencies } :=
  rfl

theorem zero_def : (0 : Activity) = {} :=
  rfl

instance : AddCommMonoid Activity where
  add_assoc a b c := by simp only [add_def, Nat.add_assoc]
  zero_add a := by simp only [add_def, zero_def, Nat.zero_add]
  add_zero a := by simp only [add_def, zero_def, Nat.add_zero]
  add_comm a b := by simp only [add_def, Nat.add_comm]
  nsmul := nsmulRec

/-- The counters that only scoring moves stand still. -/
structure IsAside (a : Activity) : Prop where
  nodesScored : a.nodesScored = 0
  scoringFailures : a.scoringFailures = 0
  ineligibleSockets : a.ineligibleSockets = 0
  cacheHits : a.cacheHits = 0
  cacheMisses : a.cacheMisses = 0

theorem isAside_zero : (0 : Activity).IsAside :=
  ⟨rfl, rfl, rfl, rfl, rfl⟩

theorem IsAside.add {a b : Activity} (ha : a.IsAside) (hb : b.IsAside) : (a + b).IsAside where
  nodesScored := by rw [add_def, ha.nodesScored, hb.nodesScored]
  scoringFailures := by rw [add_def, ha.scoringFailures, hb.scoringFailures]
  ineligibleSockets := by rw [add_def, ha.ineligibleSockets, hb.ineligibleSockets]
  cacheHits := by rw [add_def, ha.cacheHits, hb.cacheHits]
  cacheMisses := by rw [add_def, ha.cacheMisses, hb.cacheMisses]

end Activity

namespace Visit

def total (visits : List (Visit α)) : Activity :=
  (visits.map activity).sum

/-- A counter adds up over visits. -/
theorem counter_total (counter : Activity → ℕ) (hzero : counter 0 = 0)
    (hadd : ∀ a b, counter (a + b) = counter a + counter b) (visits : List (Visit α)) :
    counter (total visits) = (visits.map fun v => counter v.activity).sum := by
  induction visits with
  | nil => exact hzero
  | cons v rest ih =>
      rw [List.map_cons, List.sum_cons, ← ih, ← hadd]
      rfl

/-- A counter that visits move by one counts visits. -/
theorem sum_map_ite (p : Visit α → Bool) (visits : List (Visit α)) :
    (visits.map fun v => if p v then 1 else 0).sum = visits.countP p := by
  induction visits with
  | nil => rfl
  | cons v rest ih => rw [List.map_cons, List.sum_cons, ih, List.countP_cons, Nat.add_comm]

theorem cacheHits_total (visits : List (Visit α)) :
    (total visits).cacheHits = visits.countP (·.served) :=
  (counter_total Activity.cacheHits rfl (fun _ _ => rfl) visits).trans (sum_map_ite _ visits)

theorem cacheMisses_total (visits : List (Visit α)) :
    (total visits).cacheMisses = visits.countP (!·.served) := by
  rw [counter_total Activity.cacheMisses rfl fun _ _ => rfl, ← sum_map_ite]
  congr 1
  apply List.map_congr_left
  intro v _
  change (if v.served then 0 else 1) = if !v.served then 1 else 0
  by_cases hserved : v.served = true <;> simp [hserved]

theorem ineligibleSockets_total (visits : List (Visit α)) :
    (total visits).ineligibleSockets = visits.countP (·.failure?.isSome) :=
  (counter_total Activity.ineligibleSockets rfl (fun _ _ => rfl) visits).trans
    (sum_map_ite _ visits)

theorem telemetryErrors_total (visits : List (Visit α)) :
    (total visits).telemetryErrors = (visits.map fun v => v.calls.countP Call.isFailed).sum :=
  counter_total Activity.telemetryErrors rfl (fun _ _ => rfl) visits

theorem nodesScored_total (visits : List (Visit α)) : (total visits).nodesScored = 0 := by
  rw [counter_total Activity.nodesScored rfl fun _ _ => rfl]
  simp [activity, Call.activity]

theorem scoringFailures_total (visits : List (Visit α)) :
    (total visits).scoringFailures = 0 := by
  rw [counter_total Activity.scoringFailures rfl fun _ _ => rfl]
  simp [activity, Call.activity]

end Visit

namespace Deployment

variable {d : Deployment σ α} {s : State σ α}

/-! ## Asking the store -/

/-- From `s` to `s'` the store was asked, and nothing was counted but its answers. -/
def OnlyAsks (d : Deployment σ α) (s s' : State σ α) : Prop :=
  ∃ calls : List Call, s'.activity = s.activity + Call.activity calls ∧
    s'.queries = s.queries ++ calls.map (·.query) ∧ s'.store = s.store ∧
    ∀ c ∈ calls, c = .make (d.source s.store) c.query

namespace OnlyAsks

variable {s' s'' : State σ α}

theorem refl (d : Deployment σ α) (s : State σ α) : d.OnlyAsks s s :=
  ⟨[], (add_zero s.activity).symm, (List.append_nil s.queries).symm, rfl,
    List.forall_mem_nil _⟩

theorem trans (hfirst : d.OnlyAsks s s') (hsecond : d.OnlyAsks s' s'') :
    d.OnlyAsks s s'' := by
  obtain ⟨calls, hmoved, hasked, hstore, hmade⟩ := hfirst
  obtain ⟨calls', hmoved', hasked', hstore', hmade'⟩ := hsecond
  refine ⟨calls ++ calls', ?_, ?_, hstore'.trans hstore, ?_⟩
  · have happend : Call.activity (calls ++ calls') =
        Call.activity calls + Call.activity calls' := by
      rw [Call.activity, List.countP_append, List.countP_append]
      rfl
    rw [hmoved', hmoved, happend, add_assoc]
  · rw [hasked', hasked, List.map_append, List.append_assoc]
  · rw [hstore] at hmade'
    exact List.forall_mem_append.mpr ⟨hmade, hmade'⟩

end OnlyAsks

theorem recordCalls_onlyAsks {calls : List Call}
    (hmade : ∀ c ∈ calls, c = .make (d.source s.store) c.query) :
    d.OnlyAsks s ((d.recordCalls calls s).count (Call.activity calls)) :=
  ⟨calls, rfl, rfl, rfl, hmade⟩

end Deployment

variable [Scalar α]

namespace Deployment

variable {d : Deployment σ α} {s : State σ α}

/-! ## What scoring moves -/

/-- What the answer of a call counts. -/
def verdict : Except Trouble (ScoringResult α) → Activity
  | .ok _ => { nodesScored := 1, scoringLatencies := 1 }
  | .error (.failed _) => { scoringFailures := 1 }
  | .error (.crashed _) => 0

/-- How far scoring a node moves the counters. -/
def scoringActivity (d : Deployment σ α) (name : String) (s : State σ α) : Activity :=
  match d.topology.requireNode name with
  | .error _ => 0
  | .ok n =>
    { cacheSweeps := if s.cache.isExpired s.now then 1 else 0 } +
      Visit.total (d.visitAll n n.sockets (expire s)).1 + verdict (d.scoreNode name s).1

omit [Scalar α] in
theorem activity_recordVisit (d : Deployment σ α) (k : SocketKey) (v : Visit α)
    (s : State σ α) : (d.recordVisit k v s).activity = s.activity + v.activity := by
  unfold recordVisit
  cases v.learned <;> rfl

theorem activity_visitAll (d : Deployment σ α) (n : Node) (sockets : List Socket)
    (s : State σ α) :
    (d.visitAll n sockets s).2.activity =
      s.activity + Visit.total (d.visitAll n sockets s).1 := by
  induction sockets generalizing s with
  | nil => exact (add_zero s.activity).symm
  | cons socket rest ih =>
      rw [visitAll_cons]
      dsimp only
      split
      · rw [activity_recordVisit]
        exact congrArg _ (List.sum_singleton).symm
      · rw [ih, activity_recordVisit, add_assoc]
        exact congrArg _ (List.sum_cons).symm

theorem activity_expire (s : State σ α) : (expire s).activity =
    s.activity + { cacheSweeps := if s.cache.isExpired s.now then 1 else 0 } := by
  unfold expire
  by_cases hexpired : s.cache.isExpired s.now = true
  · rw [if_pos hexpired, if_pos hexpired]
    rfl
  · rw [if_neg hexpired, if_neg hexpired]
    exact (add_zero s.activity).symm

theorem activity_scoreNode (d : Deployment σ α) (name : String) (s : State σ α) :
    (d.scoreNode name s).2.activity = s.activity + d.scoringActivity name s := by
  unfold scoringActivity scoreNode
  cases d.topology.requireNode name with
  | error e => exact (add_zero s.activity).symm
  | ok n =>
      have hvisited := activity_visitAll d n n.sockets (expire s)
      rw [activity_expire] at hvisited
      dsimp only
      rw [← add_assoc, ← add_assoc, ← hvisited]
      cases crash? (d.visitAll n n.sockets (expire s)).1 with
      | some text => exact (add_zero _).symm
      | none =>
          cases outage? (d.visitAll n n.sockets (expire s)).1 with
          | some e => rfl
          | none => rfl

/-! ## Calls of a run -/

/-- A call that scores a node, and the state in which it is made. -/
structure ScoringCall (σ α : Type) where
  name : String
  state : State σ α

/-- How far a call moves the counters. -/
def ScoringCall.activity (d : Deployment σ α) (c : ScoringCall σ α) : Activity :=
  d.scoringActivity c.name c.state

/-- The calls that a ranking makes, one for each host. -/
def callsOfRanking (d : Deployment σ α) : List String → State σ α → List (ScoringCall σ α)
  | [], _ => []
  | host :: rest, s => ⟨host, s⟩ :: d.callsOfRanking rest (d.tally [host] s).2

def callsOfStep (d : Deployment σ α) (s : State σ α) : Step σ α → List (ScoringCall σ α)
  | .score name => [⟨name, s⟩]
  | .prioritize _ hosts => d.callsOfRanking hosts s
  | _ => []

def callsOfRun (d : Deployment σ α) : State σ α → List (Step σ α) → List (ScoringCall σ α)
  | _, [] => []
  | s, step :: rest => d.callsOfStep s step ++ d.callsOfRun (d.step s step).2 rest

/-- How far calls move the counters together. -/
def scoringTotal (d : Deployment σ α) (calls : List (ScoringCall σ α)) : Activity :=
  (calls.map (·.activity d)).sum

/-- The queries that the store fails when a step asks for idle capacity. -/
def idleErrorsOfStep (d : Deployment σ α) (s : State σ α) : Step σ α → ℕ
  | .idleCapacity name =>
      ((d.idleCapacity name s).2.queries.drop s.queries.length).countP (d.source s.store).fails
  | _ => 0

/-- The queries that the store fails when a run asks for idle capacity. -/
def idleErrorsOfRun (d : Deployment σ α) : State σ α → List (Step σ α) → ℕ
  | _, [] => 0
  | s, step :: rest => d.idleErrorsOfStep s step + d.idleErrorsOfRun (d.step s step).2 rest

/-- From `s` to `s'` the counters moved by what these calls moved and, aside from that, no
counter of scoring moved and the store failed so many other queries. -/
def MovesBy (d : Deployment σ α) (calls : List (ScoringCall σ α)) (errors : ℕ)
    (s s' : State σ α) : Prop :=
  ∃ aside : Activity, s'.activity = s.activity + d.scoringTotal calls + aside ∧
    aside.IsAside ∧ aside.telemetryErrors = errors

namespace MovesBy

variable {s' s'' : State σ α} {errors errors' : ℕ}

theorem of_calls {calls : List (ScoringCall σ α)}
    (hmoved : s'.activity = s.activity + d.scoringTotal calls) : d.MovesBy calls 0 s s' :=
  ⟨0, hmoved.trans (add_zero _).symm, Activity.isAside_zero, rfl⟩

theorem of_aside {aside : Activity} (hmoved : s'.activity = s.activity + aside)
    (haside : aside.IsAside) (herrors : aside.telemetryErrors = errors) :
    d.MovesBy [] errors s s' :=
  ⟨aside, hmoved, haside, herrors⟩

theorem of_activity_eq (hsame : s'.activity = s.activity) : d.MovesBy [] 0 s s' :=
  of_calls hsame

theorem trans {calls calls' : List (ScoringCall σ α)}
    (hfirst : d.MovesBy calls errors s s') (hsecond : d.MovesBy calls' errors' s' s'') :
    d.MovesBy (calls ++ calls') (errors + errors') s s'' := by
  obtain ⟨aside, hmoved, haside, rfl⟩ := hfirst
  obtain ⟨aside', hmoved', haside', rfl⟩ := hsecond
  refine ⟨aside + aside', ?_, haside.add haside', rfl⟩
  have hcalls : d.scoringTotal (calls ++ calls') =
      d.scoringTotal calls + d.scoringTotal calls' := by
    rw [scoringTotal, List.map_append, List.sum_append]
    rfl
  rw [hmoved', hmoved, hcalls]
  simp only [add_assoc, add_left_comm]

end MovesBy

theorem activity_tally (d : Deployment σ α) (hosts : List String) (s : State σ α) :
    (d.tally hosts s).2.activity =
      s.activity + d.scoringTotal (d.callsOfRanking hosts s) := by
  induction hosts generalizing s with
  | nil => exact (add_zero s.activity).symm
  | cons host rest ih =>
      have hcons : (d.tally (host :: rest) s).2 = (d.tally rest (d.tally [host] s).2).2 ∧
          (d.tally [host] s).2.activity = (d.scoreNode host s).2.activity := by
        simp only [tally]
        rcases d.scoreNode host s with ⟨trouble | r, s'⟩ <;> exact ⟨rfl, rfl⟩
      rw [hcons.1, ih, hcons.2, activity_scoreNode, add_assoc]
      exact congrArg _ (List.sum_cons).symm

/-! ## Idle capacity -/

/-- The errors that asking counts are the queries that the store fails. -/
theorem OnlyAsks.movesBy {s' : State σ α} (hasks : d.OnlyAsks s s') :
    d.MovesBy [] ((s'.queries.drop s.queries.length).countP (d.source s.store).fails) s s' := by
  obtain ⟨calls, hmoved, hasked, -, hmade⟩ := hasks
  refine .of_aside hmoved ⟨rfl, rfl, rfl, rfl, rfl⟩ ?_
  rw [hasked, List.drop_left, Call.countP_fails_queries hmade]
  rfl

theorem eq_make_of_mem_idleFraction {n : Node} {socket : Socket} :
    ∀ c ∈ (d.idleFraction n socket s).2, c = .make (d.source s.store) c.query := by
  intro c hc
  unfold idleFraction at hc
  split at hc
  · cases hc
  · rw [List.mem_singleton.mp hc]
    rfl

theorem idleOver_onlyAsks (d : Deployment σ α) (n : Node) (sockets : List Socket)
    (total : α) (failures : List Failure) (s : State σ α) :
    d.OnlyAsks s (d.idleOver n sockets total failures s).2 := by
  induction sockets generalizing total failures s with
  | nil => exact .refl d s
  | cons socket rest ih =>
      have hfirst := recordCalls_onlyAsks
        (eq_make_of_mem_idleFraction : ∀ c ∈ (d.idleFraction n socket s).2, _)
      rw [idleOver]
      rcases hfound : d.idleFraction n socket s with ⟨(failure | text) | c6, calls⟩ <;>
        rw [hfound] at hfirst
      · exact hfirst.trans (ih _ _ _)
      · exact hfirst
      · exact hfirst.trans (ih _ _ _)

theorem idleCapacity_onlyAsks (d : Deployment σ α) (name : String) (s : State σ α) :
    d.OnlyAsks s (d.idleCapacity name s).2 := by
  unfold idleCapacity
  cases d.topology.requireNode name with
  | error e => exact .refl d s
  | ok n =>
      have hidle := idleOver_onlyAsks d n n.sockets 0.0 [] s
      dsimp only
      rcases hover : d.idleOver n n.sockets 0.0 [] s with ⟨trouble | ⟨total, failures⟩, s'⟩
      · rw [hover] at hidle
        exact hidle
      · rw [hover] at hidle
        dsimp only
        split
        · split <;> exact hidle
        · exact hidle

/-! ## Steps and runs -/

theorem advance_movesBy (d : Deployment σ α) (millis : Nat) (s : State σ α) :
    d.MovesBy [] 0 s (advance millis s) := by
  unfold advance
  split
  · exact .of_aside rfl ⟨rfl, rfl, rfl, rfl, rfl⟩ rfl
  · exact .of_activity_eq rfl

/-- A step moves the counters of scoring by its calls only. -/
theorem step_movesBy (d : Deployment σ α) (s : State σ α) (step : Step σ α) :
    d.MovesBy (d.callsOfStep s step) (d.idleErrorsOfStep s step) s (d.step s step).2 := by
  cases step with
  | score name =>
      apply MovesBy.of_calls
      have hscored := activity_scoreNode d name s
      have htotal : d.scoringTotal (d.callsOfStep s (.score name)) = d.scoringActivity name s :=
        List.sum_singleton
      rw [htotal, ← hscored, Deployment.step, score]
      rcases d.scoreNode name s with ⟨(failure | text) | r, s'⟩ <;> rfl
  | prioritize workload hosts => exact .of_calls (activity_tally d hosts s)
  | idleCapacity name =>
      obtain ⟨aside, hmoved, haside, herrors⟩ := (idleCapacity_onlyAsks d name s).movesBy
      refine ⟨aside, hmoved.symm ▸ ?_, haside, herrors⟩
      rw [Deployment.step]
      rcases d.idleCapacity name s with ⟨trouble | cores, s'⟩ <;> rfl
  | recordPlacement p =>
      simp only [Deployment.step, recordPlacement]
      rcases d.resolve p with e | ⟨n, socket, profile⟩
      · exact .of_activity_eq rfl
      · exact .of_aside rfl ⟨rfl, rfl, rfl, rfl, rfl⟩ rfl
  | flushCache => exact .of_aside rfl ⟨rfl, rfl, rfl, rfl, rfl⟩ rfl
  | advance millis => exact advance_movesBy d millis s
  | startSweeper => exact advance_movesBy d 0 { s with sweeping := true }
  | showCache | updateCache k p idle | stopSweeper | setReady ready | showHealth
  | changeStore change => exact .of_activity_eq rfl

theorem run_movesBy (d : Deployment σ α) (s : State σ α) (steps : List (Step σ α)) :
    d.MovesBy (d.callsOfRun s steps) (d.idleErrorsOfRun s steps) s (d.run s steps).2 := by
  induction steps generalizing s with
  | nil => exact .of_activity_eq rfl
  | cons step rest ih => exact (step_movesBy d s step).trans (ih _)

end Deployment

end SocketRanking
