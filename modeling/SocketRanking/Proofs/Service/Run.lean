import SocketRanking.Proofs.Service.Basis

/-!
# Runs on what scoring rests on

Every step of the service moves the basis of its state as `Basis.step` says, and
the answers to scoring and ranking are read off the basis as `Basis.answer?`
says.  An invariant of the basis that one step keeps is therefore an invariant
of every run, and what a run answers at a place is what its last step answers in
the state that the steps before it have led to.
-/

namespace SocketRanking

variable {σ α : Type}

/-- Whether a step writes into the cache past scoring and placement. -/
def Step.isDirectWrite : Step σ α → Bool
  | .updateCache .. => true
  | _ => false

namespace Tally

/-- Scored hosts and failed hosts among outcomes. -/
def ofOutcomes : List (String × Except Trouble (ScoringResult α)) → Tally α
  | [] => {}
  | (_, .ok r) :: rest =>
    { ofOutcomes rest with priorities := .ofResult r :: (ofOutcomes rest).priorities }
  | (host, .error trouble) :: rest =>
    { ofOutcomes rest with failures := trouble.hostFailure host :: (ofOutcomes rest).failures }

end Tally

/-- The answer to a request to score a node. -/
def Answer.ofOutcome : Except Trouble (ScoringResult α) → Answer α
  | .ok r => .scored r
  | .error t => .trouble t

variable [Scalar α]

/-- The answer to a request to rank hosts with these outcomes. -/
def Answer.ofOutcomes (workload : Workload)
    (outcomes : List (String × Except Trouble (ScoringResult α))) : Answer α :=
  .ranked (.ofTally workload.name (.ofOutcomes outcomes))

namespace Basis

/-- Scores hosts one after the other. -/
def scoreAll (d : Deployment σ α) :
    Basis σ α → List String → List (String × Except Trouble (ScoringResult α)) × Basis σ α
  | b, [] => ([], b)
  | b, host :: rest =>
    ((host, (b.score d host).1) :: ((b.score d host).2.scoreAll d rest).1,
      ((b.score d host).2.scoreAll d rest).2)

/-- What scoring a host keeps, ranking hosts keeps, and outcomes that it settles
are the outcomes of the ranking. -/
theorem scoreAll_induction {d : Deployment σ α} {P : Basis σ α → Prop}
    {f : String → Except Trouble (ScoringResult α)}
    (hscore : ∀ b host, P b → (b.score d host).1 = f host ∧ P (b.score d host).2)
    (hosts : List String) {b : Basis σ α} (hb : P b) :
    (b.scoreAll d hosts).1 = hosts.map (fun host => (host, f host)) ∧
      P (b.scoreAll d hosts).2 := by
  induction hosts generalizing b with
  | nil => exact ⟨rfl, hb⟩
  | cons host rest ih =>
      obtain ⟨houtcome, hkept⟩ := hscore b host hb
      obtain ⟨ihoutcomes, ihkept⟩ := ih hkept
      rw [scoreAll, houtcome, ihoutcomes]
      exact ⟨rfl, ihkept⟩

/-- Lets the sweeper act, if it runs, while the clock moves on. -/
def advance (millis : Nat) (b : Basis σ α) : Basis σ α :=
  if b.sweeping then
    { b with
      cache := (b.cache.sweepUntil b.now (b.now + millis) 0).1
      now := b.now + millis }
  else { b with now := b.now + millis }

/-- When time passes, either nothing else happens or the sweeper has acted, the
deadline having come. -/
theorem advance_cases (b : Basis σ α) (millis : Nat) :
    b.advance millis = { b with now := b.now + millis } ∨
      ∃ cache : Cache α, b.advance millis = { b with cache, now := b.now + millis } ∧
        cache.IsBlank ∧ cache.ttl = b.cache.ttl ∧
          b.cache.deadline ≤ b.now + millis := by
  unfold advance
  split
  · by_cases hwake : b.cache.nextWake b.now ≤ b.now + millis
    · exact Or.inr ⟨_, rfl, Cache.isBlank_sweepUntil hwake 0, Cache.ttl_sweepUntil _ _ _ _,
        (le_max_right _ _).trans hwake⟩
    · rw [Cache.sweepUntil_of_lt (Nat.not_le.mp hwake)]
      exact Or.inl rfl
  · exact Or.inl rfl

/-- Enters a placement that resolves. -/
def place (d : Deployment σ α) (p : Placement) (b : Basis σ α) : Basis σ α :=
  match d.resolve p with
  | .error _ => b
  | .ok (n, socket, profile) =>
    { b with cache := b.cache.place (n.key socket) profile socket.coreCount p.countsTowardIdle }

/-- What a step makes of what scoring rests on. -/
def step (d : Deployment σ α) (b : Basis σ α) : Step σ α → Basis σ α
  | .score name => (b.score d name).2
  | .prioritize _ hosts => (b.scoreAll d hosts).2
  | .recordPlacement p => b.place d p
  | .flushCache => { b with cache := b.cache.clean }
  | .updateCache k p idle => { b with cache := b.cache.update k (.measured p idle) b.now }
  | .advance millis => b.advance millis
  | .startSweeper => advance 0 { b with sweeping := true }
  | .stopSweeper => { b with sweeping := false }
  | .changeStore change => { b with store := change b.store }
  | .idleCapacity _ => b
  | .showCache => b
  | .setReady _ => b
  | .showHealth => b

/-- The answer to a step that scores. -/
def answer? (d : Deployment σ α) (b : Basis σ α) : Step σ α → Option (Answer α)
  | .score name => some (.ofOutcome (b.score d name).1)
  | .prioritize workload hosts => some (.ofOutcomes workload (b.scoreAll d hosts).1)
  | _ => none

end Basis

namespace Deployment

theorem tally_basis {d : Deployment σ α} (hconsistent : d.topology.IsConsistent)
    (hosts : List String) (s : State σ α) :
    (d.tally hosts s).1 = .ofOutcomes (s.basis.scoreAll d hosts).1 ∧
      (d.tally hosts s).2.basis = (s.basis.scoreAll d hosts).2 := by
  induction hosts generalizing s with
  | nil => exact ⟨rfl, rfl⟩
  | cons host rest ih =>
      obtain ⟨houtcome, hbasis⟩ := scoreNode_basis hconsistent host s
      rw [tally, Basis.scoreAll, ← houtcome, ← hbasis]
      rcases d.scoreNode host s with ⟨trouble | r, s'⟩
      · obtain ⟨ihtally, ihbasis⟩ := ih (s'.report (.scoringFailed host trouble.reason))
        exact ⟨by simp only [ihtally]; rfl, ihbasis⟩
      · obtain ⟨ihtally, ihbasis⟩ := ih (s'.report (.ofResult r))
        exact ⟨by simp only [ihtally]; rfl, ihbasis⟩

theorem basis_idleOver (d : Deployment σ α) (n : Node) (sockets : List Socket)
    (total : α) (failures : List Failure) (s : State σ α) :
    (d.idleOver n sockets total failures s).2.basis = s.basis := by
  induction sockets generalizing total failures s with
  | nil => rfl
  | cons socket rest ih =>
      rw [idleOver]
      rcases d.idleFraction n socket s with ⟨(failure | text) | c6, calls⟩
      · exact ih _ _ _
      · rfl
      · exact ih _ _ _

theorem basis_idleCapacity (d : Deployment σ α) (name : String) (s : State σ α) :
    (d.idleCapacity name s).2.basis = s.basis := by
  unfold idleCapacity
  cases d.topology.requireNode name with
  | error e => rfl
  | ok n =>
      have hidle := basis_idleOver d n n.sockets 0.0 [] s
      dsimp only
      rcases hover : d.idleOver n n.sockets 0.0 [] s with ⟨trouble | ⟨total, failures⟩, s'⟩
      · rw [hover] at hidle
        exact hidle
      · rw [hover] at hidle
        dsimp only
        split
        · split <;> exact hidle
        · exact hidle

theorem basis_recordPlacement (d : Deployment σ α) (p : Placement) (s : State σ α) :
    (d.recordPlacement p s).2.basis = s.basis.place d p := by
  unfold recordPlacement Basis.place
  rcases d.resolve p with e | ⟨n, socket, profile⟩ <;> rfl

theorem basis_advance (millis : Nat) (s : State σ α) :
    (advance millis s).basis = s.basis.advance millis := by
  unfold advance Basis.advance
  by_cases hsweeping : s.sweeping = true
  · simp [State.basis, State.count, hsweeping]
  · simp [State.basis, hsweeping]

theorem basis_step_score (d : Deployment σ α) (name : String) (s : State σ α) :
    (d.step s (.score name)).2.basis = (d.scoreNode name s).2.basis := by
  rw [Deployment.step, score]
  rcases d.scoreNode name s with ⟨(failure | text) | r, s'⟩ <;> rfl

theorem basis_step {d : Deployment σ α} (hconsistent : d.topology.IsConsistent)
    (s : State σ α) (step : Step σ α) :
    (d.step s step).2.basis = s.basis.step d step := by
  cases step with
  | score name =>
      exact (basis_step_score d name s).trans (scoreNode_basis hconsistent name s).2
  | prioritize workload hosts => exact (tally_basis hconsistent hosts s).2
  | idleCapacity name =>
      rw [Basis.step, ← basis_idleCapacity d name s, Deployment.step]
      rcases d.idleCapacity name s with ⟨trouble | cores, s'⟩ <;> rfl
  | recordPlacement p =>
      rw [Basis.step, ← basis_recordPlacement d p s, Deployment.step]
      rcases d.recordPlacement p s with ⟨e | ⟨⟩, s'⟩ <;> rfl
  | flushCache => rfl
  | showCache => rfl
  | updateCache k p idle => rfl
  | advance millis => exact basis_advance millis s
  | startSweeper => exact basis_advance 0 { s with sweeping := true }
  | stopSweeper => rfl
  | setReady ready => rfl
  | showHealth => rfl
  | changeStore change => rfl

/-- A step that scores answers what its basis says. -/
theorem step_answer {d : Deployment σ α} (hconsistent : d.topology.IsConsistent)
    {s : State σ α} {step : Step σ α} {answer : Answer α}
    (hanswer : s.basis.answer? d step = some answer) : (d.step s step).1 = answer := by
  cases step with
  | score name =>
      obtain rfl := Option.some.inj hanswer
      rw [← (scoreNode_basis hconsistent name s).1, Deployment.step, score]
      rcases d.scoreNode name s with ⟨(failure | text) | r, s'⟩ <;> rfl
  | prioritize workload hosts =>
      obtain rfl := Option.some.inj hanswer
      rw [Answer.ofOutcomes, ← (tally_basis hconsistent hosts s).1]
      rfl
  | _ => cases hanswer

/-! ## Runs -/

theorem basis_run {d : Deployment σ α} (hconsistent : d.topology.IsConsistent)
    (s : State σ α) (steps : List (Step σ α)) :
    (d.run s steps).2.basis = steps.foldl (Basis.step d) s.basis := by
  induction steps generalizing s with
  | nil => rfl
  | cons step rest ih =>
      rw [run, List.foldl_cons, ← basis_step hconsistent]
      exact ih _

/-- What every step of a run keeps, the run keeps. -/
theorem basis_run_induction {d : Deployment σ α}
    (hconsistent : d.topology.IsConsistent) {P : Basis σ α → Prop}
    {steps : List (Step σ α)} {s : State σ α} (hstart : P s.basis)
    (hstep : ∀ b, ∀ step ∈ steps, P b → P (b.step d step)) :
    P (d.run s steps).2.basis := by
  rw [basis_run hconsistent]
  generalize s.basis = b at hstart ⊢
  induction steps generalizing b with
  | nil => exact hstart
  | cons step rest ih =>
      exact ih (fun b step hmem => hstep b step (List.mem_cons_of_mem _ hmem)) _
        (hstep b step List.mem_cons_self hstart)

/-- What a run answers at a place is what the step there answers after the steps
before it. -/
theorem run_answer (d : Deployment σ α) (s : State σ α) (steps : List (Step σ α))
    (i : Nat) :
    (d.run s steps).1[i]? =
      steps[i]?.map fun step => (d.step (d.run s (steps.take i)).2 step).1 := by
  induction steps generalizing s i with
  | nil => rfl
  | cons step rest ih =>
      cases i with
      | zero => rfl
      | succ i => exact ih (d.step s step).2 i

end Deployment

end SocketRanking
