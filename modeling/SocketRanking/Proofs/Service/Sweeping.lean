import SocketRanking.Proofs.Service.Run

/-!
# The sweeper does not change scoring

A run with a background sweeper and the same run without one really differ in
their caches and their timers: the sweeper empties the cache at the deadline,
while without it stale entries stay until a scoring call looks at the timer, and
placements may change them in the meantime.  The difference never reaches an
answer.  The two caches hold the same entries under the same timer, or the swept
one is empty and the other is empty or expired, and then a scoring call empties it
before it reads an entry.
-/

namespace SocketRanking

variable {σ α : Type}

namespace Step

/-- Whether a step starts or stops the sweeper. -/
def isSweeper : Step σ α → Bool
  | .startSweeper => true
  | .stopSweeper => true
  | _ => false

/-- Whether a step scores nodes. -/
def isScoring : Step σ α → Bool
  | .score _ => true
  | .prioritize .. => true
  | _ => false

end Step

variable [Scalar α]

/-! ## Agreement up to sweeps -/

namespace Basis

/-- Two bases, the second without a sweeper, that differ at most by sweeps that
the second has still to make up for. -/
structure AgreesUpToSweeps (a b : Basis σ α) : Prop where
  store : a.store = b.store
  now : a.now = b.now
  ttl : a.cache.ttl = b.cache.ttl
  off : b.sweeping = false
  cache : (∀ k, a.cache.get k = b.cache.get k) ∧
      a.cache.refreshedAt = b.cache.refreshedAt ∨
    a.cache.IsBlank ∧ (b.cache.IsBlank ∨ b.cache.isExpired b.now = true)

theorem AgreesUpToSweeps.refl {b : Basis σ α} (hoff : b.sweeping = false) :
    b.AgreesUpToSweeps b :=
  ⟨rfl, rfl, rfl, hoff, Or.inl ⟨fun _ => rfl, rfl⟩⟩

variable {d : Deployment σ α} {a b : Basis σ α}

/-- After the expiry check both caches hold the same entries, and the timers agree
unless nothing is known. -/
theorem AgreesUpToSweeps.expire (hagrees : a.AgreesUpToSweeps b) :
    (∀ k, a.expire.cache.get k = b.expire.cache.get k) ∧
      (a.expire.cache.refreshedAt = b.expire.cache.refreshedAt ∨
        a.expire.cache.IsBlank ∧ b.expire.cache.IsBlank) := by
  rcases hagrees.cache with ⟨hget, hrefreshed⟩ | ⟨hblank, hmade_up⟩
  · have hexpired : a.cache.isExpired a.now = b.cache.isExpired b.now := by
      rw [Cache.isExpired, Cache.isExpired, hrefreshed, hagrees.ttl, hagrees.now]
    refine ⟨fun k => ?_, Or.inl ?_⟩
    · simp only [Basis.expire, Cache.get_invalidateIfExpired, hexpired, hget]
    · simp only [Basis.expire, Cache.invalidateIfExpired, hexpired]
      split
      · exact hagrees.now
      · exact hrefreshed
  · have ha : a.expire.cache.IsBlank := hblank.invalidateIfExpired a.now
    have hb : b.expire.cache.IsBlank := by
      rcases hmade_up with hblank' | hexpired
      · exact hblank'.invalidateIfExpired b.now
      · exact Cache.isBlank_invalidateIfExpired hexpired
    exact ⟨fun k => (ha k).trans (hb k).symm, Or.inr ⟨ha, hb⟩⟩

/-- A scoring call has the same outcome on both sides, and writes the same. -/
theorem AgreesUpToSweeps.score (hagrees : a.AgreesUpToSweeps b) (name : String) :
    (a.score d name).1 = (b.score d name).1 ∧
      (a.score d name).2.AgreesUpToSweeps (b.score d name).2 := by
  unfold Basis.score
  cases d.topology.requireNode name with
  | error e => exact ⟨rfl, hagrees⟩
  | ok n =>
      obtain ⟨hget, hrest⟩ := hagrees.expire
      have hstore : a.expire.store = b.expire.store := hagrees.store
      have hvisits := visits_congr hstore hget d n
      simp only [hvisits, true_and]
      refine ⟨hagrees.store, hagrees.now, ?_, hagrees.off, ?_⟩
      · simpa [enter, Basis.expire] using hagrees.ttl
      · set writes := Visit.writes n n.sockets (b.expire.visits d n)
        have hnow : a.expire.now = b.expire.now := hagrees.now
        have hget' := Cache.get_record_congr hget b.expire.now writes
        simp only [enter, hnow]
        by_cases hwrites : writes = []
        · rw [hwrites, Cache.record_nil, Cache.record_nil]
          rcases hrest with hrefreshed | ⟨ha, hb⟩
          · exact Or.inl ⟨hget, hrefreshed⟩
          · exact Or.inr ⟨ha, Or.inl hb⟩
        · left
          refine ⟨hget', ?_⟩
          rw [Cache.refreshedAt_record, Cache.refreshedAt_record, if_neg hwrites,
            if_neg hwrites]

theorem AgreesUpToSweeps.scoreAll (hagrees : a.AgreesUpToSweeps b) (hosts : List String) :
    (a.scoreAll d hosts).1 = (b.scoreAll d hosts).1 ∧
      (a.scoreAll d hosts).2.AgreesUpToSweeps (b.scoreAll d hosts).2 := by
  induction hosts generalizing a b with
  | nil => exact ⟨rfl, hagrees⟩
  | cons host rest ih =>
      obtain ⟨houtcome, hscored⟩ := hagrees.score (d := d) host
      obtain ⟨ihoutcomes, ihagrees⟩ := ih hscored
      rw [Basis.scoreAll, Basis.scoreAll, houtcome, ihoutcomes]
      exact ⟨rfl, ihagrees⟩

/-- Time that passes keeps the agreement: when the sweeper acts, the other cache
has expired. -/
theorem AgreesUpToSweeps.advance (hagrees : a.AgreesUpToSweeps b) (millis : Nat) :
    (a.advance millis).AgreesUpToSweeps (b.advance millis) := by
  have hlater : b.advance millis = { b with now := b.now + millis } := by
    simp [Basis.advance, hagrees.off]
  have hnow : a.now + millis = b.now + millis := by rw [hagrees.now]
  have hexpired : ∀ {c : Cache α}, c.isExpired b.now = true →
      c.isExpired (b.now + millis) = true := by
    intro c hc
    rw [Cache.isExpired_iff] at hc ⊢
    omega
  rw [hlater]
  rcases a.advance_cases millis with hwaits | ⟨cache, hswept, hblank, httl, hdeadline⟩
  · rw [hwaits]
    refine ⟨hagrees.store, hnow, hagrees.ttl, hagrees.off, ?_⟩
    rcases hagrees.cache with hsame | ⟨hblank, hblank' | hexpired'⟩
    · exact Or.inl hsame
    · exact Or.inr ⟨hblank, Or.inl hblank'⟩
    · exact Or.inr ⟨hblank, Or.inr (hexpired hexpired')⟩
  · rw [hswept]
    refine ⟨hagrees.store, hnow, httl.trans hagrees.ttl, hagrees.off, Or.inr ⟨hblank, ?_⟩⟩
    rcases hagrees.cache with ⟨-, hrefreshed⟩ | ⟨-, hblank' | hexpired'⟩
    · right
      rw [Cache.deadline, hrefreshed, hagrees.ttl, hnow] at hdeadline
      rw [Cache.isExpired_iff]
      dsimp only
      omega
    · exact Or.inl hblank'
    · exact Or.inr (hexpired hexpired')

theorem AgreesUpToSweeps.place [LawfulScalar α] (hagrees : a.AgreesUpToSweeps b)
    (p : Placement) : (a.place d p).AgreesUpToSweeps (b.place d p) := by
  unfold Basis.place
  rcases d.resolve p with e | ⟨n, socket, profile⟩
  · exact hagrees
  · have hplaced : ∀ {c : Cache α}, c.IsBlank →
        (c.place (n.key socket) profile socket.coreCount p.countsTowardIdle).IsBlank := by
      intro c hc k
      rw [Cache.get_place, hc, Entry.place_unknown, ite_self]
    refine ⟨hagrees.store, hagrees.now, hagrees.ttl, hagrees.off, ?_⟩
    rcases hagrees.cache with ⟨hget, hrefreshed⟩ | ⟨hblank, hblank' | hexpired⟩
    · refine Or.inl ⟨fun k => ?_, hrefreshed⟩
      rw [Cache.get_place, Cache.get_place, hget]
    · exact Or.inr ⟨hplaced hblank, Or.inl (hplaced hblank')⟩
    · exact Or.inr ⟨hplaced hblank, Or.inr hexpired⟩

/-- The sweeper is started and stopped on one side only. -/
theorem AgreesUpToSweeps.step_left (hagrees : a.AgreesUpToSweeps b) {step : Step σ α}
    (hsweeper : step.isSweeper = true) : (a.step d step).AgreesUpToSweeps b := by
  have hswitched : ∀ sweeping, AgreesUpToSweeps { a with sweeping } b := fun _ =>
    ⟨hagrees.store, hagrees.now, hagrees.ttl, hagrees.off, hagrees.cache⟩
  cases step with
  | startSweeper =>
      have hstill : b.advance 0 = b := by
        rw [Basis.advance, if_neg (by simp [hagrees.off])]
        rfl
      have hstarted := (hswitched true).advance 0
      rwa [hstill] at hstarted
  | stopSweeper => exact hswitched false
  | _ => cases hsweeper

/-- Any other step has the same answer on both sides and keeps the agreement. -/
theorem AgreesUpToSweeps.step [LawfulScalar α] (hagrees : a.AgreesUpToSweeps b)
    {step : Step σ α} (hdirect : step.isDirectWrite = false)
    (hsweeper : step.isSweeper = false) :
    a.answer? d step = b.answer? d step ∧
      (a.step d step).AgreesUpToSweeps (b.step d step) := by
  cases step with
  | score name =>
      obtain ⟨houtcome, hscored⟩ := hagrees.score (d := d) name
      refine ⟨?_, hscored⟩
      rw [answer?, answer?, houtcome]
  | prioritize workload hosts =>
      obtain ⟨houtcomes, hscored⟩ := hagrees.scoreAll (d := d) hosts
      refine ⟨?_, hscored⟩
      rw [answer?, answer?, houtcomes]
  | recordPlacement p => exact ⟨rfl, hagrees.place p⟩
  | flushCache =>
      refine ⟨rfl, hagrees.store, hagrees.now, hagrees.ttl, hagrees.off, ?_⟩
      rcases hagrees.cache with ⟨-, hrefreshed⟩ | -
      · refine Or.inl ⟨fun k => ?_, hrefreshed⟩
        exact (Cache.get_clean _ k).trans (Cache.get_clean _ k).symm
      · exact Or.inr ⟨Cache.isBlank_clean _, Or.inl (Cache.isBlank_clean _)⟩
  | updateCache k p idle => cases hdirect
  | advance millis => exact ⟨rfl, hagrees.advance millis⟩
  | startSweeper => cases hsweeper
  | stopSweeper => cases hsweeper
  | changeStore change =>
      exact ⟨rfl, congrArg change hagrees.store, hagrees.now, hagrees.ttl, hagrees.off,
        hagrees.cache⟩
  | idleCapacity name | showCache | setReady ready | showHealth => exact ⟨rfl, hagrees⟩

end Basis

/-! ## Runs with and without a sweeper -/

namespace Deployment

/-- The answers of a run to the steps that score nodes. -/
def scoringAnswers (d : Deployment σ α) (s : State σ α) (steps : List (Step σ α)) :
    List (Answer α) :=
  ((steps.zip (d.run s steps).1).filter fun answered => answered.1.isScoring).map Prod.snd

theorem scoringAnswers_cons (d : Deployment σ α) (s : State σ α) (step : Step σ α)
    (rest : List (Step σ α)) :
    d.scoringAnswers s (step :: rest) =
      (if step.isScoring = true then [(d.step s step).1] else []) ++
        d.scoringAnswers (d.step s step).2 rest := by
  by_cases hscoring : step.isScoring = true
  · simp [scoringAnswers, run, hscoring]
  · simp [scoringAnswers, run, hscoring]

theorem step_answer_congr {d : Deployment σ α} (hconsistent : d.topology.IsConsistent)
    {s s' : State σ α} {step : Step σ α} (hscoring : step.isScoring = true)
    (hanswer : s.basis.answer? d step = s'.basis.answer? d step) :
    (d.step s step).1 = (d.step s' step).1 := by
  cases step with
  | score name =>
      exact (step_answer hconsistent hanswer).trans (step_answer hconsistent rfl).symm
  | prioritize workload hosts =>
      exact (step_answer hconsistent hanswer).trans (step_answer hconsistent rfl).symm
  | _ => cases hscoring

/-- States that agree up to sweeps give the same scoring answers, one with and one
without the steps that start and stop the sweeper. -/
theorem scoringAnswers_eq_of_agreesUpToSweeps [LawfulScalar α] {d : Deployment σ α}
    (hconsistent : d.topology.IsConsistent) {steps : List (Step σ α)}
    (hsteps : ∀ step ∈ steps, step.isDirectWrite = false) {s s' : State σ α}
    (hagrees : s.basis.AgreesUpToSweeps s'.basis) :
    d.scoringAnswers s steps = d.scoringAnswers s' (steps.filter (!·.isSweeper)) := by
  induction steps generalizing s s' with
  | nil => rfl
  | cons step rest ih =>
      obtain ⟨hdirect, hrest⟩ := List.forall_mem_cons.mp hsteps
      by_cases hsweeper : step.isSweeper = true
      · have hsilent : step.isScoring = false := by
          cases step <;> first | rfl | cases hsweeper
        rw [List.filter_cons_of_neg (by simp [hsweeper]), scoringAnswers_cons, hsilent]
        refine ih hrest ?_
        rw [basis_step hconsistent]
        exact hagrees.step_left hsweeper
      · obtain ⟨hanswer, hstepped⟩ :=
          hagrees.step (d := d) hdirect (Bool.eq_false_of_not_eq_true hsweeper)
        rw [List.filter_cons_of_pos (by simp [hsweeper]), scoringAnswers_cons, scoringAnswers_cons]
        have hlater : (d.step s step).2.basis.AgreesUpToSweeps (d.step s' step).2.basis := by
          rw [basis_step hconsistent, basis_step hconsistent]
          exact hstepped
        rw [ih hrest hlater]
        split
        · next hscoring =>
            rw [step_answer_congr hconsistent hscoring hanswer]
        · rfl

/-- Steps that start and stop the sweeper leave the answers to scoring and ranking
as they are.  In particular the sweeper acts by a time exactly when a scoring call at
that time would find the cache expired. -/
theorem scoringAnswers_eq_without_sweeper [LawfulScalar α] (d : Deployment σ α)
    {file : TopologyFile α} (haccepted : Topology.ofFile file = .ok d.topology)
    {s : State σ α} (hoff : s.sweeping = false) {steps : List (Step σ α)}
    (hsteps : ∀ step ∈ steps, step.isDirectWrite = false) :
    d.scoringAnswers s steps = d.scoringAnswers s (steps.filter (!·.isSweeper)) ∧
      ∀ (c : Cache α) (now stop : Nat), 0 < c.ttl → now ≤ stop →
        (0 < (c.sweepUntil now stop 0).2 ↔ c.isExpired stop = true) := by
  refine ⟨?_, fun c now stop hholds hstop => Cache.sweepUntil_pos_iff hholds hstop⟩
  exact scoringAnswers_eq_of_agreesUpToSweeps (Topology.isConsistent_of_ofFile haccepted) hsteps
    (.refl hoff)

/-- A sweeper that acts at the deadline, where a scoring call would expire the
cache as well. -/
theorem scoringAnswers_eq_without_sweeper_bench :
    bench.scoringAnswers (bench.start 500 3 .steady)
        [.score "bench", .startSweeper, .advance 500, .score "bench"] =
      bench.scoringAnswers (bench.start 500 3 .steady)
        [.score "bench", .advance 500, .score "bench"] := by
  have hsteps : ∀ step ∈ ([.score "bench", .startSweeper, .advance 500, .score "bench"] :
      List (Step Source Float)), step.isDirectWrite = false := by
    decide
  have hoff : (bench.start 500 3 .steady).sweeping = false := rfl
  exact (scoringAnswers_eq_without_sweeper bench Topology.ofFile_benchFile hoff hsteps).1

end Deployment

end SocketRanking
