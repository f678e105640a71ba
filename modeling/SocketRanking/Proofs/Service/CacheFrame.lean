import SocketRanking.Proofs.Service.Breakdown

/-!
# What scoring leaves of the cache

A scoring call resets every entry if the timer has run out.  After that it writes
only entries of sockets of its own node of which no idle fraction is known, and so
it leaves what is known of a socket as it is.  In particular the placements that
have been folded into an entry stay in it through any number of calls, until the
cache is swept or flushed.  Sweeps and flushes are what the sweep counter counts:
an entry can change otherwise than by placements only while the counter moves.
-/

namespace SocketRanking

variable {σ α : Type} [Scalar α]

namespace Deployment

variable {d : Deployment σ α}

/-! ## A single call -/

/-- The call reports the socket as eligible.  A call that fails reports no socket,
and one in which the store breaks down ends before it reports anything. -/
def ReportsEligible (outcome : Except Trouble (ScoringResult α)) (socket : Socket) : Prop :=
  match outcome with
  | .ok r => ∃ score ∈ r.sockets, score.socket = socket.id ∧ score.eligible = true
  | .error (.failed _) => False
  | .error (.crashed _) => True

theorem cache_scoreNode (hconsistent : d.topology.IsConsistent) {name : String} {n : Node}
    (hn : d.topology.requireNode name = .ok n) (s : State σ α) :
    (d.scoreNode name s).2.cache = (s.cache.invalidateIfExpired s.now).record s.now
      (Visit.writes n n.sockets (s.basis.expire.visits d n)) := by
  have hbasis := (scoreNode_basis hconsistent name s).2
  rw [Basis.score, hn] at hbasis
  exact congrArg Basis.cache hbasis

/-- A call in which one visit measured its socket does not fail. -/
theorem scoreNode_ne_failed (hconsistent : d.topology.IsConsistent) {name : String}
    {n : Node} (hn : d.topology.requireNode name = .ok n) {s : State σ α} {v : Visit α}
    (hv : v ∈ s.basis.expire.visits d n) {score : SocketScore α}
    (hscore : v.outcome = .ok score) (e : Failure) :
    (d.scoreNode name s).1 ≠ .error (.failed e) := by
  intro hfailed
  rw [answer_scoreNode hconsistent hn] at hfailed
  simp only [conclude] at hfailed
  split at hfailed
  · cases hfailed
  · split at hfailed
    next e' houtage =>
      obtain ⟨e'', hfailure, -⟩ := isTelemetry_of_outage? houtage hv
      rw [hscore] at hfailure
      cases hfailure
    next => cases hfailed

/-- After the expiry check, a call changes only entries of its node's sockets of which
no idle fraction is known, and only if it reports the socket as eligible. -/
theorem exists_of_entry_changed (hconsistent : d.topology.IsConsistent) {name : String}
    {n : Node} (hn : d.topology.requireNode name = .ok n) {s : State σ α} {k : SocketKey}
    (hchanged : (d.scoreNode name s).2.cache.entries[k]? ≠
      (s.cache.invalidateIfExpired s.now).entries[k]?) :
    ∃ socket ∈ n.sockets, k = n.key socket ∧
      Entry.isKnown ((s.cache.invalidateIfExpired s.now).get k).c6res = false ∧
      ReportsEligible (d.scoreNode name s).1 socket := by
  rw [cache_scoreNode hconsistent hn] at hchanged
  have hwritten : k ∈ (Visit.writes n n.sockets (s.basis.expire.visits d n)).map Prod.fst := by
    by_contra hk
    exact hchanged (Cache.getElem?_record_of_notMem hk s.now)
  obtain ⟨⟨k, e⟩, hwrite, rfl⟩ := List.mem_map.mp hwritten
  obtain ⟨socket, v, hzip, hkey, hlearned⟩ := Visit.exists_of_mem_writes hwrite
  obtain rfl : k = n.key socket := hkey
  have hvisited := (List.of_mem_zip hzip).2
  obtain ⟨hsocket, rfl⟩ := Visit.mem_zip_throughCrash hzip
  obtain ⟨hidle, base, p, idle, -, -, houtcome⟩ := Visit.exists_measures_of_learned hlearned
  refine ⟨socket, hsocket, rfl, ?_, ?_⟩
  · have hunknown := Entry.isSome_idle? ((s.cache.invalidateIfExpired s.now).get (n.key socket))
    rw [← hunknown]
    exact Option.isSome_eq_false_iff.mpr (Option.isNone_iff_eq_none.mpr hidle)
  · unfold ReportsEligible
    split
    next r hr =>
      obtain ⟨spare, hline⟩ := exists_mem_sockets_of_scoreNode hconsistent hn hr hsocket
      have hmeasured : (s.basis.expire.visit d n socket).line socket =
          .measured socket base idle := by
        rw [Visit.line]
        simp only [Basis.visit, houtcome]
      rw [hmeasured] at hline
      exact ⟨_, hline, rfl, rfl⟩
    next e hfailed => exact scoreNode_ne_failed hconsistent hn hvisited houtcome e hfailed
    next => trivial

/-- What is known of a socket after the expiry check, a call leaves as it is. -/
theorem getElem?_scoreNode_of_isKnown (hconsistent : d.topology.IsConsistent) {name : String}
    {n : Node} (hn : d.topology.requireNode name = .ok n) {s : State σ α} {k : SocketKey}
    (hknown : Entry.isKnown ((s.cache.invalidateIfExpired s.now).get k).c6res = true) :
    (d.scoreNode name s).2.cache.entries[k]? =
      (s.cache.invalidateIfExpired s.now).entries[k]? := by
  by_contra hchanged
  obtain ⟨-, -, -, hunknown, -⟩ := exists_of_entry_changed hconsistent hn hchanged
  rw [hknown] at hunknown
  cases hunknown

theorem get_scoreNode_of_isKnown (hconsistent : d.topology.IsConsistent) {name : String}
    {n : Node} (hn : d.topology.requireNode name = .ok n) {s : State σ α} {k : SocketKey}
    (hknown : Entry.isKnown ((s.cache.invalidateIfExpired s.now).get k).c6res = true) :
    (d.scoreNode name s).2.cache.get k = (s.cache.invalidateIfExpired s.now).get k := by
  have hsame := getElem?_scoreNode_of_isKnown hconsistent hn hknown
  rw [Cache.get, Std.TreeMap.getD_eq_getD_getElem?, hsame,
    ← Std.TreeMap.getD_eq_getD_getElem?]
  rfl

/-! ## The sweep counter -/

theorem cacheSweeps_visitAll (d : Deployment σ α) (n : Node) (sockets : List Socket)
    (s : State σ α) :
    (d.visitAll n sockets s).2.activity.cacheSweeps = s.activity.cacheSweeps := by
  have hrecord : ∀ (k : SocketKey) (v : Visit α) (s : State σ α),
      (d.recordVisit k v s).activity.cacheSweeps = s.activity.cacheSweeps := by
    intro k v s
    unfold recordVisit
    cases v.learned <;> rfl
  induction sockets generalizing s with
  | nil => rfl
  | cons socket rest ih =>
      rw [visitAll_cons]
      dsimp only
      split
      · exact hrecord _ _ s
      · exact (ih _).trans (hrecord _ _ s)

theorem cacheSweeps_idleOver (d : Deployment σ α) (n : Node) (sockets : List Socket)
    (total : α) (failures : List Failure) (s : State σ α) :
    (d.idleOver n sockets total failures s).2.activity.cacheSweeps =
      s.activity.cacheSweeps := by
  induction sockets generalizing total failures s with
  | nil => rfl
  | cons socket rest ih =>
      rw [idleOver]
      rcases d.idleFraction n socket s with ⟨(failure | text) | c6, calls⟩
      · exact ih _ _ _
      · rfl
      · exact ih _ _ _

theorem cacheSweeps_scoreNode (d : Deployment σ α) {name : String} {n : Node}
    (hn : d.topology.requireNode name = .ok n) (s : State σ α) :
    (d.scoreNode name s).2.activity.cacheSweeps = (expire s).activity.cacheSweeps := by
  have hvisited := cacheSweeps_visitAll d n n.sockets (expire s)
  unfold scoreNode
  simp only [hn]
  split
  · exact hvisited
  · split <;> exact hvisited

theorem cacheSweeps_idleCapacity (d : Deployment σ α) (name : String) (s : State σ α) :
    (d.idleCapacity name s).2.activity.cacheSweeps = s.activity.cacheSweeps := by
  unfold idleCapacity
  cases d.topology.requireNode name with
  | error e => rfl
  | ok n =>
      have hidle := cacheSweeps_idleOver d n n.sockets 0.0 [] s
      dsimp only
      rcases hover : d.idleOver n n.sockets 0.0 [] s with ⟨trouble | ⟨total, failures⟩, s'⟩
      · rw [hover] at hidle
        exact hidle
      · rw [hover] at hidle
        dsimp only
        split
        · split <;> exact hidle
        · exact hidle

/-! ## Entries along a run -/

/-- From `s` to `s'` the sweep counter has not gone back, and unless it has moved, `change`
says what became of the entry of `k` if an idle fraction was known. -/
structure KeepsEntry (k : SocketKey) (change : Entry α → Entry α) (s s' : State σ α) :
    Prop where
  sweeps_le : s.activity.cacheSweeps ≤ s'.activity.cacheSweeps
  entry : s'.activity.cacheSweeps = s.activity.cacheSweeps →
    Entry.isKnown (s.cache.get k).c6res = true → s'.cache.get k = change (s.cache.get k)

namespace KeepsEntry

variable {k : SocketKey} {change change' : Entry α → Entry α} {s s' s'' : State σ α}

theorem of_cache_eq (hcache : s'.cache = s.cache)
    (hsweeps : s'.activity.cacheSweeps = s.activity.cacheSweeps) : KeepsEntry k id s s' :=
  ⟨hsweeps.ge, fun _ _ => congrArg (·.get k) hcache⟩

theorem of_swept (hsweeps : s.activity.cacheSweeps < s'.activity.cacheSweeps) :
    KeepsEntry k change s s' :=
  ⟨hsweeps.le, fun hsame _ => absurd hsame hsweeps.ne'⟩

theorem trans (hfirst : KeepsEntry k change s s') (hsecond : KeepsEntry k change' s' s'')
    (hknown : ∀ e : Entry α, Entry.isKnown e.c6res = true →
      Entry.isKnown (change e).c6res = true) :
    KeepsEntry k (change' ∘ change) s s'' := by
  refine ⟨hfirst.sweeps_le.trans hsecond.sweeps_le, ?_⟩
  intro hsweeps hentry
  have hle := hfirst.sweeps_le
  have hle' := hsecond.sweeps_le
  have hmiddle := hfirst.entry (by omega) hentry
  have hmiddle_known : Entry.isKnown (s'.cache.get k).c6res = true := by
    rw [hmiddle]
    exact hknown _ hentry
  rw [hsecond.entry (by omega) hmiddle_known, hmiddle]
  rfl

end KeepsEntry

/-- What a step makes of the entry of a socket: a placement there is folded into it. -/
def placedOn (d : Deployment σ α) (k : SocketKey) (e : Entry α) : Step σ α → Entry α
  | .recordPlacement p =>
    match d.resolve p with
    | .error _ => e
    | .ok (n, socket, profile) =>
      if n.key socket = k then e.place profile socket.coreCount p.countsTowardIdle else e
  | _ => e

theorem isKnown_placedOn [LawfulScalar α] (k : SocketKey) (step : Step σ α) {e : Entry α}
    (hknown : Entry.isKnown e.c6res = true) :
    Entry.isKnown (d.placedOn k e step).c6res = true := by
  unfold placedOn
  split
  · split
    · exact hknown
    · split
      · rw [← Entry.isSome_idle?, Entry.isSome_idle?_place, Entry.isSome_idle?]
        exact hknown
      · exact hknown
  · exact hknown

theorem scoreNode_keepsEntry (hconsistent : d.topology.IsConsistent) (k : SocketKey)
    (name : String) (s : State σ α) : KeepsEntry k id s (d.scoreNode name s).2 := by
  cases hn : d.topology.requireNode name with
  | error e =>
      have hsame : (d.scoreNode name s).2 = s := by simp [scoreNode, hn]
      rw [hsame]
      exact .of_cache_eq rfl rfl
  | ok n =>
      have hsweeps := cacheSweeps_scoreNode d hn s
      by_cases hexpired : s.cache.isExpired s.now = true
      · refine .of_swept ?_
        rw [hsweeps, expire, if_pos hexpired]
        exact Nat.lt_succ_self _
      · rw [expire, if_neg hexpired] at hsweeps
        refine ⟨hsweeps.ge, fun _ hknown => ?_⟩
        have hunexpired : s.cache.invalidateIfExpired s.now = s.cache := if_neg hexpired
        have hsame := get_scoreNode_of_isKnown hconsistent hn (s := s) (k := k)
        rw [hunexpired] at hsame
        exact hsame hknown

theorem tally_keepsEntry (hconsistent : d.topology.IsConsistent) (k : SocketKey)
    (hosts : List String) (s : State σ α) : KeepsEntry k id s (d.tally hosts s).2 := by
  induction hosts generalizing s with
  | nil => exact .of_cache_eq rfl rfl
  | cons host rest ih =>
      have hscored := scoreNode_keepsEntry hconsistent k host s
      rw [tally]
      rcases hcall : d.scoreNode host s with ⟨trouble | r, s'⟩
      · rw [hcall] at hscored
        have hreported : KeepsEntry k id s (s'.report (.scoringFailed host trouble.reason)) :=
          ⟨hscored.sweeps_le, hscored.entry⟩
        exact hreported.trans (ih _) fun _ => id
      · rw [hcall] at hscored
        have hreported : KeepsEntry k id s (s'.report (.ofResult r)) :=
          ⟨hscored.sweeps_le, hscored.entry⟩
        exact hreported.trans (ih _) fun _ => id

theorem advance_keepsEntry (k : SocketKey) (millis : Nat) (s : State σ α) :
    KeepsEntry k id s (advance millis s) := by
  unfold advance
  split
  · refine ⟨Nat.le_add_right _ _, fun hsweeps _ => ?_⟩
    have hsum : s.activity.cacheSweeps + (s.cache.sweepUntil s.now (s.now + millis) 0).2 =
        s.activity.cacheSweeps := hsweeps
    exact congrArg (·.get k) (Cache.sweepUntil_of_count_eq (Nat.add_eq_left.mp hsum))
  · exact .of_cache_eq rfl rfl

theorem recordPlacement_keepsEntry [LawfulScalar α] (k : SocketKey) (p : Placement)
    (s : State σ α) :
    KeepsEntry k (d.placedOn k · (.recordPlacement p)) s (d.recordPlacement p s).2 := by
  simp only [recordPlacement, placedOn]
  rcases d.resolve p with e | ⟨n, socket, profile⟩
  · exact ⟨le_rfl, fun _ _ => rfl⟩
  · exact ⟨le_rfl, fun _ _ => s.cache.get_place (n.key socket) profile _ _ k⟩

/-- A step changes what is known of a socket by a placement there or by a sweep. -/
theorem step_keepsEntry [LawfulScalar α] (hconsistent : d.topology.IsConsistent)
    (k : SocketKey) {step : Step σ α} (hstep : step.isDirectWrite = false) (s : State σ α) :
    KeepsEntry k (d.placedOn k · step) s (d.step s step).2 := by
  cases step with
  | score name =>
      have hscored := scoreNode_keepsEntry hconsistent k name s
      rw [Deployment.step, score]
      rcases hcall : d.scoreNode name s with ⟨(failure | text) | r, s'⟩ <;>
        rw [hcall] at hscored <;> exact ⟨hscored.sweeps_le, hscored.entry⟩
  | prioritize workload hosts => exact tally_keepsEntry hconsistent k hosts s
  | idleCapacity name =>
      have hcache := congrArg Basis.cache (basis_idleCapacity d name s)
      have hsweeps := cacheSweeps_idleCapacity d name s
      rw [Deployment.step]
      rcases hcall : d.idleCapacity name s with ⟨trouble | cores, s'⟩ <;>
        rw [hcall] at hcache hsweeps <;> exact .of_cache_eq hcache hsweeps
  | recordPlacement p =>
      have hplaced := recordPlacement_keepsEntry (d := d) k p s
      rw [Deployment.step]
      rcases hcall : d.recordPlacement p s with ⟨e | ⟨⟩, s'⟩ <;>
        rw [hcall] at hplaced <;> exact hplaced
  | flushCache => exact .of_swept (Nat.lt_succ_self _)
  | updateCache key p idle => cases hstep
  | advance millis => exact advance_keepsEntry k millis s
  | startSweeper =>
      have hstarted := advance_keepsEntry k 0 { s with sweeping := true }
      exact ⟨hstarted.sweeps_le, hstarted.entry⟩
  | showCache | stopSweeper | setReady ready | showHealth | changeStore change =>
      exact .of_cache_eq rfl rfl

theorem run_keepsEntry [LawfulScalar α] (hconsistent : d.topology.IsConsistent)
    (k : SocketKey) {steps : List (Step σ α)}
    (hsteps : ∀ step ∈ steps, step.isDirectWrite = false) (s : State σ α) :
    KeepsEntry k (steps.foldl (d.placedOn k) ·) s (d.run s steps).2 := by
  induction steps generalizing s with
  | nil => exact .of_cache_eq rfl rfl
  | cons step rest ih =>
      obtain ⟨hstep, hrest⟩ := List.forall_mem_cons.mp hsteps
      have hfirst := step_keepsEntry hconsistent k hstep s
      exact hfirst.trans (ih hrest (d.step s step).2) fun _ => isKnown_placedOn k step

/-- A scoring call resets all entries if the timer has run out, and then changes only
entries of its node's sockets of which no idle fraction is known, if it reports the
socket as eligible.  So from a state in which an entry is known, any run leaves of it
exactly what the placements on its socket make of it, as long as the sweep counter does
not move. -/
theorem scoring_keeps_placements [LawfulScalar α] (d : Deployment σ α)
    {file : TopologyFile α} (haccepted : Topology.ofFile file = .ok d.topology) :
    (∀ (name : String) (n : Node), d.topology.requireNode name = .ok n →
      ∀ (s : State σ α) (k : SocketKey),
        let checked := if s.cache.ttl ≤ s.now - s.cache.refreshedAt then
            s.cache.entries.map fun _ _ => .unknown
          else s.cache.entries
        let (answer, s') := d.scoreNode name s
        (s'.cache.entries[k]? ≠ checked[k]? →
          ∃ socket ∈ n.sockets, k = n.key socket ∧
            Entry.isKnown (checked.getD k .unknown).c6res = false ∧
            ReportsEligible answer socket) ∧
        (Entry.isKnown (checked.getD k .unknown).c6res = true →
          s'.cache.entries[k]? = checked[k]?)) ∧
      ∀ (s : State σ α) (k : SocketKey) (steps : List (Step σ α)),
        (∀ step ∈ steps, step.isDirectWrite = false) →
        Entry.isKnown (s.cache.get k).c6res = true →
        (d.run s steps).2.activity.cacheSweeps = s.activity.cacheSweeps →
        (d.run s steps).2.cache.get k = steps.foldl (d.placedOn k) (s.cache.get k) := by
  have hconsistent := Topology.isConsistent_of_ofFile haccepted
  refine ⟨?_, ?_⟩
  · intro name n hn s k
    dsimp only
    rw [← Cache.entries_invalidateIfExpired]
    exact ⟨fun hchanged => exists_of_entry_changed hconsistent hn hchanged,
      fun hknown => getElem?_scoreNode_of_isKnown hconsistent hn hknown⟩
  · intro s k steps hsteps hknown hsweeps
    exact (run_keepsEntry hconsistent k hsteps s).entry hsweeps hknown

/-- A workload that is placed between two calls stays in the entry of its socket. -/
theorem scoring_keeps_placements_bench :
    let d : Deployment Source Float := { bench with catalog := .builtin }
    let k : SocketKey := ⟨"bench", 0⟩
    let first := d.scoreNode "bench" (d.start 500 3 .steady)
    let steps : List (Step Source Float) :=
      [.recordPlacement { node := "bench", socket := 0, profile := "spec-leslie" },
        .advance 100, .score "bench"]
    (∃ socket : Socket, socket.id = 0 ∧ ReportsEligible first.1 socket) ∧
      (d.run first.2 steps).2.cache.get k =
        (first.2.cache.get k).place ⟨1.5225, 0.3221, 0.1532, 0.1215, 378⟩ 2 true := by
  intro d k first steps
  have hstart : d.start 500 3 .steady = bench.start 500 3 .steady := rfl
  obtain ⟨hcall, hrun⟩ := scoring_keeps_placements d Topology.ofFile_benchFile
  constructor
  · have hchanged : first.2.cache.entries[k]? ≠ (d.start 500 3 .steady).cache.entries[k]? := by
      change (d.scoreNode "bench" (d.start 500 3 .steady)).2.cache.entries[k]? ≠ _
      rw [hstart, start_bench]
      decide +kernel
    obtain ⟨socket, -, hkey, -, heligible⟩ :=
      (hcall "bench" _ rfl (d.start 500 3 .steady) k).1 hchanged
    exact ⟨socket, (congrArg SocketKey.socket hkey).symm, heligible⟩
  · have hsteps : ∀ step ∈ steps, step.isDirectWrite = false := by
      simp [steps, Step.isDirectWrite]
    have hknown : Entry.isKnown (first.2.cache.get k).c6res = true := by
      change Entry.isKnown ((d.scoreNode "bench" (d.start 500 3 .steady)).2.cache.get k).c6res = _
      rw [hstart, start_bench]
      decide +kernel
    have hsweeps : (d.run first.2 steps).2.activity.cacheSweeps =
        first.2.activity.cacheSweeps := by
      change (d.run (d.scoreNode "bench" (d.start 500 3 .steady)).2 steps).2.activity.cacheSweeps =
        (d.scoreNode "bench" (d.start 500 3 .steady)).2.activity.cacheSweeps
      rw [hstart, start_bench]
      decide +kernel
    rw [hrun first.2 k steps hsteps hknown hsweeps]
    rfl

end Deployment

end SocketRanking
