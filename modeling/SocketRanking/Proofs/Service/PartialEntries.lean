import SocketRanking.Proofs.Service.IdleResidency

/-!
# Partially known entries

A visit writes all fields of an entry at once, and the idle fraction that it writes is
kept at the floor or above, so that it is never taken for the sentinel.  The other
fields are written as they were measured.  A measured value that happens to be the
sentinel, or a sum of traffic that does, is lost in the cache: the entry then counts
as partly unknown, and the socket is measured again at every call.  This is the only
way in which entries become partial, and it needs a negative quantity.
-/

namespace SocketRanking

variable {σ α : Type} [Scalar α]

/-! ## What a call leaves of a socket that it measured -/

namespace Visit

omit [Scalar α] in
/-- What a visit of a socket has learned is written under the key of the socket. -/
theorem mem_writes_map {n : Node} {f : Socket → Visit α} {sockets : List Socket}
    {socket : Socket} (hsocket : socket ∈ sockets) {e : Entry α}
    (hlearned : (f socket).learned = some e) :
    (n.key socket, e) ∈ writes n sockets (sockets.map f) := by
  induction sockets with
  | nil => cases hsocket
  | cons first rest ih =>
      rw [List.map_cons, writes, List.mem_append]
      rcases List.mem_cons.mp hsocket with rfl | hrest
      · left
        rw [hlearned]
        exact List.mem_singleton_self _
      · exact Or.inr (ih hrest)

/-- What a visit writes holds a known idle fraction. -/
theorem isKnown_of_learned [LawfulScalar α] {settings : Settings} {source : Source}
    {uuid : String} {socket : Socket} {entry e : Entry α}
    (hlearned : (run settings source uuid socket entry).learned = some e) :
    Entry.isKnown e.c6res = true := by
  obtain ⟨-, base, p, idle, rfl, hmeasures, -⟩ := exists_measures_of_learned hlearned
  obtain ⟨pooled, -, rfl⟩ := hmeasures.idle
  exact Entry.isKnown_atLeast pooled

/-- A visit that measures its socket finds the idle fraction known or writes it. -/
theorem isKnown_or_exists_learned [LawfulScalar α] {settings : Settings} {source : Source}
    {uuid : String} {socket : Socket} {entry : Entry α} {score : SocketScore α}
    (hscore : (run settings source uuid socket entry).outcome = .ok score) :
    Entry.isKnown entry.c6res = true ∨
      ∃ e, (run settings source uuid socket entry).learned = some e := by
  obtain ⟨metrics, base, c6, -, -, -, hfrom⟩ := exists_of_outcome_run hscore
  generalize (run settings source uuid socket entry).learned = learned at hfrom ⊢
  cases hfrom with
  | cache hidle => exact Or.inl (Entry.idle?_eq_some_iff.mp hidle).1
  | store _ _ _ p => exact Or.inr ⟨_, rfl⟩

end Visit

namespace Deployment

variable {d : Deployment σ α} {n : Node} {r : ScoringResult α}

theorem crash?_eq_none_of_conclude_eq_ok {visits : List (Visit α)}
    (hr : d.conclude n visits = .ok r) : crash? visits = none := by
  unfold conclude at hr
  split at hr
  · cases hr
  next hcrash => exact hcrash

/-- What a visit has learned is served after the call. -/
theorem get_scoreNode_of_learned (hconsistent : d.topology.IsConsistent) {name : String}
    (hn : d.topology.requireNode name = .ok n) {s : State σ α}
    (hr : (d.scoreNode name s).1 = .ok r) {socket : Socket} (hsocket : socket ∈ n.sockets)
    {e : Entry α} (hlearned : (s.basis.expire.visit d n socket).learned = some e) :
    (d.scoreNode name s).2.cache.get (n.key socket) = e := by
  rw [answer_scoreNode hconsistent hn] at hr
  have hcrash := crash?_eq_none_of_conclude_eq_ok hr
  have hwrite : (n.key socket, e) ∈ Visit.writes n n.sockets (s.basis.expire.visits d n) := by
    rw [Basis.visits, throughCrash_eq_self hcrash]
    exact Visit.mem_writes_map hsocket hlearned
  rw [cache_scoreNode hconsistent hn]
  have hnodup := hconsistent.nodup_sockets (Topology.requireNode_eq_ok_iff.mp hn)
  exact Cache.get_record_of_mem (Visit.nodup_keys_writes hnodup _) hwrite s.now

/-- A socket that is reported as eligible has been measured. -/
theorem exists_outcome_of_eligible (hconsistent : d.topology.IsConsistent) {name : String}
    (hn : d.topology.requireNode name = .ok n) {s : State σ α}
    (hr : (d.scoreNode name s).1 = .ok r) {line : SocketScore α} (hline : line ∈ r.sockets)
    (heligible : line.eligible = true) :
    ∃ socket ∈ n.sockets, socket.id = line.socket ∧
      ∃ score, (s.basis.expire.visit d n socket).outcome = .ok score := by
  obtain ⟨n', hn', socket, hsocket, spare, rfl⟩ :=
    exists_of_mem_sockets_of_scoreNode hconsistent hr hline
  obtain rfl : n = n' := Except.ok.inj (hn.symm.trans hn')
  obtain ⟨base, c6, houtcome, -⟩ := Basis.exists_measured_of_eligible heligible
  exact ⟨socket, hsocket, (Basis.socket_line d _ n socket).1.symm, _, houtcome⟩

/-- A call that reports a socket as eligible leaves its idle fraction known. -/
theorem isKnown_of_eligible [LawfulScalar α] (hconsistent : d.topology.IsConsistent)
    {name : String} (hn : d.topology.requireNode name = .ok n) {s : State σ α}
    (hr : (d.scoreNode name s).1 = .ok r) {socket : Socket} {line : SocketScore α}
    (hline : line ∈ r.sockets) (hid : line.socket = socket.id)
    (heligible : line.eligible = true) :
    Entry.isKnown ((d.scoreNode name s).2.cache.get (n.key socket)).c6res = true := by
  obtain ⟨measured, hmeasured, hid', score, houtcome⟩ :=
    exists_outcome_of_eligible hconsistent hn hr hline heligible
  have hkey : n.key measured = n.key socket := Node.key_eq_key.mpr (hid'.trans hid)
  rw [← hkey]
  rcases Visit.isKnown_or_exists_learned houtcome with hknown | ⟨e, hlearned⟩
  · rw [get_scoreNode_of_isKnown hconsistent hn hknown]
    exact hknown
  · rw [get_scoreNode_of_learned hconsistent hn hr hmeasured hlearned]
    exact Visit.isKnown_of_learned hlearned

/-! ## Runs -/

theorem placedOn_unknown [LawfulScalar α] (k : SocketKey) (step : Step σ α) :
    d.placedOn k .unknown step = .unknown := by
  rcases d.placedOn_cases k .unknown step with
    hsame | ⟨p, n, socket, profile, -, -, hplaced⟩
  · exact hsame
  · rw [hplaced, Entry.place_unknown]

variable {P : Entry α → Prop}

/-- What visits teach and placements keep holds of every entry of which something is
known. -/
theorem all_unknown_or_run [LawfulScalar α] (hconsistent : d.topology.IsConsistent)
    {steps : List (Step σ α)} (hsteps : ∀ step ∈ steps, step.isDirectWrite = false)
    {s : State σ α}
    (hplaced : ∀ i step, steps[i]? = some step → ∀ k,
      let e := (d.run s (steps.take i)).2.cache.get k
      P e → P (d.placedOn k e step))
    (hteaches : ∀ i, d.Teaches (d.run s (steps.take i)).2.store P)
    (hblank : s.cache.IsBlank) :
    (d.run s steps).2.cache.All fun e => e = .unknown ∨ P e := by
  refine all_run hconsistent (Or.inl rfl) hsteps ?_ ?_ (hblank.all (Or.inl rfl))
  · rintro i step hstep k e (hunknown | he)
    · rw [hunknown]
      exact Or.inl (placedOn_unknown k step)
    · exact Or.inr (hplaced i step hstep k he)
  · exact fun i => (hteaches i).imp fun e => Or.inr

/-- What visits teach holds of the entry of a socket that a call reports as eligible. -/
theorem entry_of_eligible [LawfulScalar α] (hconsistent : d.topology.IsConsistent)
    {s : State σ α} (hall : s.cache.All fun e => e = .unknown ∨ P e)
    (hteaches : d.Teaches s.store P) {name : String}
    (hn : d.topology.requireNode name = .ok n) (hr : (d.scoreNode name s).1 = .ok r)
    {socket : Socket} {line : SocketScore α} (hline : line ∈ r.sockets)
    (hid : line.socket = socket.id) (heligible : line.eligible = true) :
    P ((d.scoreNode name s).2.cache.get (n.key socket)) := by
  have hscored : (d.scoreNode name s).2.cache.All fun e => e = .unknown ∨ P e := by
    have hbasis := (scoreNode_basis hconsistent name s).2
    have hkept := Basis.all_score (b := s.basis) (P := fun e => e = .unknown ∨ P e)
      (Or.inl rfl) (hteaches.imp fun e => Or.inr) hall name
    rw [← hbasis] at hkept
    exact hkept
  have hknown := isKnown_of_eligible hconsistent hn hr hline hid heligible
  rcases hscored (n.key socket) with hunknown | he
  · rw [hunknown, Entry.unknown, Entry.isKnown_sentinel] at hknown
    cases hknown
  · exact he

omit [Scalar α] in
theorem exists_line_of_lines {answer : Except Trouble (ScoringResult α)}
    (lines : List (UInt32 × Bool))
    (hlines : (answer.toOption.map fun r => r.sockets.map fun line =>
      (line.socket, line.eligible)) = some lines) {id : UInt32} (hid : (id, true) ∈ lines) :
    ∃ r, answer = .ok r ∧ ∃ line ∈ r.sockets, line.socket = id ∧ line.eligible = true := by
  cases answer with
  | error t => cases hlines
  | ok r =>
      rw [← Option.some.inj hlines] at hid
      obtain ⟨line, hline, hpair⟩ := List.mem_map.mp hid
      obtain ⟨hsocket, heligible⟩ := Prod.mk.inj hpair
      exact ⟨r, rfl, line, hline, hsocket, heligible⟩

/-! ## Exact arithmetic -/

section Exact

variable {σ : Type} {d : Deployment σ ℚ}

theorem teaches_isFull {store : σ} (hreads : ∀ m, (d.source store).Reads m fun x : ℚ => 0 ≤ x) :
    d.Teaches store Entry.IsFull := by
  intro name n hn socket hsocket entry e hlearned
  obtain ⟨-, base, p, idle, rfl, hmeasures, -⟩ := Visit.exists_measures_of_learned hlearned
  obtain ⟨metrics, hmeasured, -, hp⟩ := hmeasures.performance
  obtain ⟨hipc, hread, hwrite⟩ := Performance.ofSet_eq_ok_iff.mp hp
  obtain ⟨pooled, -, rfl⟩ := hmeasures.idle
  have hnonneg : ∀ m x, metrics.get m = some x → 0 ≤ x := fun m x hx =>
    (hreads m).of_measurePerformance (Aggregate.inheritedByAverages_ge 0) hmeasured hx
  exact ⟨hnonneg .ipc _ hipc, hnonneg .memRead _ hread, hnonneg .memWrite _ hwrite,
    Entry.floor_le_atLeast pooled⟩

theorem isFull_placedOn {step : Step σ ℚ}
    (hprofiles : ∀ p, step = .recordPlacement p → ∀ profile,
      d.catalog[p.profile]? = some profile → 0 ≤ profile.memRead ∧ 0 ≤ profile.memWrite)
    {e : Entry ℚ} (he : e.IsFull) (k : SocketKey) : (d.placedOn k e step).IsFull := by
  rcases d.placedOn_cases k e step with hsame | ⟨p, n, socket, profile, hstep, hresolve, hplaced⟩
  · rw [hsame]
    exact he
  · obtain ⟨hread, hwrite⟩ := hprofiles p hstep profile (of_resolve_eq_ok hresolve).2.2
    rw [hplaced]
    exact he.place hread hwrite _ _

/-- When nothing negative is read and no placed application has negative traffic, no
entry is ever partly unknown. -/
theorem unknown_or_isFull_run (hconsistent : d.topology.IsConsistent)
    {steps : List (Step σ ℚ)} (hsteps : ∀ step ∈ steps, step.isDirectWrite = false)
    {s : State σ ℚ}
    (hreads : ∀ i m, (d.source (d.run s (steps.take i)).2.store).Reads m fun x : ℚ => 0 ≤ x)
    (hprofiles : ∀ p, .recordPlacement p ∈ steps → ∀ profile,
      d.catalog[p.profile]? = some profile → 0 ≤ profile.memRead ∧ 0 ≤ profile.memWrite)
    (hblank : s.cache.IsBlank) :
    (d.run s steps).2.cache.All fun e => e = .unknown ∨ e.IsFull := by
  refine all_unknown_or_run hconsistent hsteps ?_ (fun i => teaches_isFull (hreads i)) hblank
  intro i step hstep k e he
  refine isFull_placedOn (fun p hplacement => hprofiles p ?_) he k
  rw [← hplacement]
  exact List.mem_of_getElem? hstep

/-- Then no placement of the run makes a fresh entry partial. -/
theorem isFresh_placedOn_of_nonneg (hconsistent : d.topology.IsConsistent)
    {steps : List (Step σ ℚ)} (hsteps : ∀ step ∈ steps, step.isDirectWrite = false)
    {s : State σ ℚ}
    (hreads : ∀ i m, (d.source (d.run s (steps.take i)).2.store).Reads m fun x : ℚ => 0 ≤ x)
    (hprofiles : ∀ p, .recordPlacement p ∈ steps → ∀ profile,
      d.catalog[p.profile]? = some profile → 0 ≤ profile.memRead ∧ 0 ≤ profile.memWrite)
    (hblank : s.cache.IsBlank) {i : ℕ} {step : Step σ ℚ} (hstep : steps[i]? = some step)
    (k : SocketKey) (hfresh : ((d.run s (steps.take i)).2.cache.get k).isFresh = true) :
    (d.placedOn k ((d.run s (steps.take i)).2.cache.get k) step).isFresh = true := by
  have hbefore : (d.run s (steps.take i)).2.cache.All fun e => e = .unknown ∨ e.IsFull := by
    refine unknown_or_isFull_run hconsistent
      (fun step hmem => hsteps step (List.mem_of_mem_take hmem)) ?_
      (fun p hmem => hprofiles p (List.mem_of_mem_take hmem)) hblank
    intro j m
    rw [List.take_take]
    exact hreads (min j i) m
  rcases hbefore k with hunknown | he
  · rw [hunknown, Entry.isFresh, Entry.unknown, Entry.isKnown_sentinel] at hfresh
    cases hfresh
  · refine (isFull_placedOn (fun p hplacement => hprofiles p ?_) he k).isFresh
    rw [← hplacement]
    exact List.mem_of_getElem? hstep

end Exact

/-! ## When entries are partial -/

/-- Along every run from a seeded cache an entry is unknown in all fields or holds a
known idle fraction, and a call that reports a socket as eligible leaves its idle
fraction known.  Unless a visit writes the sentinel into another field, or a placement
turns a known field into it, every entry is unknown in all fields or fresh, and the
entry of a socket that is reported as eligible is fresh. -/
theorem entries_partial_only_by_sentinel [LawfulScalar α] (d : Deployment σ α)
    {file : TopologyFile α} (haccepted : Topology.ofFile file = .ok d.topology)
    {s : State σ α} {ttl now : ℕ} {keys : List SocketKey}
    (hseeded : s.cache = .seeded ttl keys now) {steps : List (Step σ α)}
    (hsteps : ∀ step ∈ steps, step.isDirectWrite = false) :
    let reached := (d.run s steps).2
    let after := fun name => (d.scoreNode name reached).2
    let eligible := fun name (n : Node) (socket : Socket) =>
      d.topology.requireNode name = .ok n ∧ ∃ r, (d.scoreNode name reached).1 = .ok r ∧
        ∃ line ∈ r.sockets, line.socket = socket.id ∧ line.eligible = true
    ((∀ k, reached.cache.get k = .unknown ∨
        Entry.isKnown (reached.cache.get k).c6res = true) ∧
      ∀ name n socket, eligible name n socket →
        Entry.isKnown ((after name).cache.get (n.key socket)).c6res = true) ∧
    ((∀ i, d.Teaches (d.run s (steps.take i)).2.store fun e => e.isFresh = true) →
      (∀ i step, steps[i]? = some step → ∀ k,
        let e := (d.run s (steps.take i)).2.cache.get k
        e.isFresh = true → (d.placedOn k e step).isFresh = true) →
      (∀ k, reached.cache.get k = .unknown ∨ (reached.cache.get k).isFresh = true) ∧
        ∀ name n socket, eligible name n socket →
          ((after name).cache.get (n.key socket)).isFresh = true) := by
  intro reached after eligible
  have hconsistent := Topology.isConsistent_of_ofFile haccepted
  have hblank : s.cache.IsBlank := hseeded ▸ Cache.isBlank_seeded ttl keys now
  constructor
  · constructor
    · refine all_unknown_or_run (P := fun e => Entry.isKnown e.c6res = true) hconsistent hsteps
        ?_ ?_ hblank
      · exact fun i step _ k he => isKnown_placedOn k step he
      · exact fun i name n hn socket hsocket entry e hlearned =>
          Visit.isKnown_of_learned hlearned
    · rintro name n socket ⟨hn, r, hr, line, hline, hid, heligible⟩
      exact isKnown_of_eligible hconsistent hn hr hline hid heligible
  · intro hteaches hplaced
    have hall := all_unknown_or_run hconsistent hsteps hplaced hteaches hblank
    refine ⟨hall, ?_⟩
    rintro name n socket ⟨hn, r, hr, line, hline, hid, heligible⟩
    have hend := hteaches steps.length
    rw [List.take_length] at hend
    exact entry_of_eligible hconsistent hall hend hn hr hline hid heligible

/-- On the bench nothing negative is read or placed. -/
theorem entries_partial_only_by_sentinel_bench :
    let reached := (exactBench.run exactStart exactSteps).2
    (∀ k, reached.cache.get k = .unknown ∨ (reached.cache.get k).isFresh = true) ∧
      ((exactBench.scoreNode "bench" reached).2.cache.get ⟨"bench", 0⟩).isFresh = true := by
  intro reached
  have hreads : ∀ m, Source.steady.Reads m fun x : ℚ => 0 ≤ x :=
    fun m => (reads_steady m).imp fun x hx => hx.1
  have hprofiles : ∀ p : Placement, ∀ profile, exactBench.catalog[p.profile]? = some profile →
      0 ≤ profile.memRead ∧ 0 ≤ profile.memWrite := by
    intro p profile hprofile
    rw [eq_of_getElem?_exactBench hprofile]
    norm_num
  have hconsistent := Topology.isConsistent_of_ofFile ofFile_exactBench
  have hblank : exactStart.cache.IsBlank := Cache.isBlank_seeded 500 _ 0
  obtain ⟨-, hfresh⟩ := entries_partial_only_by_sentinel exactBench ofFile_exactBench
    (s := exactStart) rfl isDirectWrite_exactSteps
  obtain ⟨hentries, heligible⟩ := hfresh
    (fun i => (teaches_isFull (d := exactBench) hreads).imp fun e he => he.isFresh)
    (fun i step hstep k hfresh => isFresh_placedOn_of_nonneg hconsistent
      isDirectWrite_exactSteps (fun _ => hreads) (fun p _ => hprofiles p) hblank hstep k hfresh)
  have hnode : exactBench.topology.requireNode "bench" = .ok exactNode := rfl
  have hlines : ∃ r, (exactBench.scoreNode "bench" reached).1 = .ok r ∧
      ∃ line ∈ r.sockets, line.socket = 0 ∧ line.eligible = true :=
    exists_line_of_lines [(0, true), (1, true)] (by decide +kernel) List.mem_cons_self
  have hscored := heligible "bench" _ ⟨0, [0, 1]⟩ ⟨hnode, hlines⟩
  exact ⟨hentries, hscored⟩

/-- A socket whose throughput reads minus one is measured, and yet its entry is partly
unknown. -/
theorem entry_partial_bench :
    let store : Source := .constant [{ timestamp := 0, core := none, values :=
      [("c6res", .float 0.5), ("ipc", .int (-1)), ("mem_read", .int 1), ("mem_write", .int 1)] }]
    let call := bench.scoreNode "bench" (bench.start 500 3 store)
    let e := call.2.cache.get ⟨"bench", 0⟩
    (∃ r, call.1 = .ok r ∧ ∃ line ∈ r.sockets, line.socket = 0 ∧ line.eligible = true) ∧
      e ≠ .unknown ∧ e.isFresh = false := by
  intro store call e
  have hcall : call = bench.scoreNode "bench" _ :=
    congrArg (bench.scoreNode "bench") (start_bench 500 3 store)
  refine ⟨exists_line_of_lines [(0, true), (1, true)] ?_ List.mem_cons_self, ?_, ?_⟩
  · rw [hcall]
    decide +kernel
  · change call.2.cache.get ⟨"bench", 0⟩ ≠ .unknown
    rw [hcall]
    decide +kernel
  · change (call.2.cache.get ⟨"bench", 0⟩).isFresh = false
    rw [hcall]
    decide +kernel

end Deployment

end SocketRanking
