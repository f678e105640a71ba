import SocketRanking.Proofs.Service.PartialEntries

/-!
# Idle capacity before and after scoring

The idle query and scoring look for the idle fraction of a socket in the cache and,
if it is not known there, pool it from the same telemetry.  Scoring keeps what it has
pooled at the floor or above before it reports it and writes it back; the query takes
it as it is.  So after a call that has measured every socket the query adds up exactly
what the call has reported, but before the call it does so only if the floor changes
nothing.  A socket that is busy all the time has no idle capacity before it is scored,
and a little afterwards.
-/

namespace SocketRanking

variable {σ α : Type} [Scalar α]

def ScoringResult.idleCores (r : ScoringResult α) : α :=
  Scalar.sum (r.sockets.filterMap SocketScore.idleCores)

namespace Deployment

variable {d : Deployment σ α} {n : Node} {s : State σ α}

/-! ## The idle query -/

theorem idleFraction_congr {s' : State σ α} (hbasis : s.basis = s'.basis) (socket : Socket) :
    d.idleFraction n socket s = d.idleFraction n socket s' := by
  have hcache : s.cache = s'.cache := congrArg Basis.cache hbasis
  have hstore : s.store = s'.store := congrArg Basis.store hbasis
  unfold idleFraction
  rw [hcache, hstore]

theorem idleFraction_of_idle? {socket : Socket} {c6 : α}
    (hidle : (s.cache.get (n.key socket)).idle? = some c6) :
    (d.idleFraction n socket s).1 = .ok c6 := by
  change (s.cache.get { node := n.name, socket := socket.id }).idle? = some c6 at hidle
  unfold idleFraction
  rw [hidle]

theorem idleFraction_of_pooled {socket : Socket} {pooled : α}
    (hidle : (s.cache.get (n.key socket)).idle? = none)
    (hpooled : (measureIdle d.settings (d.source s.store) n.uuid socket).result = .ok pooled) :
    (d.idleFraction n socket s).1 = .ok pooled := by
  change (s.cache.get { node := n.name, socket := socket.id }).idle? = none at hidle
  unfold idleFraction
  rw [hidle]
  exact hpooled

/-- When the idle fraction of every socket is found, the query adds up idle cores. -/
theorem idleOver_of_lines {line : Socket → SocketScore α} {sockets : List Socket}
    (hfound : ∀ socket ∈ sockets, ∃ c6, (d.idleFraction n socket s).1 = .ok c6 ∧
      (line socket).idleCores = some (c6 * Scalar.ofCount socket.coreCount))
    (total : α) (failures : List Failure) :
    (d.idleOver n sockets total failures s).1 =
      .ok (((sockets.map line).filterMap SocketScore.idleCores).foldl (· + ·) total,
        failures) := by
  induction sockets generalizing total s with
  | nil => rfl
  | cons socket rest ih =>
      obtain ⟨⟨c6, hc6, hline⟩, hrest⟩ := List.forall_mem_cons.mp hfound
      rw [List.map_cons, List.filterMap_cons_some hline, List.foldl_cons, idleOver]
      rcases hcall : d.idleFraction n socket s with ⟨found, calls⟩
      obtain rfl : found = .ok c6 := by rw [← hc6, hcall]
      apply ih
      -- Recording the queries leaves the cache and the store as they are.
      intro socket' hsocket'
      have hsame : ((d.recordCalls calls s).count (Call.activity calls)).basis = s.basis := rfl
      rw [idleFraction_congr hsame]
      exact hrest socket' hsocket'

theorem idleCapacity_of_lines {name : String} (hn : d.topology.requireNode name = .ok n)
    {line : Socket → SocketScore α}
    (hfound : ∀ socket ∈ n.sockets, ∃ c6, (d.idleFraction n socket s).1 = .ok c6 ∧
      (line socket).idleCores = some (c6 * Scalar.ofCount socket.coreCount)) :
    (d.idleCapacity name s).1 =
      .ok (Scalar.sum ((n.sockets.map line).filterMap SocketScore.idleCores)) := by
  have hover := idleOver_of_lines hfound 0.0 []
  unfold idleCapacity
  rw [hn]
  dsimp only
  rcases hcall : d.idleOver n n.sockets 0.0 [] s with ⟨outcome, s'⟩
  rw [hcall] at hover
  obtain rfl := hover
  rfl

/-! ## Scoring -/

theorem idleCores_result (lines : List (SocketScore α)) :
    (d.result n lines).idleCores = Scalar.sum (lines.filterMap SocketScore.idleCores) := by
  have hgate : (d.settings.idleGate.apply lines).map SocketScore.idleCores =
      lines.map SocketScore.idleCores :=
    IdleGate.map_apply (fun _ _ => rfl) _ lines
  have hsame := congrArg (List.filterMap id) hgate
  rw [List.filterMap_map, List.filterMap_map] at hsame
  exact congrArg Scalar.sum hsame

/-- When every line is eligible, every socket has been measured. -/
theorem exists_measured_of_all_eligible (hconsistent : d.topology.IsConsistent) {name : String}
    (hn : d.topology.requireNode name = .ok n) {r : ScoringResult α}
    (hr : (d.scoreNode name s).1 = .ok r) (heligible : ∀ line ∈ r.sockets, line.eligible = true)
    {socket : Socket} (hsocket : socket ∈ n.sockets) :
    ∃ base c6, (s.basis.expire.visit d n socket).line socket = .measured socket base c6 ∧
      Visit.IdleFrom d.settings (d.source s.store) n.uuid socket
        (s.basis.expire.cache.get (n.key socket)) c6
        (s.basis.expire.visit d n socket).learned := by
  obtain ⟨spare, hline⟩ := exists_mem_sockets_of_scoreNode hconsistent hn hr hsocket
  have hmeasured : ((s.basis.expire.visit d n socket).line socket).eligible = true := by
    have hgated := heligible _ hline
    exact hgated
  obtain ⟨base, c6, houtcome, hfrom⟩ := Basis.exists_measured_of_eligible hmeasured
  exact ⟨base, c6, Visit.line_of_outcome houtcome socket, hfrom⟩

variable [LawfulScalar α]

/-- After the call the idle fraction of a measured socket is the one that was reported:
it was known before, or it has been written back. -/
theorem idleFraction_scoreNode (hconsistent : d.topology.IsConsistent) {name : String}
    (hn : d.topology.requireNode name = .ok n) {r : ScoringResult α}
    (hr : (d.scoreNode name s).1 = .ok r) {socket : Socket} (hsocket : socket ∈ n.sockets)
    {c6 : α}
    (hfrom : Visit.IdleFrom d.settings (d.source s.store) n.uuid socket
      (s.basis.expire.cache.get (n.key socket)) c6
      (s.basis.expire.visit d n socket).learned) :
    (d.idleFraction n socket (d.scoreNode name s).2).1 = .ok c6 := by
  apply idleFraction_of_idle?
  generalize hlearned : (s.basis.expire.visit d n socket).learned = learned at hfrom
  cases hfrom with
  | cache hidle =>
      have hknown := (Entry.idle?_eq_some_iff.mp hidle).1
      rw [get_scoreNode_of_isKnown hconsistent hn hknown]
      exact hidle
  | store hidle hpooled hfloor p =>
      rw [get_scoreNode_of_learned hconsistent hn hr hsocket hlearned, hfloor]
      exact Entry.idle?_measured p _

omit [LawfulScalar α] in
/-- Before the call it is the one that will be reported if it is known, or if the floor
does not change what is pooled. -/
theorem idleFraction_of_idleFrom (hunexpired : s.cache.isExpired s.now = false)
    {socket : Socket} {c6 : α} {learned : Option (Entry α)}
    (hfrom : Visit.IdleFrom d.settings (d.source s.store) n.uuid socket
      (s.basis.expire.cache.get (n.key socket)) c6 learned)
    (hfloor : (s.cache.get (n.key socket)).idle? = none → ∀ pooled : α,
      (measureIdle d.settings (d.source s.store) n.uuid socket).result = .ok pooled →
        Scalar.atLeast Entry.idleEpsilon pooled = pooled) :
    (d.idleFraction n socket s).1 = .ok c6 := by
  have hget : s.basis.expire.cache.get (n.key socket) = s.cache.get (n.key socket) := by
    have hkept := s.cache.get_invalidateIfExpired s.now (n.key socket)
    rw [hunexpired] at hkept
    exact hkept
  rw [hget] at hfrom
  cases hfrom with
  | cache hidle => exact idleFraction_of_idle? hidle
  | store hidle hpooled hc6 p =>
      rw [hc6, hfloor hidle _ hpooled]
      exact idleFraction_of_pooled hidle hpooled

/-! ## A call between two queries -/

omit [LawfulScalar α] in
theorem step_idleCapacity_of_ok {name : String} {cores : α}
    (hcores : (d.idleCapacity name s).1 = .ok cores) :
    (d.step s (.idleCapacity name)).1 = .idle cores := by
  rw [Deployment.step]
  rcases hcall : d.idleCapacity name s with ⟨answer, s'⟩
  rw [hcall] at hcores
  obtain rfl := hcores
  rfl

omit [LawfulScalar α] in
theorem step_eq_scored_iff {name : String} {r : ScoringResult α} :
    (d.step s (.score name)).1 = .scored r ↔ (d.scoreNode name s).1 = .ok r := by
  rw [Deployment.step, score]
  rcases d.scoreNode name s with ⟨(failure | text) | r', s'⟩ <;> simp

/-- A node is asked for its idle capacity, scored, and asked again.  If the call finds
every socket eligible, then the second answer is what the lines of its result add up to.
The first answer is that as well, provided that the floor does not change the idle
fraction of any socket that has to be pooled. -/
theorem idleCapacity_around_score (d : Deployment σ α) {file : TopologyFile α}
    (haccepted : Topology.ofFile file = .ok d.topology) {s : State σ α}
    (hunexpired : s.cache.isExpired s.now = false) {name : String} {n : Node}
    (hn : d.topology.requireNode name = .ok n) {before after : Answer α}
    {r : ScoringResult α}
    (hanswers : (d.run s [.idleCapacity name, .score name, .idleCapacity name]).1 =
      [before, .scored r, after])
    (heligible : ∀ line ∈ r.sockets, line.eligible = true) :
    after = .idle r.idleCores ∧
      ((∀ socket ∈ n.sockets, (s.cache.get (n.key socket)).idle? = none → ∀ pooled : α,
          (measureIdle d.settings (d.source s.store) n.uuid socket).result = .ok pooled →
            Scalar.atLeast Entry.idleEpsilon pooled = pooled) →
        before = .idle r.idleCores) := by
  have hconsistent := Topology.isConsistent_of_ofFile haccepted
  set asked := (d.step s (.idleCapacity name)).2 with hasked
  set scored := (d.step asked (.score name)).2 with hscored
  obtain ⟨hbefore, hrest⟩ := List.cons.inj hanswers
  obtain ⟨hresult, hrest⟩ := List.cons.inj hrest
  obtain ⟨hafter, -⟩ := List.cons.inj hrest
  have hr : (d.scoreNode name asked).1 = .ok r := step_eq_scored_iff.mp hresult
  have hbasis : s.basis = asked.basis := (basis_step hconsistent s (.idleCapacity name)).symm
  have hbasis' : scored.basis = (d.scoreNode name asked).2.basis := basis_step_score d name asked
  obtain ⟨n', hn', hlines⟩ := eq_result_of_scoreNode_eq_ok hconsistent hr
  obtain rfl : n = n' := Except.ok.inj (hn.symm.trans hn')
  have hcores : r.idleCores = Scalar.sum ((n.sockets.map fun socket =>
      (asked.basis.expire.visit d n socket).line socket).filterMap SocketScore.idleCores) := by
    rw [hlines]
    exact idleCores_result _
  constructor
  · have hcapacity : (d.idleCapacity name scored).1 = .ok r.idleCores := by
      rw [hcores]
      apply idleCapacity_of_lines hn
      intro socket hsocket
      obtain ⟨base, c6, hline, hfrom⟩ :=
        exists_measured_of_all_eligible hconsistent hn hr heligible hsocket
      refine ⟨c6, ?_, by rw [hline]; rfl⟩
      rw [idleFraction_congr hbasis']
      exact idleFraction_scoreNode hconsistent hn hr hsocket hfrom
    rw [← hafter]
    exact step_idleCapacity_of_ok hcapacity
  · intro hfloor
    have hcapacity : (d.idleCapacity name s).1 = .ok r.idleCores := by
      rw [hcores]
      apply idleCapacity_of_lines hn
      intro socket hsocket
      obtain ⟨base, c6, hline, hfrom⟩ :=
        exists_measured_of_all_eligible hconsistent hn hr heligible hsocket
      refine ⟨c6, ?_, by rw [hline]; rfl⟩
      have hstore : d.source asked.store = d.source s.store :=
        congrArg (fun b => d.source b.store) hbasis.symm
      rw [← hbasis, hstore] at hfrom
      exact idleFraction_of_idleFrom hunexpired hfrom (hfloor socket hsocket)
    rw [← hbefore]
    exact step_idleCapacity_of_ok hcapacity

/-- On the bench every socket is idle for half of its time. -/
theorem idleCapacity_around_score_bench :
    ∃ r, (bench.run (bench.start 500 3 .steady)
        [.idleCapacity "bench", .score "bench", .idleCapacity "bench"]).1 =
      [.idle r.idleCores, .scored r, .idle r.idleCores] := by
  have hn : bench.topology.requireNode "bench" = .ok exactNode := rfl
  have hunexpired : (bench.start 500 3 .steady).cache.isExpired 0 = false := by
    rw [start_bench]
    decide +kernel
  have hfloor : ∀ socket ∈ exactNode.sockets, ∀ pooled : Float,
      (measureIdle bench.settings .steady "b-1" socket).result = .ok pooled →
        Scalar.atLeast Entry.idleEpsilon pooled = pooled := by
    have hhalf : ∀ socket ∈ exactNode.sockets,
        (measureIdle bench.settings .steady "b-1" socket).result = .ok (0.5 : Float) := by
      decide +kernel
    intro socket hsocket pooled hpooled
    obtain rfl := Except.ok.inj ((hhalf socket hsocket).symm.trans hpooled)
    decide +kernel
  have hcall : (bench.scoreNode "bench" (bench.step (bench.start 500 3 .steady)
      (.idleCapacity "bench")).2).1.toOption.any (·.sockets.all (·.eligible)) = true := by
    rw [start_bench]
    decide +kernel
  obtain ⟨r, hr, heligible⟩ := exists_of_any_toOption hcall
  rw [List.all_eq_true] at heligible
  have hanswers : (bench.run (bench.start 500 3 .steady)
      [.idleCapacity "bench", .score "bench", .idleCapacity "bench"]).1 = [_, .scored r, _] :=
    congrArg (fun answer => [_, answer, _]) (step_eq_scored_iff.mpr hr)
  obtain ⟨hafter, hbefore⟩ := idleCapacity_around_score bench Topology.ofFile_benchFile
    hunexpired hn hanswers heligible
  have hsame := hbefore fun socket hsocket _ => hfloor socket hsocket
  exact ⟨r, by rw [hanswers, hsame, hafter]⟩

/-- A node whose sockets are busy all the time gains idle capacity when it is scored. -/
theorem idleCapacity_moves_bench :
    let busy : Source := .constant [{ timestamp := 0, core := none, values :=
      [("c6res", .int 0), ("ipc", .int 1), ("mem_read", .int 1), ("mem_write", .int 1)] }]
    ∃ r, (bench.run (bench.start 500 3 busy)
        [.idleCapacity "bench", .score "bench", .idleCapacity "bench"]).1 =
          [.idle 0, .scored r, .idle 4e-8] ∧
      ∀ line ∈ r.sockets, line.eligible = true := by
  intro busy
  set s := bench.start 500 3 busy with hs
  have hbefore : (bench.idleCapacity "bench" s).1 = .ok 0 := by
    rw [hs, start_bench]
    decide +kernel
  set asked := (bench.step s (.idleCapacity "bench")).2 with hasked
  have hcall : (bench.scoreNode "bench" asked).1.toOption.any
      (·.sockets.all (·.eligible)) = true := by
    rw [hasked, hs, start_bench]
    decide +kernel
  obtain ⟨r, hr, heligible⟩ := exists_of_any_toOption hcall
  rw [List.all_eq_true] at heligible
  have hafter : (bench.idleCapacity "bench" (bench.step asked (.score "bench")).2).1 =
      .ok 4e-8 := by
    rw [hasked, hs, start_bench]
    decide +kernel
  refine ⟨r, ?_, heligible⟩
  rw [← step_idleCapacity_of_ok hbefore, ← step_eq_scored_iff.mpr hr,
    ← step_idleCapacity_of_ok hafter]
  rfl

end Deployment

end SocketRanking
