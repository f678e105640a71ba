import SocketRanking.Proofs.Service.CachedEntries

/-!
# Recording a placement

A placement names a node, one of its sockets and a profile.  They are looked up in this
order, and the first that is missing refuses the placement, which leaves the whole state
as it was.  A placement that resolves is folded into the entry of its socket and counted;
no other entry, no unknown field and no other part of the state takes part in it.
-/

namespace SocketRanking

variable {σ α : Type} [Scalar α]

/-! ## Entries -/

namespace Entry

/-- What a workload on a socket with so many cores makes of the entry `e`: throughput and
everything unknown stay, known traffic grows by that of the profile, and a known idle
fraction loses the share that the workload keeps busy if it counts toward idle capacity. -/
structure TakesUp (profile : AppProfile α) (cores : ℕ) (countsTowardIdle : Bool)
    (e e' : Entry α) : Prop where
  ipc : e'.ipc = e.ipc
  memRead_unknown : isKnown e.memRead = false → e'.memRead = e.memRead
  memRead : isKnown e.memRead = true → e'.memRead = e.memRead + profile.memRead
  memWrite_unknown : isKnown e.memWrite = false → e'.memWrite = e.memWrite
  memWrite : isKnown e.memWrite = true → e'.memWrite = e.memWrite + profile.memWrite
  c6res_unknown : isKnown e.c6res = false → e'.c6res = e.c6res
  c6res_uncounted : countsTowardIdle = false → e'.c6res = e.c6res
  c6res : isKnown e.c6res = true → countsTowardIdle = true →
    e'.c6res = Scalar.atLeast idleEpsilon
      (e.c6res - (100.0 - profile.c6res) / (100.0 * Scalar.ofCount (max cores 1)))

theorem raise_of_unknown {x : α} (hx : isKnown x = false) (amount : α) : raise x amount = x := by
  rw [raise, hx, if_neg Bool.false_ne_true]

theorem raise_of_known {x : α} (hx : isKnown x = true) (amount : α) :
    raise x amount = x + amount := by
  rw [raise, if_pos hx]

theorem takesUp_place (profile : AppProfile α) (cores : ℕ) (countsTowardIdle : Bool)
    (e : Entry α) :
    TakesUp profile cores countsTowardIdle e (e.place profile cores countsTowardIdle) where
  ipc := rfl
  memRead_unknown hread := raise_of_unknown hread profile.memRead
  memRead hread := raise_of_known hread profile.memRead
  memWrite_unknown hwrite := raise_of_unknown hwrite profile.memWrite
  memWrite hwrite := raise_of_known hwrite profile.memWrite
  c6res_unknown hidle := by simp [place, hidle]
  c6res_uncounted hcounts := by simp [place, hcounts]
  c6res hidle hcounts := by simp [place, hidle, hcounts, busyShare]

end Entry

/-! ## The cache -/

theorem Cache.getElem?_place (c : Cache α) (k : SocketKey) (profile : AppProfile α) (cores : ℕ)
    (countsTowardIdle : Bool) (k' : SocketKey) :
    (c.place k profile cores countsTowardIdle).entries[k']? =
      if k = k' then c.entries[k']?.map (·.place profile cores countsTowardIdle)
      else c.entries[k']? := by
  simp only [place, Std.TreeMap.getElem?_modify, Std.LawfulEqCmp.compare_eq_iff_eq]
  split
  next hk => rw [hk]
  next => rfl

/-! ## Looking up what a placement names -/

omit [Scalar α] in
theorem Node.mem_of_socket?_eq_some {n : Node} {id : UInt32} {socket : Socket}
    (hsocket : n.socket? id = some socket) : socket ∈ n.sockets ∧ socket.id = id := by
  refine ⟨List.mem_of_find?_eq_some hsocket, ?_⟩
  simpa using List.find?_some hsocket

namespace Deployment

/-- Why a placement is refused.  A check counts only if those before it pass. -/
inductive Refuses (d : Deployment σ α) (p : Placement) : Failure → Prop
  | unknownNode (hnode : d.topology.node? p.node = none) : Refuses d p (.unknownNode p.node)
  | unknownSocket {n : Node} (hnode : d.topology.node? p.node = some n)
      (hsocket : ∀ socket ∈ n.sockets, socket.id ≠ p.socket) :
      Refuses d p (.unknownSocket p.node p.socket)
  | unknownProfile {n : Node} {socket : Socket} (hnode : d.topology.node? p.node = some n)
      (hsocket : socket ∈ n.sockets) (hid : socket.id = p.socket)
      (hprofile : d.catalog[p.profile]? = none) : Refuses d p (.unknownProfile p.profile)

/-- What a placement names, looked up in the topology and the catalog. -/
structure Names (d : Deployment σ α) (p : Placement) (n : Node) (socket : Socket)
    (profile : AppProfile α) : Prop where
  node : d.topology.node? p.node = some n
  socket_mem : socket ∈ n.sockets
  socket_id : socket.id = p.socket
  profile : d.catalog[p.profile]? = some profile

variable {d : Deployment σ α}

omit [Scalar α] in
theorem names_of_resolve_eq_ok {p : Placement} {n : Node} {socket : Socket}
    {profile : AppProfile α} (hresolve : d.resolve p = .ok (n, socket, profile)) :
    d.Names p n socket profile := by
  obtain ⟨hnode, hsocket, hprofile⟩ := of_resolve_eq_ok hresolve
  obtain ⟨hmem, hid⟩ := Node.mem_of_socket?_eq_some hsocket
  exact ⟨Topology.requireNode_eq_ok_iff.mp hnode, hmem, hid, hprofile⟩

omit [Scalar α] in
/-- The lookups fail as they are checked. -/
theorem resolve_eq_error_iff {p : Placement} {e : Failure} :
    d.resolve p = .error e ↔ d.Refuses p e := by
  rw [resolve_eq_lookups]
  constructor
  · intro hfailed
    split at hfailed
    next hnode =>
      obtain rfl := Except.error.inj hfailed
      exact .unknownNode hnode
    next n hnode =>
      split at hfailed
      next hsocket =>
        obtain rfl := Except.error.inj hfailed
        refine .unknownSocket hnode fun socket hmem hid => ?_
        have hother := List.find?_eq_none.mp hsocket socket hmem
        exact hother (decide_eq_true hid)
      next socket hsocket =>
        obtain ⟨hmem, hid⟩ := Node.mem_of_socket?_eq_some hsocket
        split at hfailed
        next hprofile =>
          obtain rfl := Except.error.inj hfailed
          exact .unknownProfile hnode hmem hid hprofile
        next => cases hfailed
  · intro hrefused
    cases hrefused with
    | unknownNode hnode => rw [hnode]
    | unknownSocket hnode hsocket =>
        rename_i n
        have hnone : n.socket? p.socket = none := by
          refine List.find?_eq_none.mpr fun socket hmem hid => ?_
          exact hsocket socket hmem (of_decide_eq_true hid)
        rw [hnode]
        simp only [hnone]
    | unknownProfile hnode hsocket hid hprofile =>
        rename_i n socket
        have hsome : (n.socket? p.socket).isSome := by
          rw [Node.socket?, List.find?_isSome]
          exact ⟨socket, hsocket, decide_eq_true hid⟩
        obtain ⟨socket', hsocket'⟩ := Option.isSome_iff_exists.mp hsome
        rw [hnode]
        simp only [hsocket', hprofile]

/-- Whether a placement is accepted does not depend on the state. -/
theorem fst_recordPlacement (d : Deployment σ α) (p : Placement) (s : State σ α) :
    (d.recordPlacement p s).1 = (d.resolve p).map fun _ => () := by
  unfold recordPlacement
  cases d.resolve p <;> rfl

theorem recordPlacement_of_error {p : Placement} {e : Failure} (hresolve : d.resolve p = .error e)
    (s : State σ α) : d.recordPlacement p s = (.error e, s) := by
  rw [recordPlacement, hresolve]

/-- A placement that resolves is folded into the entry of the socket that it names. -/
theorem recordPlacement_of_ok (hconsistent : d.topology.IsConsistent) {p : Placement} {n : Node}
    {socket : Socket} {profile : AppProfile α}
    (hresolve : d.resolve p = .ok (n, socket, profile)) (s : State σ α) :
    let k : SocketKey := { node := p.node, socket := p.socket }
    d.recordPlacement p s = (.ok (),
      { s with
        cache := s.cache.place k profile socket.coreCount p.countsTowardIdle
        activity := { s.activity with placementsRecorded := s.activity.placementsRecorded + 1 }
        journal := s.journal ++
          [.placementRecorded p.node p.socket p.profile p.countsTowardIdle] }) := by
  have hnames := names_of_resolve_eq_ok hresolve
  rw [recordPlacement, hresolve, ← hconsistent.name_eq hnames.node, ← hnames.socket_id]
  rfl

/-- Recording a placement is all or nothing.  It fails with the first of the three lookups
that fails, and then leaves the whole state as it was.  Otherwise it moves the counter of
placements by one, reports the placement and touches the entry of the named socket: what
is known there takes up the workload, by the number of cores of that socket.  The timer,
every other entry and the rest of the state stay. -/
theorem recordPlacement_all_or_nothing {file : TopologyFile α}
    (haccepted : Topology.ofFile file = .ok d.topology) (p : Placement) (s : State σ α) :
    let outcome := (d.recordPlacement p s).1
    let s' := (d.recordPlacement p s).2
    let k : SocketKey := { node := p.node, socket := p.socket }
    (∀ e, outcome = .error e ↔ d.Refuses p e) ∧
    (∀ e, outcome = .error e → s' = s) ∧
    (outcome = .ok () →
      (∀ k', k' ≠ k → s'.cache.entries[k']? = s.cache.entries[k']?) ∧
      s' = { s with
        cache := { s.cache with entries := s'.cache.entries }
        activity :=
          { s.activity with placementsRecorded := s.activity.placementsRecorded + 1 }
        journal := s.journal ++
          [.placementRecorded p.node p.socket p.profile p.countsTowardIdle] } ∧
      ∃ n socket profile, d.Names p n socket profile ∧
        Option.Rel (Entry.TakesUp profile socket.cores.length p.countsTowardIdle)
          s.cache.entries[k]? s'.cache.entries[k]?) := by
  intro outcome s' k
  have hconsistent := Topology.isConsistent_of_ofFile haccepted
  cases hresolve : d.resolve p with
  | error e =>
      have hrecorded := recordPlacement_of_error hresolve s
      have houtcome : outcome = .error e := congrArg Prod.fst hrecorded
      have hstate : s' = s := congrArg Prod.snd hrecorded
      refine ⟨fun e' => ?_, fun _ _ => hstate, fun hok => ?_⟩
      · rw [← resolve_eq_error_iff, hresolve, houtcome, Except.error.injEq, Except.error.injEq]
      · rw [houtcome] at hok
        cases hok
  | ok found =>
      obtain ⟨n, socket, profile⟩ := found
      have hrecorded := recordPlacement_of_ok hconsistent hresolve s
      have houtcome : outcome = .ok () := congrArg Prod.fst hrecorded
      have hstate : s' = _ := congrArg Prod.snd hrecorded
      have hentries : s'.cache.entries =
          (s.cache.place k profile socket.coreCount p.countsTowardIdle).entries := by
        rw [hstate]
      refine ⟨fun e' => ?_, fun e' hfailed => ?_, fun _ => ⟨?_, ?_, n, socket, profile, ?_, ?_⟩⟩
      · rw [← resolve_eq_error_iff, hresolve, houtcome]
        exact iff_of_false nofun nofun
      · rw [houtcome] at hfailed
        cases hfailed
      · intro k' hapart
        rw [hentries, Cache.getElem?_place, if_neg hapart.symm]
      · rw [hentries, hstate]
        rfl
      · exact names_of_resolve_eq_ok hresolve
      · rw [hentries, Cache.getElem?_place, if_pos rfl]
        cases s.cache.entries[k]? with
        | none => exact .none
        | some e => exact .some (Entry.takesUp_place profile socket.coreCount p.countsTowardIdle e)

/-- A placement that names nothing is refused for its node; one that names a socket is
counted. -/
theorem recordPlacement_all_or_nothing_bench :
    let d : Deployment Source Float := { bench with catalog := .builtin }
    let s := d.start 500 3 .steady
    let stray : Placement := { node := "other", socket := 7, profile := "none" }
    let p : Placement := { node := "bench", socket := 1, profile := "spec-leslie" }
    d.recordPlacement stray s = (.error (.unknownNode "other"), s) ∧
      (d.recordPlacement p s).1 = .ok () ∧
      (d.recordPlacement p s).2.activity.placementsRecorded = 1 := by
  intro d s stray p
  obtain ⟨hrefused, hkept, -⟩ :=
    recordPlacement_all_or_nothing (d := d) Topology.ofFile_benchFile stray s
  have hunknown : d.topology.node? stray.node = none := by
    decide +kernel
  have houtcome := (hrefused _).mpr (.unknownNode hunknown)
  have haccepts : (d.recordPlacement p s).1 = .ok () := by
    rw [fst_recordPlacement]
    decide +kernel
  obtain ⟨-, -, hplaced⟩ := recordPlacement_all_or_nothing (d := d) Topology.ofFile_benchFile p s
  refine ⟨Prod.ext houtcome (hkept _ houtcome), haccepts, ?_⟩
  rw [(hplaced haccepts).2.1]
  rfl

end Deployment

end SocketRanking
