import SocketRanking.Proofs.Scoring.Gate
import SocketRanking.Proofs.Service.PartialEntries

/-!
# Isolation of sibling sockets

One loop visits all sockets of a node, and its visits share the cache, the timer and the
store.  Still nothing that happens to one socket reaches another: a visit reads its own
entry and asks about its own socket, and what it writes goes under its own key.  So two
calls from states that show the same of a socket visit it alike and leave the same entry,
whatever becomes of its siblings.  Siblings meet only in the idle gate, which looks at
those before a socket, or at all of them.
-/

namespace SocketRanking

variable {σ α : Type} [Scalar α]

namespace Deployment

/-- Two states show the same of a socket: its entry, and what the store answers about it. -/
structure AgreesOn (d : Deployment σ α) (n : Node) (socket : Socket) (s s' : State σ α) :
    Prop where
  entry : s.cache.get (n.key socket) = s'.cache.get (n.key socket)
  answers : ∀ q : Query, q.uuid = n.uuid → q.socket = socket.id →
    d.source s.store q = d.source s'.store q

/-- From both states, calls that score the node visit the socket that follows `before`
alike and leave the same entry of it.  Its lines in two results differ in the gated
score at most, and in order not even there if the states show the same of the sockets
before it.  If the first call fails, the second does not report the socket as eligible. -/
structure IsolatesAt (d : Deployment σ α) (name : String) (n : Node) (before : List Socket)
    (socket : Socket) (s s' : State σ α) : Prop where
  visited : ∃ v, (d.visitAll n n.sockets (expire s)).1[before.length]? = some v ∧
    (d.visitAll n n.sockets (expire s')).1[before.length]? = some v
  entry : (d.scoreNode name s).2.cache.get (n.key socket) =
    (d.scoreNode name s').2.cache.get (n.key socket)
  line : ∀ r r', (d.scoreNode name s).1 = .ok r → (d.scoreNode name s').1 = .ok r' →
    ∃ line line', r.sockets[before.length]? = some line ∧
      r'.sockets[before.length]? = some line' ∧ line.socket = socket.id ∧
      line' = { line with gatedScore := line'.gatedScore }
  gated : d.settings.idleGate = .inOrder → (∀ earlier ∈ before, d.AgreesOn n earlier s s') →
    ∀ r r', (d.scoreNode name s).1 = .ok r → (d.scoreNode name s').1 = .ok r' →
      r.sockets[before.length]? = r'.sockets[before.length]?
  ineligible : ∀ t r', (d.scoreNode name s).1 = .error t → (d.scoreNode name s').1 = .ok r' →
    ∃ line', r'.sockets[before.length]? = some line' ∧ line'.eligible = false

end Deployment

/-! ## A visit depends on its own socket -/

theorem Call.make_congr {source source' : Source} {q : Query} (hanswer : source q = source' q) :
    make source q = make source' q := by
  rw [make, make, hanswer]

namespace Visit

/-- A visit asks about its own socket only. -/
theorem run_congr {settings : Settings} {source source' : Source} {uuid : String}
    {socket : Socket}
    (hanswers : ∀ q : Query, q.uuid = uuid → q.socket = socket.id → source q = source' q)
    (entry : Entry α) :
    run settings source uuid socket entry = run settings source' uuid socket entry := by
  have hperformance : (measurePerformance settings source uuid socket :
      Measurement (MetricSet α)) = measurePerformance settings source' uuid socket := by
    unfold measurePerformance
    dsimp only
    rw [Call.make_congr (hanswers _ rfl rfl)]
  have hidle : (measureIdle settings source uuid socket : Measurement α) =
      measureIdle settings source' uuid socket := by
    unfold measureIdle
    dsimp only
    rw [Call.make_congr (hanswers _ rfl rfl)]
  unfold run finish
  rw [hperformance, hidle]

end Visit

namespace Deployment

variable {d : Deployment σ α} {n : Node} {socket : Socket} {s s' : State σ α}

theorem AgreesOn.get_expire (hagrees : d.AgreesOn n socket s s')
    (hexpired : s.cache.isExpired s.now = s'.cache.isExpired s'.now) :
    (s.cache.invalidateIfExpired s.now).get (n.key socket) =
      (s'.cache.invalidateIfExpired s'.now).get (n.key socket) := by
  rw [Cache.get_invalidateIfExpired, Cache.get_invalidateIfExpired, hexpired, hagrees.entry]

theorem AgreesOn.visit_expire (hagrees : d.AgreesOn n socket s s')
    (hexpired : s.cache.isExpired s.now = s'.cache.isExpired s'.now) :
    s.basis.expire.visit d n socket = s'.basis.expire.visit d n socket := by
  have hentry : s.basis.expire.cache.get (n.key socket) =
      s'.basis.expire.cache.get (n.key socket) :=
    hagrees.get_expire hexpired
  rw [Basis.visit, Basis.visit, hentry]
  exact Visit.run_congr hagrees.answers _

/-! ## Calls that do not break down -/

section

variable (hconsistent : d.topology.IsConsistent) {name : String}
  (hn : d.topology.requireNode name = .ok n)

include hconsistent hn

theorem visits_visitAll (s : State σ α) :
    (d.visitAll n n.sockets (expire s)).1 = s.basis.expire.visits d n := by
  have hsockets := hconsistent.nodup_sockets (Topology.requireNode_eq_ok_iff.mp hn)
  rw [(visitAll_basis d n hsockets (expire s)).1, basis_expire]
  rfl

variable (hsound : ∀ text, (d.scoreNode name s).1 ≠ .error (.crashed text))

include hsound

/-- A call in which the store does not break down visits every socket. -/
theorem visits_of_not_crashed :
    s.basis.expire.visits d n = n.sockets.map (s.basis.expire.visit d n) := by
  apply throughCrash_eq_self
  by_contra hcrash
  obtain ⟨text, htext⟩ := Option.ne_none_iff_exists'.mp hcrash
  apply hsound text
  rw [answer_scoreNode hconsistent hn, conclude, Basis.visits, htext]

/-- Such a call leaves what the visit of a socket has learned, or the entry as it was. -/
theorem get_scoreNode (hsocket : socket ∈ n.sockets) :
    (d.scoreNode name s).2.cache.get (n.key socket) =
      (s.basis.expire.visit d n socket).learned.getD
        ((s.cache.invalidateIfExpired s.now).get (n.key socket)) := by
  have hnodup := hconsistent.nodup_sockets (Topology.requireNode_eq_ok_iff.mp hn)
  rw [cache_scoreNode hconsistent hn]
  cases hlearned : (s.basis.expire.visit d n socket).learned with
  | some e =>
      rw [visits_of_not_crashed hconsistent hn hsound]
      exact Cache.get_record_of_mem (Visit.nodup_keys_writes hnodup _)
        (Visit.mem_writes_map hsocket hlearned) s.now
  | none =>
      apply Cache.get_record_of_notMem
      intro hwritten
      obtain ⟨⟨k, e⟩, hwrite, hkey⟩ := List.mem_map.mp hwritten
      obtain ⟨other, v, hzip, hother, hv⟩ := Visit.exists_of_mem_writes hwrite
      obtain ⟨hmem, rfl⟩ := Visit.mem_zip_throughCrash hzip
      -- Only the visit of the socket itself writes under its key.
      have hid : other.id = socket.id := Node.key_eq_key.mp (hother.symm.trans hkey)
      obtain rfl := List.inj_on_of_nodup_map hnodup hmem hsocket hid
      rw [hlearned] at hv
      cases hv

end

/-! ## Lines of a result -/

variable {before after : List Socket}

omit [Scalar α] in
theorem getElem?_map_sockets {β : Type} (f : Socket → β)
    (hsockets : n.sockets = before ++ socket :: after) :
    (n.sockets.map f)[before.length]? = some (f socket) := by
  simp [hsockets]

/-- The line of the socket that follows `before` is that of its visit, gated. -/
theorem getElem?_sockets_of_scoreNode (hconsistent : d.topology.IsConsistent) {name : String}
    (hn : d.topology.requireNode name = .ok n) (hsockets : n.sockets = before ++ socket :: after)
    {r : ScoringResult α} (hr : (d.scoreNode name s).1 = .ok r) :
    r.sockets[before.length]? = some (((s.basis.expire.visit d n socket).line socket).gate
      (d.settings.idleGate.spareAt (n.sockets.map fun socket =>
        (s.basis.expire.visit d n socket).line socket) before.length)) := by
  obtain ⟨n', hn', rfl⟩ := eq_result_of_scoreNode_eq_ok hconsistent hr
  obtain rfl := Except.ok.inj (hn.symm.trans hn')
  refine (d.settings.idleGate.getElem?_apply _ _).trans ?_
  rw [getElem?_map_sockets _ hsockets]
  rfl

/-- The visits of a call that fails with the store have all been outages. -/
theorem eligible_line_of_failed (hconsistent : d.topology.IsConsistent) {name : String}
    (hn : d.topology.requireNode name = .ok n)
    (hsound : ∀ text, (d.scoreNode name s).1 ≠ .error (.crashed text)) {t : Trouble}
    (ht : (d.scoreNode name s).1 = .error t) (hsocket : socket ∈ n.sockets) :
    ((s.basis.expire.visit d n socket).line socket).eligible = false := by
  have hvisits := visits_of_not_crashed hconsistent hn hsound
  cases t with
  | crashed text => exact absurd ht (hsound text)
  | failed e =>
      have hv : s.basis.expire.visit d n socket ∈ s.basis.expire.visits d n := by
        rw [hvisits]
        exact List.mem_map_of_mem hsocket
      cases houtcome : (s.basis.expire.visit d n socket).outcome with
      | ok score => exact absurd ht (scoreNode_ne_failed hconsistent hn hv houtcome e)
      | error trouble =>
          rw [Visit.line, houtcome]
          rfl

/-! ## Two calls -/

/-- Two calls that do not break down, from states that show the same of a socket, treat
the socket alike, whatever the states show of its siblings. -/
theorem scoreNode_isolatesAt (d : Deployment σ α) {file : TopologyFile α}
    (haccepted : Topology.ofFile file = .ok d.topology) {name : String} {n : Node}
    (hn : d.topology.requireNode name = .ok n) {before after : List Socket} {socket : Socket}
    (hsockets : n.sockets = before ++ socket :: after) {s s' : State σ α}
    (hsound : ∀ text, (d.scoreNode name s).1 ≠ .error (.crashed text))
    (hsound' : ∀ text, (d.scoreNode name s').1 ≠ .error (.crashed text))
    (hexpired : s.cache.isExpired s.now = s'.cache.isExpired s'.now)
    (hagrees : d.AgreesOn n socket s s') : d.IsolatesAt name n before socket s s' := by
  have hconsistent := Topology.isConsistent_of_ofFile haccepted
  have hvisit := hagrees.visit_expire hexpired
  have hsocket : socket ∈ n.sockets := by
    rw [hsockets]
    exact List.mem_append_right before List.mem_cons_self
  constructor
  case visited =>
    refine ⟨s.basis.expire.visit d n socket, ?_, ?_⟩
    · rw [visits_visitAll hconsistent hn, visits_of_not_crashed hconsistent hn hsound]
      exact getElem?_map_sockets _ hsockets
    · rw [visits_visitAll hconsistent hn, visits_of_not_crashed hconsistent hn hsound', hvisit]
      exact getElem?_map_sockets _ hsockets
  case entry =>
    rw [get_scoreNode hconsistent hn hsound hsocket, get_scoreNode hconsistent hn hsound' hsocket,
      hvisit, hagrees.get_expire hexpired]
  case line =>
    intro r r' hr hr'
    refine ⟨_, _, getElem?_sockets_of_scoreNode hconsistent hn hsockets hr,
      getElem?_sockets_of_scoreNode hconsistent hn hsockets hr', ?_, ?_⟩
    · exact (Basis.socket_line d s.basis.expire n socket).1
    · rw [hvisit]
      rfl
  case gated =>
    intro hmode hearlier r r' hr hr'
    have hlines : ∀ other ∈ before ++ [socket],
        (s.basis.expire.visit d n other).line other =
          (s'.basis.expire.visit d n other).line other := by
      intro other hother
      rcases List.mem_append.mp hother with hbefore | hlast
      · rw [(hearlier other hbefore).visit_expire hexpired]
      · rw [List.mem_singleton.mp hlast, hvisit]
    have htake : n.sockets.take (before.length + 1) = before ++ [socket] := by
      rw [hsockets, List.take_length_add_append]
      rfl
    rw [getElem?_sockets_of_scoreNode hconsistent hn hsockets hr,
      getElem?_sockets_of_scoreNode hconsistent hn hsockets hr', hvisit, hmode]
    -- In order the gate looks no further than the socket itself.
    unfold IdleGate.spareAt
    dsimp only
    rw [← List.map_take, ← List.map_take, htake, List.map_congr_left hlines]
  case ineligible =>
    intro t r' ht hr'
    refine ⟨_, getElem?_sockets_of_scoreNode hconsistent hn hsockets hr', ?_⟩
    rw [← hvisit]
    exact eligible_line_of_failed hconsistent hn hsound ht hsocket

/-- A store that fails for the first socket. -/
def halfDown : Source :=
  Source.steady.withOutages
    [{ socket := some 0, outage := .failed (.telemetryUnavailable "down") }]

/-- The last socket of the bench, whether or not the store fails for the other one. -/
theorem scoreNode_isolatesAt_bench :
    (bench.scoreNode "bench" (bench.start 500 3 .steady)).1.toOption.any
        (·.sockets.all (·.eligible)) = true ∧
      (bench.scoreNode "bench" (bench.start 500 3 halfDown)).1.toOption.any
        (·.sockets.any (!·.eligible)) = true ∧
      bench.IsolatesAt "bench" exactNode [⟨0, [0, 1]⟩] ⟨1, [2, 3]⟩
        (bench.start 500 3 .steady) (bench.start 500 3 halfDown) := by
  have hall : (bench.scoreNode "bench" (bench.start 500 3 .steady)).1.toOption.any
      (·.sockets.all (·.eligible)) = true := by
    rw [start_bench]
    decide +kernel
  have hsome : (bench.scoreNode "bench" (bench.start 500 3 halfDown)).1.toOption.any
      (·.sockets.any (!·.eligible)) = true := by
    rw [start_bench]
    decide +kernel
  refine ⟨hall, hsome, ?_⟩
  apply scoreNode_isolatesAt bench Topology.ofFile_benchFile rfl rfl
  · obtain ⟨r, hr, -⟩ := exists_of_any_toOption hall
    simp [hr]
  · obtain ⟨r, hr, -⟩ := exists_of_any_toOption hsome
    simp [hr]
  · rfl
  · refine ⟨rfl, ?_⟩
    intro q _ hsocket
    change Source.steady q = halfDown q
    have hcovered : (0 : UInt32) ≠ q.socket := by
      rw [hsocket]
      decide
    simp [halfDown, Source.withOutages, OutageRule.covers, hcovered]

end Deployment

end SocketRanking
