import SocketRanking.Proofs.Scoring.Winner
import SocketRanking.Proofs.Service.PartialEntries
import SocketRanking.Telemetry.Log

/-!
# The socket that an answer names

The answer of a scoring call lists the sockets of the node in topology order and
names the first one with the highest gated score, if that score is positive.  In
exact arithmetic the idle gate never takes the last chance from a busy socket, since
idle fractions stay at the floor or above.  And if telemetry is held in memory, a
socket without cores never wins: its idle fraction has no rows to be pooled from, so
the cache never knows anything of it.
-/

namespace SocketRanking

variable {σ α : Type} [Scalar α]

/-- The lines of the result are those of the sockets of the node, and the result names
the first of those with the highest gated score, if that is positive. -/
structure ScoringResult.NamesBest (r : ScoringResult α) (n : Node) : Prop where
  lines : r.sockets.map (fun line => (line.socket, line.cores)) =
    n.sockets.map fun socket => (socket.id, socket.coreCount)
  ineligible : ∀ line ∈ r.sockets, line.eligible = false → line.gatedScore = 0.0
  named : ∀ id, r.socket = some id → ∃ before w after, r.sockets = before ++ w :: after ∧
    w.IsFirstBest before after ∧ w.socket = id ∧ w.eligible = true ∧ 0.0 < w.gatedScore ∧
    r.score = w.gatedScore ∧ r.coreCount = w.cores
  unnamed_iff : r.socket = none ↔ ∀ line ∈ r.sockets, ¬0.0 < line.gatedScore
  unnamed : r.socket = none → r.score = 0.0 ∧ r.coreCount = 0

namespace ScoringResult.NamesBest

variable {r : ScoringResult α} {n : Node}
  (hlines : r.sockets.map (fun line => (line.socket, line.cores)) =
    n.sockets.map fun socket => (socket.id, socket.coreCount))
  (hineligible : ∀ line ∈ r.sockets, line.eligible = false → line.gatedScore = 0.0)

include hlines hineligible

theorem of_unnamed (hsocket : r.socket = none)
    (hbelow : ∀ line ∈ r.sockets, ¬0.0 < line.gatedScore)
    (hzero : r.score = 0.0 ∧ r.coreCount = 0) : r.NamesBest n where
  lines := hlines
  ineligible := hineligible
  named := by
    intro id hid
    rw [hsocket] at hid
    cases hid
  unnamed_iff := ⟨fun _ => hbelow, fun _ => hsocket⟩
  unnamed := fun _ => hzero

theorem of_named [LawfulScalar α] {before after : List (SocketScore α)} {w : SocketScore α}
    (hsplit : r.sockets = before ++ w :: after) (hbest : w.IsFirstBest before after)
    (hsocket : r.socket = some w.socket) (hpositive : 0.0 < w.gatedScore)
    (hscore : r.score = w.gatedScore ∧ r.coreCount = w.cores) : r.NamesBest n := by
  have hw : w ∈ r.sockets := by
    rw [hsplit]
    exact List.mem_append_right before List.mem_cons_self
  have hnamed : r.socket ≠ none := by
    rw [hsocket]
    exact Option.some_ne_none w.socket
  have heligible : w.eligible = true := by
    by_contra hnot
    have hzero := hineligible w hw (Bool.eq_false_iff.mpr hnot)
    rw [hzero] at hpositive
    exact Scalar.lt_irrefl _ hpositive
  refine ⟨hlines, hineligible, ?_, ?_, ?_⟩
  · intro id hid
    obtain rfl := Option.some.inj (hsocket.symm.trans hid)
    exact ⟨before, w, after, hsplit, hbest, rfl, heligible, hpositive, hscore⟩
  · exact iff_of_false hnamed fun hbelow => hbelow w hw hpositive
  · intro hnone
    exact absurd hnone hnamed

end ScoringResult.NamesBest

namespace Deployment

section

variable {d : Deployment σ α} {n : Node}

/-! ## The winner of a call -/

theorem lines_scoreNode (hconsistent : d.topology.IsConsistent) {name : String}
    {s : State σ α} (hn : d.topology.requireNode name = .ok n) {r : ScoringResult α}
    (hr : (d.scoreNode name s).1 = .ok r) :
    r.sockets.map (fun line => (line.socket, line.cores)) =
      n.sockets.map fun socket => (socket.id, socket.coreCount) := by
  obtain ⟨n', hn', rfl⟩ := eq_result_of_scoreNode_eq_ok hconsistent hr
  obtain rfl := Except.ok.inj (hn.symm.trans hn')
  have hgate := IdleGate.map_apply (f := fun line : SocketScore α => (line.socket, line.cores))
    (fun _ _ => rfl) d.settings.idleGate
    (n.sockets.map fun socket => (s.basis.expire.visit d n socket).line socket)
  refine hgate.trans ?_
  rw [List.map_map]
  apply List.map_congr_left
  intro socket _
  obtain ⟨hid, hcores⟩ := Basis.socket_line d s.basis.expire n socket
  exact Prod.ext hid hcores

theorem gatedScore_of_ineligible {lines : List (SocketScore α)} {line : SocketScore α}
    (hline : line ∈ (d.result n lines).sockets) (hineligible : line.eligible = false) :
    line.gatedScore = 0.0 := by
  obtain ⟨s, hs, spare, rfl⟩ := IdleGate.exists_gate_of_mem_apply hline
  change s.eligible = false at hineligible
  change s.gatedBy spare = 0.0
  rw [SocketScore.gatedBy, hineligible]
  rfl

variable [TransitiveOrder α]

/-- A result without a winner is that of a node on which no gated score is positive. -/
theorem result_cases (d : Deployment σ α) (n : Node) (lines : List (SocketScore α)) :
    let r := d.result n lines
    (r.socket = none ∧ r.score = 0.0 ∧ r.coreCount = 0 ∧
        ∀ line ∈ r.sockets, ¬0.0 < line.gatedScore) ∨
      ∃ before w after, r.sockets = before ++ w :: after ∧ w.IsFirstBest before after ∧
        r.socket = some w.socket ∧ 0.0 < w.gatedScore ∧ r.score = w.gatedScore ∧
        r.coreCount = w.cores := by
  intro r
  rcases winner?_cases (d.settings.idleGate.apply lines) with
    ⟨hnone, hbelow⟩ | ⟨before, w, after, hsplit, hw, hpositive, hbest⟩
  · left
    have hscore : r.score = 0.0 := by
      simp only [r, result, hnone]
    have hcores : r.coreCount = 0 := by
      simp only [r, result, hnone]
    exact ⟨congrArg (Option.map SocketScore.socket) hnone, hscore, hcores, hbelow⟩
  · right
    have hscore : r.score = w.gatedScore := by
      simp only [r, result, hw]
    have hcores : r.coreCount = w.cores := by
      simp only [r, result, hw]
    exact ⟨before, w, after, hsplit, hbest, congrArg (Option.map SocketScore.socket) hw,
      hpositive, hscore, hcores⟩

theorem namesBest_scoreNode (hconsistent : d.topology.IsConsistent) {name : String}
    {s : State σ α} (hn : d.topology.requireNode name = .ok n) {r : ScoringResult α}
    (hr : (d.scoreNode name s).1 = .ok r) : r.NamesBest n := by
  have hlines := lines_scoreNode hconsistent hn hr
  obtain ⟨n', hn', hresult⟩ := eq_result_of_scoreNode_eq_ok hconsistent hr
  have hineligible : ∀ line ∈ r.sockets, line.eligible = false → line.gatedScore = 0.0 := by
    intro line hline
    rw [hresult] at hline
    exact gatedScore_of_ineligible hline
  have hcases := result_cases d n' (n'.sockets.map fun socket =>
    (s.basis.expire.visit d n' socket).line socket)
  rw [← hresult] at hcases
  rcases hcases with ⟨hsocket, hscore, hcores, hbelow⟩ |
    ⟨before, w, after, hsplit, hbest, hsocket, hpositive, hscore, hcores⟩
  · exact .of_unnamed hlines hineligible hsocket hbelow ⟨hscore, hcores⟩
  · exact .of_named hlines hineligible hsplit hbest hsocket hpositive ⟨hscore, hcores⟩

end

/-! ## Busy sockets in exact arithmetic -/

/-- Idle fractions at the floor or above let every eligible socket with a positive base
score through the gate. -/
theorem isSome_socket_iff_of_hasIdleFractions {d : Deployment σ ℚ}
    (hconsistent : d.topology.IsConsistent) {s : State σ ℚ}
    (hs : d.HasIdleFractions s (Entry.idleEpsilon ≤ ·)) {name : String} {r : ScoringResult ℚ}
    (hr : (d.scoreNode name s).1 = .ok r) :
    r.socket.isSome = true ↔ ∃ line ∈ r.sockets, line.eligible = true ∧ 0 < line.baseScore := by
  have hgated : ∀ line ∈ r.sockets,
      0 < line.gatedScore ↔ line.eligible = true ∧ 0 < line.baseScore := by
    intro line hline
    have hreported := hs.reported hr line hline
    obtain ⟨n, hn, socket, hsocket, spare, rfl⟩ :=
      exists_of_mem_sockets_of_scoreNode hconsistent hr hline
    generalize (s.basis.expire.visit d n socket).line socket = plain at hreported ⊢
    change 0 < plain.gatedBy spare ↔ plain.eligible = true ∧ 0 < plain.baseScore
    change ∀ x, plain.c6res = some x → Entry.idleEpsilon ≤ x at hreported
    rw [SocketScore.gatedBy]
    split
    next heligible =>
      rw [and_iff_right heligible]
      split
      next c6 hc6 =>
        have hpositive : 0 < c6 := Entry.idleEpsilon_pos.trans_le (hreported c6 hc6)
        split
        · rfl
        · exact mul_pos_iff_of_pos_right hpositive
      next => rfl
    next hineligible =>
      have hzero : ¬(0 : ℚ) < 0.0 := by norm_num
      exact iff_of_false hzero fun h => hineligible h.1
  obtain ⟨n, hn, -⟩ := eq_result_of_scoreNode_eq_ok hconsistent hr
  have hnames := namesBest_scoreNode hconsistent hn hr
  have hzero : (0.0 : ℚ) = 0 := by norm_num
  rw [Option.isSome_iff_ne_none, ne_eq, hnames.unnamed_iff, hzero]
  push Not
  constructor
  · rintro ⟨line, hline, hpositive⟩
    exact ⟨line, hline, (hgated line hline).mp hpositive⟩
  · rintro ⟨line, hline, hpositive⟩
    exact ⟨line, hline, (hgated line hline).mpr hpositive⟩

/-! ## Telemetry in memory -/

section

variable {α : Type} [Scalar α] {d : Deployment TelemetryLog α}

/-- A log has no rows for no cores. -/
theorem answer_of_coreless (l : TelemetryLog) {q : Query} (hcores : q.cores = some []) :
    l.answer q = [] := by
  have hmatches : TelemetryLog.matchesCores (some []) = fun _ => false := by
    funext row
    cases hcore : row.core <;> simp [TelemetryLog.matchesCores, hcore]
  rw [TelemetryLog.answer, hcores, hmatches, List.filter_false, List.take_nil, List.map_nil]

theorem measureIdle_ne_ok_of_coreless {settings : Settings} (l : TelemetryLog) (uuid : String)
    {socket : Socket} (hcores : socket.cores = []) (pooled : α) :
    (measureIdle settings l.source uuid socket).result ≠ .ok pooled := by
  unfold measureIdle Call.make TelemetryLog.source
  rw [answer_of_coreless l (congrArg some hcores)]
  intro hpooled
  cases hpooled

/-- The entry of a socket without cores is unknown. -/
def CorelessUnknown (d : Deployment TelemetryLog α) (k : SocketKey) (e : Entry α) : Prop :=
  ∀ (name : String) (n : Node), d.topology.requireNode name = .ok n →
    ∀ socket ∈ n.sockets, n.key socket = k → socket.cores = [] → e = .unknown

theorem teachesAt_corelessUnknown (hconsistent : d.topology.IsConsistent)
    (hlog : d.source = TelemetryLog.source) (l : TelemetryLog) :
    d.TeachesAt l d.CorelessUnknown := by
  intro name n hn socket hsocket entry e hlearned name' n' hn' socket' hsocket' hkey hcores
  obtain ⟨-, rfl⟩ := hconsistent.key_inj (Topology.requireNode_eq_ok_iff.mp hn')
    (Topology.requireNode_eq_ok_iff.mp hn) hsocket' hsocket hkey
  obtain ⟨-, base, p, idle, -, hmeasures, -⟩ := Visit.exists_measures_of_learned hlearned
  obtain ⟨pooled, hpooled, -⟩ := hmeasures.idle
  rw [hlog] at hpooled
  exact absurd hpooled (measureIdle_ne_ok_of_coreless l n.uuid hcores pooled)

theorem corelessUnknown_run [LawfulScalar α] (hconsistent : d.topology.IsConsistent)
    (hlog : d.source = TelemetryLog.source) {steps : List (Step TelemetryLog α)}
    (hsteps : ∀ step ∈ steps, step.isDirectWrite = false) {s : State TelemetryLog α}
    (hblank : s.cache.IsBlank) : (d.run s steps).2.cache.AllAt d.CorelessUnknown := by
  have hunknown : ∀ k, d.CorelessUnknown k .unknown := by
    intro k name n hn socket hsocket hkey hcores
    rfl
  refine allAt_run hconsistent hunknown hsteps ?_ ?_ (hblank.allAt hunknown)
  · intro i step hstep k e he name n hn socket hsocket hkey hcores
    rw [he name n hn socket hsocket hkey hcores]
    exact placedOn_unknown k step
  · exact fun i => teachesAt_corelessUnknown hconsistent hlog _

theorem coreCount_pos_of_eligible [LawfulScalar α] (hconsistent : d.topology.IsConsistent)
    (hlog : d.source = TelemetryLog.source) {s : State TelemetryLog α}
    (hall : s.cache.AllAt d.CorelessUnknown) {name : String} {r : ScoringResult α}
    (hr : (d.scoreNode name s).1 = .ok r) {line : SocketScore α} (hline : line ∈ r.sockets)
    (heligible : line.eligible = true) : 0 < line.cores := by
  obtain ⟨n, hn, socket, hsocket, spare, rfl⟩ :=
    exists_of_mem_sockets_of_scoreNode hconsistent hr hline
  change 0 < ((s.basis.expire.visit d n socket).line socket).cores
  rw [(Basis.socket_line d s.basis.expire n socket).2, Socket.coreCount, List.length_pos_iff]
  intro hcores
  obtain ⟨base, c6, -, hfrom⟩ := Basis.exists_measured_of_eligible heligible
  have hentry : s.basis.expire.cache.get (n.key socket) = .unknown :=
    hall.invalidateIfExpired (fun _ _ _ _ _ _ _ _ => rfl) s.now _ name n hn socket hsocket rfl
      hcores
  rw [hentry] at hfrom
  generalize (s.basis.expire.visit d n socket).learned = learned at hfrom
  -- The entry knows no idle fraction, and the log has no rows to pool one from.
  cases hfrom with
  | cache hidle =>
      rw [Entry.idle?_unknown] at hidle
      cases hidle
  | store hidle hpooled hfloor p =>
      rw [hlog] at hpooled
      exact measureIdle_ne_ok_of_coreless _ n.uuid hcores _ hpooled

end

/-! ## Answers along runs -/

/-- Every answer lists the sockets of its node in order and names the first one with the
highest positive gated score, or none if no gated score is positive.  Along every run
from a seeded cache, in exact arithmetic, a socket is named exactly if an eligible one
has a positive base score, however busy it is; and a socket that is named has a core if
all telemetry is held in memory. -/
theorem scoreNode_names_best :
    (∀ {σ α : Type} [Scalar α] [TransitiveOrder α] (d : Deployment σ α) {file : TopologyFile α},
      Topology.ofFile file = .ok d.topology →
      ∀ (name : String) (s : State σ α) (r : ScoringResult α),
        (d.scoreNode name s).1 = .ok r →
        ∃ n, d.topology.requireNode name = .ok n ∧ r.NamesBest n) ∧
    (∀ {σ : Type} (d : Deployment σ ℚ) {file : TopologyFile ℚ},
      Topology.ofFile file = .ok d.topology →
      ∀ (s : State σ ℚ) (ttl : ℕ) (keys : List SocketKey) (now : ℕ),
        s.cache = .seeded ttl keys now →
      ∀ steps : List (Step σ ℚ), (∀ step ∈ steps, step.isDirectWrite = false) →
      ∀ (name : String) (r : ScoringResult ℚ),
        (d.scoreNode name (d.run s steps).2).1 = .ok r →
        (r.socket.isSome = true ↔
          ∃ line ∈ r.sockets, line.eligible = true ∧ 0 < line.baseScore)) ∧
    ∀ {α : Type} [Scalar α] [TransitiveOrder α] (d : Deployment TelemetryLog α)
      {file : TopologyFile α}, Topology.ofFile file = .ok d.topology →
      d.source = TelemetryLog.source →
      ∀ (s : State TelemetryLog α) (ttl : ℕ) (keys : List SocketKey) (now : ℕ),
        s.cache = .seeded ttl keys now →
      ∀ steps : List (Step TelemetryLog α), (∀ step ∈ steps, step.isDirectWrite = false) →
      ∀ (name : String) (r : ScoringResult α),
        (d.scoreNode name (d.run s steps).2).1 = .ok r →
        r.socket.isSome = true → 0 < r.coreCount := by
  refine ⟨?_, ?_, ?_⟩
  · intro σ α _ _ d file haccepted name s r hr
    have hconsistent := Topology.isConsistent_of_ofFile haccepted
    obtain ⟨n, hn, -⟩ := eq_result_of_scoreNode_eq_ok hconsistent hr
    exact ⟨n, hn, namesBest_scoreNode hconsistent hn hr⟩
  · intro σ d file haccepted s ttl keys now hseeded steps hsteps name r hr
    have hconsistent := Topology.isConsistent_of_ofFile haccepted
    have hfractions : d.HasIdleFractions (d.run s steps).2 (Entry.idleEpsilon ≤ ·) :=
      floor_le_run hconsistent hsteps (hseeded ▸ Cache.isBlank_seeded ttl keys now)
    exact isSome_socket_iff_of_hasIdleFractions hconsistent hfractions hr
  · intro α _ _ d file haccepted hlog s ttl keys now hseeded steps hsteps name r hr hnamed
    have hconsistent := Topology.isConsistent_of_ofFile haccepted
    have hall : (d.run s steps).2.cache.AllAt d.CorelessUnknown :=
      corelessUnknown_run hconsistent hlog hsteps (hseeded ▸ Cache.isBlank_seeded ttl keys now)
    obtain ⟨n, hn, -⟩ := eq_result_of_scoreNode_eq_ok hconsistent hr
    obtain ⟨id, hid⟩ := Option.isSome_iff_exists.mp hnamed
    obtain ⟨before, w, after, hsplit, -, -, heligible, -, -, hcores⟩ :=
      (namesBest_scoreNode hconsistent hn hr).named id hid
    have hw : w ∈ r.sockets := by
      rw [hsplit]
      exact List.mem_append_right before List.mem_cons_self
    rw [hcores]
    exact coreCount_pos_of_eligible hconsistent hlog hall hr hw heligible

/-- The bench with its telemetry in memory. -/
def logBench : Deployment TelemetryLog Float :=
  { topology := .bench, settings := {}, catalog := ∅, source := TelemetryLog.source }

/-- One socket of the bench is telemetered, with one row for the socket and one for a core. -/
def logStart : State TelemetryLog Float :=
  { cache := .seeded 500 [⟨"bench", 0⟩, ⟨"bench", 1⟩] 0, health := .tracked 3 0
    store := TelemetryLog.empty.extend ⟨"b-1", 0⟩
      [{ timestamp := 0, core := none, values :=
          [("ipc", .int 2), ("mem_read", .int 1), ("mem_write", .int 1)] },
        { timestamp := 0, core := some 0, values := [("c6res", .float 0.5)] }] }

theorem scoreNode_names_best_bench :
    (∃ r, (bench.scoreNode "bench" (bench.start 500 3 .steady)).1 = .ok r ∧
      r.NamesBest exactNode) ∧
    (∃ r, (exactBench.scoreNode "bench" (exactBench.run exactStart exactSteps).2).1 = .ok r ∧
      (r.socket.isSome = true ↔
        ∃ line ∈ r.sockets, line.eligible = true ∧ 0 < line.baseScore)) ∧
    ∃ r, (logBench.scoreNode "bench" (logBench.run logStart [.score "bench"]).2).1 = .ok r ∧
      0 < r.coreCount := by
  obtain ⟨hnames, hbusy, hcores⟩ := scoreNode_names_best
  refine ⟨?_, ?_, ?_⟩
  · have hcall : (bench.scoreNode "bench" (bench.start 500 3 .steady)).1.toOption.any
        (fun _ => true) = true := by
      rw [start_bench]
      decide +kernel
    obtain ⟨r, hr, -⟩ := exists_of_any_toOption hcall
    obtain ⟨n, hn, hbest⟩ := hnames bench Topology.ofFile_benchFile "bench" _ r hr
    obtain rfl : exactNode = n := Except.ok.inj hn
    exact ⟨r, hr, hbest⟩
  · have hcall : (exactBench.scoreNode "bench"
        (exactBench.run exactStart exactSteps).2).1.toOption.any (fun _ => true) = true := by
      decide +kernel
    obtain ⟨r, hr, -⟩ := exists_of_any_toOption hcall
    exact ⟨r, hr, hbusy exactBench ofFile_exactBench exactStart 500 _ 0 rfl exactSteps
      isDirectWrite_exactSteps "bench" r hr⟩
  · have hcall : (logBench.scoreNode "bench"
        (logBench.run logStart [.score "bench"]).2).1.toOption.any (·.socket.isSome) = true := by
      decide +kernel
    obtain ⟨r, hr, hnamed⟩ := exists_of_any_toOption hcall
    exact ⟨r, hr, hcores logBench Topology.ofFile_benchFile rfl logStart 500 _ 0 rfl
      [.score "bench"] (by decide) "bench" r hr hnamed⟩

end Deployment

end SocketRanking
