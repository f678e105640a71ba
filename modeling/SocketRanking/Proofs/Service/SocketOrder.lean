import SocketRanking.Proofs.Number.SignedZero
import SocketRanking.Proofs.Service.CandidateOrder
import SocketRanking.Proofs.Service.Isolation

/-!
# The order in which a node lists its sockets

With the deferred gate a description may list the sockets of a node in any order.  The visits
of a call do not depend on one another, what they write goes under keys of its own, and the
gate looks at all sockets before it weighs any.  So the order decides only which socket wins
among several with the highest gated score.  It is the strict comparison of the winner search
that needs positive scores to be told apart.
-/

namespace SocketRanking

variable {σ α : Type}

/-- The same description, but for the order in which a node lists its sockets. -/
structure TopologyFile.Reorders (file file' : TopologyFile α) (n : Node) (sockets : List Socket) :
    Prop where
  classes : file'.classes = file.classes
  nodes : ∃ before after, file.nodes = before ++ n :: after ∧
    file'.nodes = before ++ { n with sockets } :: after
  perm : n.sockets.Perm sockets

variable [Scalar α]

/-- The results of two calls for a node whose sockets are listed in two orders: the same score
and, but for their order, the same lines.  If one socket has the highest gated score alone, both
name it. -/
structure ScoringResult.Rearranges (sockets sockets' : List Socket) (r r' : ScoringResult α) :
    Prop where
  score : r.score = r'.score
  finalScore : r.finalScore = r'.finalScore
  lines : ∃ line : Socket → SocketScore α, (∀ socket, (line socket).socket = socket.id) ∧
    r.sockets = sockets.map line ∧ r'.sockets = sockets'.map line
  named_iff : r.socket.isSome = r'.socket.isSome
  winner : ∀ w ∈ r.sockets, 0.0 < w.gatedScore →
    (∀ s ∈ r.sockets, w.gatedScore ≤ s.gatedScore → s.socket = w.socket) →
    r.socket = some w.socket ∧ r'.socket = some w.socket

/-- Two calls for a node whose sockets are listed in two orders: both break down, or they leave
the same cache content and both fail, or both succeed. -/
inductive SameButForOrder (sockets sockets' : List Socket)
    (call call' : Except Trouble (ScoringResult α) × State σ α) : Prop
  | crashed (text text' : String) : call.1 = .error (.crashed text) →
      call'.1 = .error (.crashed text') → SameButForOrder sockets sockets' call call'
  | failed (e e' : Failure) : call.1 = .error (.failed e) → call'.1 = .error (.failed e') →
      call.2.cache.Alike call'.2.cache → SameButForOrder sockets sockets' call call'
  | scored (r r' : ScoringResult α) : call.1 = .ok r → call'.1 = .ok r' →
      r.Rearranges sockets sockets' r' → call.2.cache.Alike call'.2.cache →
      SameButForOrder sockets sockets' call call'

/-! ## The winner -/

section

variable [SeparatedOrder α] {sockets sockets' : List (SocketScore α)}

/-- The winner has the highest gated score. -/
theorem mem_of_winner? {w : SocketScore α} (hw : winner? sockets = some w) :
    w ∈ sockets ∧ 0.0 < w.gatedScore ∧ ∀ s ∈ sockets, ¬w.gatedScore < s.gatedScore := by
  rcases winner?_cases sockets with ⟨hnone, -⟩ | ⟨before, v, after, hsplit, hv, hpositive, hbest⟩
  · cases hnone.symm.trans hw
  · obtain rfl := Option.some.inj (hv.symm.trans hw)
    rw [hsplit]
    exact ⟨List.mem_append_right before List.mem_cons_self, hpositive, hbest.not_exceeded⟩

theorem winner?_eq_none_iff : winner? sockets = none ↔ ∀ s ∈ sockets, ¬0.0 < s.gatedScore := by
  constructor
  · intro hnone
    rcases winner?_cases sockets with ⟨-, hbelow⟩ | ⟨before, w, after, -, hw, -⟩
    · exact hbelow
    · cases hnone.symm.trans hw
  · intro hbelow
    rw [Option.eq_none_iff_forall_ne_some]
    intro w hw
    obtain ⟨hmem, hpositive, -⟩ := mem_of_winner? hw
    exact hbelow w hmem hpositive

/-- The order of the sockets does not change the highest gated score. -/
theorem gatedScore_winner?_perm (hperm : sockets.Perm sockets') :
    (winner? sockets).map (·.gatedScore) = (winner? sockets').map (·.gatedScore) := by
  cases hw : winner? sockets with
  | none =>
      have hbelow := winner?_eq_none_iff.mp hw
      have hnone := winner?_eq_none_iff.mpr fun s hs => hbelow s (hperm.mem_iff.mpr hs)
      rw [hnone]
  | some w =>
      cases hw' : winner? sockets' with
      | none =>
          have hbelow := winner?_eq_none_iff.mp hw'
          obtain ⟨hmem, hpositive, -⟩ := mem_of_winner? hw
          exact absurd hpositive (hbelow w (hperm.mem_iff.mp hmem))
      | some w' =>
          obtain ⟨hmem, hpositive, hbest⟩ := mem_of_winner? hw
          obtain ⟨hmem', hpositive', hbest'⟩ := mem_of_winner? hw'
          have hequal : w.gatedScore = w'.gatedScore :=
            SeparatedOrder.eq_of_not_lt hpositive hpositive'
              (hbest w' (hperm.mem_iff.mpr hmem')) (hbest' w (hperm.mem_iff.mp hmem))
          exact congrArg some hequal

/-- A socket that has the highest gated score alone wins. -/
theorem socket_winner?_of_alone {w : SocketScore α} (hmem : w ∈ sockets)
    (hpositive : 0.0 < w.gatedScore)
    (halone : ∀ s ∈ sockets, w.gatedScore ≤ s.gatedScore → s.socket = w.socket) :
    (winner? sockets).map (·.socket) = some w.socket := by
  cases hv : winner? sockets with
  | none => exact absurd hpositive (winner?_eq_none_iff.mp hv w hmem)
  | some v =>
      obtain ⟨hmem', hpositive', hbest⟩ := mem_of_winner? hv
      have hreached : w.gatedScore ≤ v.gatedScore := by
        by_cases hbelow : w.gatedScore < v.gatedScore
        · exact LawfulOrder.le_of_lt hbelow
        · rw [SeparatedOrder.eq_of_not_lt hpositive hpositive' hbelow (hbest w hmem)]
          exact LawfulOrder.le_self_of_lt hpositive'
      exact congrArg some (halone v hmem' hreached)

end

/-! ## Visits in another order -/

namespace Visit

omit [Scalar α] in
theorem writes_map (n : Node) (f : Socket → Visit α) (sockets : List Socket) :
    writes n sockets (sockets.map f) =
      sockets.flatMap fun socket => (f socket).learned.toList.map fun e => (n.key socket, e) := by
  induction sockets with
  | nil => rfl
  | cons socket rest ih => rw [List.map_cons, writes, ih, List.flatMap_cons]

end Visit

namespace Deployment

variable {visits visits' : List (Visit α)}

omit [Scalar α] in
/-- The visits after a breakdown do not hide it. -/
theorem crash?_throughCrash (visits : List (Visit α)) :
    crash? (Visit.throughCrash visits) = crash? visits := by
  induction visits with
  | nil => rfl
  | cons v rest ih =>
      rw [Visit.throughCrash]
      split
      next text htext => simp only [crash?, List.findSome?_cons, htext]
      next => simpa only [crash?, List.findSome?_cons] using ih

omit [Scalar α] in
theorem crash?_eq_none_iff_of_perm (hperm : visits.Perm visits') :
    crash? visits = none ↔ crash? visits' = none := by
  simp only [crash?, List.findSome?_eq_none_iff, hperm.mem_iff]

omit [Scalar α] in
theorem outage?_eq_none_iff_of_perm (hperm : visits.Perm visits') :
    outage? visits = none ↔ outage? visits' = none := by
  have hfailures : (storeFailures visits).Perm (storeFailures visits') := hperm.filterMap _
  have hcount : (storeFailures visits).length = visits.length ↔
      (storeFailures visits').length = visits'.length := by
    rw [hfailures.length_eq, hperm.length_eq]
  have hempty : storeFailures visits = [] ↔ storeFailures visits' = [] := by
    rw [← List.length_eq_zero_iff, ← List.length_eq_zero_iff, hfailures.length_eq]
  simp only [outage?, hcount]
  split
  · rw [List.getLast?_eq_none_iff, List.getLast?_eq_none_iff, hempty]
  · rfl

/-! ## Results in another order -/

theorem score_eq_winner? (d : Deployment σ α) (n : Node) (lines : List (SocketScore α)) :
    (d.result n lines).score =
      ((winner? (d.result n lines).sockets).map (·.gatedScore)).getD 0.0 := by
  simp only [result]
  cases winner? (d.settings.idleGate.apply lines) <;> rfl

theorem socket_eq_winner? (d : Deployment σ α) (n : Node) (lines : List (SocketScore α)) :
    (d.result n lines).socket = (winner? (d.result n lines).sockets).map (·.socket) :=
  rfl

/-- Under the deferred gate a result lists the same lines in whatever order the sockets come. -/
theorem result_rearranges [SeparatedOrder α] {d d' : Deployment σ α} {n n' : Node}
    (hdeferred : d.settings.idleGate = .deferred) (hsettings : d'.settings = d.settings)
    (hclass : d'.topology.classOf? n' = d.topology.classOf? n)
    {line : Socket → SocketScore α} (hline : ∀ socket, (line socket).socket = socket.id)
    {sockets sockets' : List Socket} (hperm : sockets.Perm sockets') :
    (d.result n (sockets.map line)).Rearranges sockets sockets'
      (d'.result n' (sockets'.map line)) := by
  set spare := (sockets.map line).any (·.hasSpareCore) with hspare
  have hspare' : (sockets'.map line).any (·.hasSpareCore) = spare :=
    (hperm.map line).any_eq.symm
  have hgated : (d.result n (sockets.map line)).sockets =
      sockets.map fun socket => (line socket).gate spare := by
    simp only [result, hdeferred, IdleGate.apply, List.map_map]
    rfl
  have hgated' : (d'.result n' (sockets'.map line)).sockets =
      sockets'.map fun socket => (line socket).gate spare := by
    simp only [result, hsettings, hdeferred, IdleGate.apply, List.map_map, hspare']
    rfl
  have hlines : (d.result n (sockets.map line)).sockets.Perm
      (d'.result n' (sockets'.map line)).sockets := by
    rw [hgated, hgated']
    exact hperm.map _
  have hscore : (d.result n (sockets.map line)).score =
      (d'.result n' (sockets'.map line)).score := by
    rw [score_eq_winner?, score_eq_winner?, gatedScore_winner?_perm hlines]
  constructor
  case score => exact hscore
  case finalScore => exact congrArg₂ HardwareClass.adjust hscore hclass.symm
  case lines => exact ⟨fun socket => (line socket).gate spare, hline, hgated, hgated'⟩
  case named_iff =>
    have hnamed := congrArg Option.isSome (gatedScore_winner?_perm hlines)
    simpa only [socket_eq_winner?, Option.isSome_map] using hnamed
  case winner =>
    intro w hw hpositive halone
    refine ⟨socket_winner?_of_alone hw hpositive halone, ?_⟩
    refine socket_winner?_of_alone (hlines.mem_iff.mp hw) hpositive fun s hs => ?_
    exact halone s (hlines.mem_iff.mpr hs)

/-! ## Calls in another order -/

section

variable [SeparatedOrder α] {d d' : Deployment σ α} {n n' : Node}
  (hdeferred : d.settings.idleGate = .deferred) (hsettings : d'.settings = d.settings)
  (hclass : d'.topology.classOf? n' = d.topology.classOf? n) (hperm : n.sockets.Perm n'.sockets)

include hdeferred hsettings hclass hperm

/-- Visits that do not break down come to the same whatever their order. -/
theorem conclude_rearranges {f : Socket → Visit α}
    (hlines : ∀ socket, ((f socket).line socket).socket = socket.id)
    (hsound : crash? (n.sockets.map f) = none) :
    (∃ e e', d.conclude n (n.sockets.map f) = .error (.failed e) ∧
        d'.conclude n' (n'.sockets.map f) = .error (.failed e')) ∨
      ∃ r r', d.conclude n (n.sockets.map f) = .ok r ∧
        d'.conclude n' (n'.sockets.map f) = .ok r' ∧ r.Rearranges n.sockets n'.sockets r' := by
  have hsound' := (crash?_eq_none_iff_of_perm (hperm.map f)).mp hsound
  have houtage := outage?_eq_none_iff_of_perm (hperm.map f)
  simp only [conclude, hsound, hsound']
  cases hfailed : outage? (n.sockets.map f) with
  | none =>
      right
      rw [houtage.mp hfailed, breakdown_map, breakdown_map]
      exact ⟨_, _, rfl, rfl, result_rearranges hdeferred hsettings hclass hlines hperm⟩
  | some e =>
      left
      have hsome : outage? (n'.sockets.map f) ≠ none := by
        rw [ne_eq, ← houtage, hfailed]
        exact Option.some_ne_none e
      obtain ⟨e', hfailed'⟩ := Option.ne_none_iff_exists'.mp hsome
      rw [hfailed']
      exact ⟨e, e', rfl, rfl⟩

/-- Two calls that visit the same sockets alike, in two orders. -/
theorem scoreNode_sameButForOrder (hconsistent : d.topology.IsConsistent)
    (hconsistent' : d'.topology.IsConsistent) {name : String}
    (hn : d.topology.requireNode name = .ok n) (hn' : d'.topology.requireNode name = .ok n')
    (hkeys : n'.key = n.key) {s s' : State σ α} (halike : s.basis.Alike s'.basis)
    (hvisit : s'.basis.expire.visit d' n' = s.basis.expire.visit d n) :
    SameButForOrder n.sockets n'.sockets (d.scoreNode name s) (d'.scoreNode name s') := by
  set f : Socket → Visit α := s.basis.expire.visit d n with hf
  obtain ⟨hanswer, hbasis⟩ := scoreNode_basis hconsistent name s
  obtain ⟨hanswer', hbasis'⟩ := scoreNode_basis hconsistent' name s'
  simp only [Basis.score, hn, Basis.visits, ← hf] at hanswer hbasis
  simp only [Basis.score, hn', Basis.visits, hvisit] at hanswer' hbasis'
  have hcrash := crash?_eq_none_iff_of_perm (hperm.map f)
  cases hsound : crash? (n.sockets.map f) with
  | some text =>
      have hsome : crash? (n'.sockets.map f) ≠ none := by
        rw [ne_eq, ← hcrash, hsound]
        exact Option.some_ne_none text
      obtain ⟨text', hsound'⟩ := Option.ne_none_iff_exists'.mp hsome
      rw [conclude, crash?_throughCrash, hsound] at hanswer
      rw [conclude, crash?_throughCrash, hsound'] at hanswer'
      exact .crashed text text' hanswer hanswer'
  | none =>
      have hsound' := hcrash.mp hsound
      rw [throughCrash_eq_self ((crash?_throughCrash _).trans hsound)] at hanswer hbasis
      rw [throughCrash_eq_self ((crash?_throughCrash _).trans hsound')] at hanswer' hbasis'
      have hwrites : (Visit.writes n n.sockets (n.sockets.map f)).Perm
          (Visit.writes n' n'.sockets (n'.sockets.map f)) := by
        rw [Visit.writes_map, Visit.writes_map, hkeys]
        exact hperm.flatMap_right _
      have hnodup := hconsistent.nodup_sockets (Topology.requireNode_eq_ok_iff.mp hn)
      have hentered := (halike.expire.enter _).trans
        (Basis.enter_perm _ hwrites (Visit.nodup_keys_writes hnodup _))
      rw [← hbasis, ← hbasis'] at hentered
      rcases conclude_rearranges hdeferred hsettings hclass hperm
        (fun socket => (Basis.socket_line d s.basis.expire n socket).1) hsound with
        ⟨e, e', he, he'⟩ | ⟨r, r', hr, hr', hrearranges⟩
      · exact .failed e e' (hanswer.trans he) (hanswer'.trans he') hentered.cache
      · exact .scored r r' (hanswer.trans hr) (hanswer'.trans hr') hrearranges hentered.cache

end

/-- With the deferred gate the order in which a description lists the sockets of a node makes no
difference to its score.  From the same cache content, store and time either both calls break
down, or they leave the same cache content, and both fail or both succeed; and then the scores
are the same, the lines are rearranged like the sockets, and at most the choice between several
sockets with the highest gated score differs. -/
theorem scoreNode_rearranges [SeparatedOrder α] {d : Deployment σ α}
    (hdeferred : d.settings.idleGate = .deferred) {file file' : TopologyFile α}
    (haccepted : Topology.ofFile file = .ok d.topology) {topology' : Topology α}
    (haccepted' : Topology.ofFile file' = .ok topology') {n : Node} {sockets : List Socket}
    (hreorders : file.Reorders file' n sockets) {s s' : State σ α}
    (halike : s.basis.Alike s'.basis) :
    SameButForOrder n.sockets sockets (d.scoreNode n.name s)
      ({ d with topology := topology' }.scoreNode n.name s') := by
  obtain ⟨before, after, hfile, hfile'⟩ := hreorders.nodes
  have hn : d.topology.requireNode n.name = .ok n := by
    rw [Topology.requireNode_eq_ok_iff, Topology.node?_eq_some_iff_of_ofFile haccepted, hfile]
    exact ⟨List.mem_append_right before List.mem_cons_self, rfl⟩
  have hn' : topology'.requireNode n.name = .ok { n with sockets } := by
    rw [Topology.requireNode_eq_ok_iff, Topology.node?_eq_some_iff_of_ofFile haccepted', hfile']
    exact ⟨List.mem_append_right before List.mem_cons_self, rfl⟩
  have hclass : topology'.classOf? { n with sockets } = d.topology.classOf? n := by
    rw [Topology.classOf?, Topology.classOf?,
      Topology.classes_eq_of_ofFile haccepted haccepted' hreorders.classes]
  have hsettings : ({ d with topology := topology' } : Deployment σ α).settings = d.settings := rfl
  exact scoreNode_sameButForOrder hdeferred hsettings hclass hreorders.perm
    (Topology.isConsistent_of_ofFile haccepted) (Topology.isConsistent_of_ofFile haccepted')
    hn hn' rfl halike (halike.expire.visit d n).symm

/-- The bench with its sockets listed the other way round. -/
def turnedFile : TopologyFile Float :=
  { nodes := [{ name := "bench", uuid := "b-1", sockets := [⟨1, [2, 3]⟩, ⟨0, [0, 1]⟩] }] }

/-- Of two sockets with the same score the one that is listed first wins. -/
theorem scoreNode_rearranges_bench :
    let d : Deployment Source Float := { bench with settings := { idleGate := .deferred } }
    let s := bench.start 500 3 .steady
    ∃ topology', Topology.ofFile turnedFile = .ok topology' ∧
      ∃ r r', (d.scoreNode "bench" s).1 = .ok r ∧
        ({ d with topology := topology' }.scoreNode "bench" s).1 = .ok r' ∧
        r.Rearranges [⟨0, [0, 1]⟩, ⟨1, [2, 3]⟩] [⟨1, [2, 3]⟩, ⟨0, [0, 1]⟩] r' ∧
        r.socket = some 0 ∧ r'.socket = some 1 := by
  intro d s
  let topology' : Topology Float :=
    { nodes := turnedFile.nodes.foldl (fun nodes n => nodes.insert n.name n) ∅ }
  have hfirst : (d.scoreNode "bench" s).1.toOption.any (·.socket = some 0) = true := by
    simp only [s, start_bench]
    decide +kernel
  let d' : Deployment Source Float := { d with topology := topology' }
  have hlast : (d'.scoreNode "bench" s).1.toOption.any (·.socket = some 1) = true := by
    simp only [s, start_bench]
    decide +kernel
  obtain ⟨r, hr, hsocket⟩ := exists_of_any_toOption hfirst
  obtain ⟨r', hr', hsocket'⟩ := exists_of_any_toOption hlast
  have hreorders : Topology.benchFile.Reorders turnedFile exactNode [⟨1, [2, 3]⟩, ⟨0, [0, 1]⟩] :=
    ⟨rfl, ⟨[], [], rfl, rfl⟩, List.Perm.swap _ _ _⟩
  refine ⟨topology', rfl, r, r', hr, hr', ?_, of_decide_eq_true hsocket,
    of_decide_eq_true hsocket'⟩
  have hsame := scoreNode_rearranges (d := d) rfl Topology.ofFile_benchFile
    (rfl : Topology.ofFile turnedFile = .ok topology') hreorders (Basis.Alike.refl s.basis)
  cases hsame with
  | crashed text text' hcrashed => cases hr.symm.trans hcrashed
  | failed e e' hfailed => cases hr.symm.trans hfailed
  | scored r₁ r₁' hr₁ hr₁' hrearranges =>
      obtain rfl := Except.ok.inj (hr.symm.trans hr₁)
      obtain rfl := Except.ok.inj (hr'.symm.trans hr₁')
      exact hrearranges

end Deployment

end SocketRanking
