import SocketRanking.Proofs.Service.Candidates
import SocketRanking.Proofs.Service.WinningSocket

/-!
# Precedence among hosts

A ranking orders hosts by their scores weighted with their hardware classes.  In exact
arithmetic, if every class has a positive factor, then weighting keeps a score above
zero there and a score of zero at zero.  A host on which a socket won therefore precedes
every host without a winner, whatever their classes, and hosts of one factor come in the
order of their scores.
-/

namespace SocketRanking

variable {σ : Type}

/-- The factor by which the scores of a known host are weighted. -/
def Topology.factor? (t : Topology ℚ) (host : String) : Option ℚ :=
  (t.node? host).map fun n => HardwareClass.factor (t.classOf? n)

/-- Rows with a winning socket score above zero and precede those without one, which
score zero; rows of the same factor stand in the order of their scores. -/
structure PriorityList.PutsWinnersFirst (list : PriorityList ℚ) (t : Topology ℚ) : Prop where
  weighted : ∀ row ∈ list.priorities, ∃ factor, t.factor? row.host = some factor ∧
    row.finalScore = row.score * factor
  winner_pos : ∀ row ∈ list.priorities, row.socket.isSome = true → 0 < row.finalScore
  loser_zero : ∀ row ∈ list.priorities, row.socket = none → row.finalScore = 0
  winners_first : list.priorities.Pairwise fun a b =>
    b.socket.isSome = true → a.socket.isSome = true
  by_score : list.priorities.Pairwise fun a b =>
    t.factor? a.host = t.factor? b.host → b.score ≤ a.score

/-! ## Weighted rows -/

/-- The row of a known host with a positive factor, whose score is above zero exactly if
a socket won. -/
structure HostPriority.IsWeighted (row : HostPriority ℚ) (t : Topology ℚ) : Prop where
  factor : ∃ factor, t.factor? row.host = some factor ∧ 0 < factor ∧
    row.finalScore = row.score * factor
  named : row.socket.isSome = true → 0 < row.score
  unnamed : row.socket = none → row.score = 0

namespace HostPriority.IsWeighted

variable {t : Topology ℚ} {a b : HostPriority ℚ}

theorem finalScore_pos (ha : a.IsWeighted t) (hnamed : a.socket.isSome = true) :
    0 < a.finalScore := by
  obtain ⟨factor, -, hpos, hfinal⟩ := ha.factor
  rw [hfinal]
  exact mul_pos (ha.named hnamed) hpos

theorem finalScore_eq_zero (ha : a.IsWeighted t) (hunnamed : a.socket = none) :
    a.finalScore = 0 := by
  obtain ⟨factor, -, -, hfinal⟩ := ha.factor
  rw [hfinal, ha.unnamed hunnamed, zero_mul]

/-- Nothing without a winner scores as high as a row with one. -/
theorem isSome_socket_of_le (ha : a.IsWeighted t) (hb : b.IsWeighted t)
    (hle : b.finalScore ≤ a.finalScore) (hnamed : b.socket.isSome = true) :
    a.socket.isSome = true := by
  rw [Option.isSome_iff_ne_none]
  intro hunnamed
  rw [ha.finalScore_eq_zero hunnamed] at hle
  exact not_lt_of_ge hle (hb.finalScore_pos hnamed)

/-- A common factor cancels. -/
theorem score_le_of_le (ha : a.IsWeighted t) (hb : b.IsWeighted t)
    (hle : b.finalScore ≤ a.finalScore) (hsame : t.factor? a.host = t.factor? b.host) :
    b.score ≤ a.score := by
  obtain ⟨factor, hfactor, hpos, hfinal⟩ := ha.factor
  obtain ⟨factor', hfactor', -, hfinal'⟩ := hb.factor
  obtain rfl : factor = factor' := by
    rw [hfactor, hfactor'] at hsame
    exact Option.some.inj hsame
  rw [hfinal, hfinal'] at hle
  exact le_of_mul_le_mul_right hle hpos

end HostPriority.IsWeighted

/-! ## Rows of a ranking -/

/-- The row of a scored host is what its outcome made of its node. -/
theorem Deployment.exists_of_mem_priorities {α : Type} [Scalar α] {d : Deployment σ α}
    (hconsistent : d.topology.IsConsistent) {workload : Workload} {hosts : List String}
    {s : State σ α} {row : HostPriority α}
    (hrow : row ∈ (d.prioritize workload hosts s).1.priorities) :
    ∃ n lines, d.topology.node? row.host = some n ∧ row = .ofResult (d.result n lines) := by
  obtain ⟨r, hr, hrow⟩ := outcome_of_mem_priorities hconsistent hrow
  unfold Basis.outcome at hr
  cases hn : d.topology.requireNode row.host with
  | error e =>
      rw [hn] at hr
      cases hr
  | ok n =>
      rw [hn] at hr
      have hresult := eq_result_of_conclude_eq_ok hr
      exact ⟨n, _, Topology.requireNode_eq_ok_iff.mp hn, hrow.trans (congrArg _ hresult)⟩

variable {d : Deployment σ ℚ}

/-- Machines of no class weigh one. -/
theorem HardwareClass.factor_pos {c? : Option (HardwareClass ℚ)}
    (hpositive : ∀ c ∈ c?, 0 < c.interconnect.1 * c.interconnect.2 * c.maxFrequencyGhz) :
    0 < factor c? := by
  cases c? with
  | none =>
      change (0 : ℚ) < 1.0
      norm_num
  | some c => exact hpositive c rfl

/-- A result names a socket exactly if its score is above zero. -/
theorem Deployment.socket_result (d : Deployment σ ℚ) (n : Node) (lines : List (SocketScore ℚ)) :
    ((d.result n lines).socket.isSome = true → 0 < (d.result n lines).score) ∧
      ((d.result n lines).socket = none → (d.result n lines).score = 0) := by
  have hzero : (0.0 : ℚ) = 0 := by norm_num
  rcases result_cases d n lines with
    ⟨hsocket, hscore, -⟩ | ⟨before, w, after, -, -, hsocket, hpositive, hscore, -⟩
  · rw [hsocket, hscore, hzero]
    exact ⟨fun hnamed => absurd hnamed (by simp), fun _ => rfl⟩
  · rw [hsocket, hscore, ← hzero]
    exact ⟨fun _ => hpositive, fun hunnamed => absurd hunnamed (by simp)⟩

theorem Deployment.isWeighted_of_mem_priorities (hconsistent : d.topology.IsConsistent)
    (hpositive : ∀ (uuid : String) (c : HardwareClass ℚ), d.topology.classes[uuid]? = some c →
      0 < c.interconnect.1 * c.interconnect.2 * c.maxFrequencyGhz)
    {workload : Workload} {hosts : List String} {s : State σ ℚ} {row : HostPriority ℚ}
    (hrow : row ∈ (d.prioritize workload hosts s).1.priorities) :
    row.IsWeighted d.topology := by
  obtain ⟨n, lines, hn, rfl⟩ := exists_of_mem_priorities hconsistent hrow
  obtain ⟨hnamed, hunnamed⟩ := socket_result d n lines
  refine ⟨⟨HardwareClass.factor (d.topology.classOf? n), ?_, ?_, rfl⟩, hnamed, hunnamed⟩
  · rw [Topology.factor?, hn]
    rfl
  · exact HardwareClass.factor_pos (hpositive n.uuid)

/-! ## Rankings -/

namespace Deployment

/-- In exact arithmetic, if every hardware class has a positive factor, a ranking puts
hosts with a winning socket before those without one, and orders hosts of the same
factor by their scores. -/
theorem prioritize_putsWinnersFirst (d : Deployment σ ℚ) {file : TopologyFile ℚ}
    (haccepted : Topology.ofFile file = .ok d.topology)
    (hpositive : ∀ (uuid : String) (c : HardwareClass ℚ), d.topology.classes[uuid]? = some c →
      0 < c.interconnect.1 * c.interconnect.2 * c.maxFrequencyGhz)
    (workload : Workload) (hosts : List String) (s : State σ ℚ) :
    (d.prioritize workload hosts s).1.PutsWinnersFirst d.topology := by
  have hconsistent := Topology.isConsistent_of_ofFile haccepted
  have hrows : ∀ row ∈ (d.prioritize workload hosts s).1.priorities, row.IsWeighted d.topology :=
    fun row hrow => isWeighted_of_mem_priorities hconsistent hpositive hrow
  have hsorted : (d.prioritize workload hosts s).1.priorities.Pairwise fun a b =>
      b.finalScore ≤ a.finalScore := by
    refine (PriorityList.pairwise_priorities workload.name (d.tally hosts s).1).imp ?_
    rintro a b ⟨hnot, -⟩
    exact not_lt.mp hnot
  constructor
  case weighted =>
    intro row hrow
    obtain ⟨factor, hfactor, -, hfinal⟩ := (hrows row hrow).factor
    exact ⟨factor, hfactor, hfinal⟩
  case winner_pos => exact fun row hrow => (hrows row hrow).finalScore_pos
  case loser_zero => exact fun row hrow => (hrows row hrow).finalScore_eq_zero
  case winners_first =>
    apply hsorted.imp_of_mem
    intro a b ha hb hle
    exact (hrows a ha).isSome_socket_of_le (hrows b hb) hle
  case by_score =>
    apply hsorted.imp_of_mem
    intro a b ha hb hle
    exact (hrows a ha).score_le_of_le (hrows b hb) hle

/-- Three nodes of one socket, the first of which belongs to a class. -/
def fleetFile : TopologyFile ℚ :=
  { nodes := [{ name := "fast", uuid := "f-1", sockets := [⟨0, [0, 1]⟩] },
      { name := "plain", uuid := "p-1", sockets := [⟨0, [0, 1]⟩] },
      { name := "mute", uuid := "m-1", sockets := [⟨0, [0, 1]⟩] }]
    classes := [⟨"f-1", [2, 1 / 2], 3⟩] }

/-- The nodes of `fleetFile`, one of which has no telemetry. -/
def fleet : Deployment Unit ℚ :=
  { topology :=
      { nodes := fleetFile.nodes.foldl (fun nodes n => nodes.insert n.name n) ∅
        classes := Topology.addClasses [⟨"f-1", (2, 1 / 2), 3⟩] }
    settings := {}
    catalog := ∅
    source := fun _ q => if q.uuid = "m-1" then .ok [] else Source.steady q }

/-- Nothing is known of the fleet. -/
def fleetStart : State Unit ℚ :=
  { cache := .seeded 500 [⟨"fast", 0⟩, ⟨"mute", 0⟩, ⟨"plain", 0⟩] 0
    health := .tracked 3 0
    store := () }

/-- The list holds a row with a winner and one without. -/
theorem prioritize_putsWinnersFirst_bench :
    let list := (fleet.prioritize ⟨"web", none⟩ ["mute", "plain", "fast"] fleetStart).1
    (∃ row ∈ list.priorities, row.socket = none) ∧
      (∃ row ∈ list.priorities, row.socket.isSome = true) ∧
      list.PutsWinnersFirst fleet.topology := by
  intro list
  have haccepted : Topology.ofFile fleetFile = .ok fleet.topology := rfl
  have hpositive : ∀ (uuid : String) (c : HardwareClass ℚ),
      fleet.topology.classes[uuid]? = some c →
        0 < c.interconnect.1 * c.interconnect.2 * c.maxFrequencyGhz := by
    intro uuid c hc
    obtain rfl := List.mem_singleton.mp (Topology.mem_of_getElem?_addClasses hc)
    norm_num
  have hfirst := prioritize_putsWinnersFirst fleet haccepted hpositive ⟨"web", none⟩
    ["mute", "plain", "fast"] fleetStart
  have hloser : ∃ row ∈ (fleet.tally ["mute", "plain", "fast"] fleetStart).1.priorities,
      row.socket = none := by
    decide +kernel
  have hwinner : ∃ row ∈ (fleet.tally ["mute", "plain", "fast"] fleetStart).1.priorities,
      row.socket.isSome = true := by
    decide +kernel
  obtain ⟨loser, hmem, hunnamed⟩ := hloser
  obtain ⟨winner, hmem', hnamed⟩ := hwinner
  exact ⟨⟨loser, List.mem_mergeSort.mpr hmem, hunnamed⟩,
    ⟨winner, List.mem_mergeSort.mpr hmem', hnamed⟩, hfirst⟩

end Deployment

end SocketRanking
