import SocketRanking.Proofs.Scoring.Bounds
import SocketRanking.Proofs.Service.WinningSocket
import SocketRanking.Service.Wire

/-!
# Scores that stay finite

Every reading of the store is finite, but averages of readings, scores and weighted scores can
overflow, and an infinite average is a known value that stays in the cache.  As long as readings
and profiles lie within `2 ^ k` and the factors of hardware classes within `2 ^ c`, where
`2 * k + 3 * c < 697`, this does not happen on any run, and every score is written as a number.
-/

namespace SocketRanking

open Number

variable {σ : Type} {k c : ℕ}

theorem Sample.isFinite_of_value {row : Sample} {m : Metric} {x : Float}
    (hx : row.value m = .ok (some x)) : x.isFinite = true := by
  unfold Sample.value at hx
  split at hx
  · cases hx
  · split at hx
    next x' hreading =>
      obtain rfl : x' = x := Option.some.inj (Except.ok.inj hx)
      exact (Option.filter_eq_some_iff.mp hreading).2
    next => cases hx

theorem Json.number_of_isFinite {x : Float} (hx : x.isFinite = true) :
    Json.number x = .float x :=
  if_pos hx

/-! ## Scores of a result -/

namespace ScoringResult

/-- The scores that a result reports: of its winner and of every line. -/
def scores {α : Type} (r : ScoringResult α) : List α :=
  r.score :: r.finalScore :: r.sockets.flatMap fun line => [line.baseScore, line.gatedScore]

/-- The JSON form of a result holds a number for every score. -/
def WritesScores (r : ScoringResult Float) : Prop :=
  ∃ members, r.encode = .object members ∧
    Json.find? "score" members = some (.float r.score) ∧
    Json.find? "final_score" members = some (.float r.finalScore) ∧
    Json.find? "sockets" members = some (.array (r.sockets.map SocketScore.encode)) ∧
    ∀ line ∈ r.sockets, ∃ fields, line.encode = .object fields ∧
      Json.find? "base_score" fields = some (.float line.baseScore) ∧
      Json.find? "gated_score" fields = some (.float line.gatedScore)

variable {r : ScoringResult Float}

theorem forall_mem_scores {P : Float → Prop} :
    (∀ x ∈ r.scores, P x) ↔ P r.score ∧ P r.finalScore ∧
      ∀ line ∈ r.sockets, P line.baseScore ∧ P line.gatedScore := by
  simp only [scores, List.forall_mem_cons, List.mem_flatMap]
  refine and_congr_right fun _ => and_congr_right fun _ => ?_
  constructor
  · intro hall line hline
    exact ⟨hall _ ⟨line, hline, by simp⟩, hall _ ⟨line, hline, by simp⟩⟩
  · rintro hlines x ⟨line, hline, hx⟩
    rcases List.mem_pair.mp hx with rfl | rfl
    · exact (hlines line hline).1
    · exact (hlines line hline).2

theorem writesScores_of_isFinite (hfinite : ∀ x ∈ r.scores, x.isFinite = true) :
    r.WritesScores := by
  obtain ⟨hscore, hfinal, hlines⟩ := forall_mem_scores.mp hfinite
  refine ⟨_, rfl, ?_, ?_, rfl, ?_⟩
  · rw [← Json.number_of_isFinite hscore]
    rfl
  · rw [← Json.number_of_isFinite hfinal]
    rfl
  · intro line hline
    obtain ⟨hbase, hgated⟩ := hlines line hline
    refine ⟨_, rfl, ?_, ?_⟩
    · rw [← Json.number_of_isFinite hbase]
      rfl
    · rw [← Json.number_of_isFinite hgated]
      rfl

end ScoringResult

/-! ## Hardware classes -/

/-- The factors of a class as a description lists it lie within the bound. -/
def ClassEntry.IsBounded (entry : ClassEntry Float) (c : ℕ) : Prop :=
  IsWithin (2 ^ c) entry.maxFrequencyGhz ∧ ∀ x ∈ entry.interconnect, IsWithin (2 ^ c) x

theorem isWithin_factor {file : TopologyFile Float} {t : Topology Float}
    (haccepted : Topology.ofFile file = .ok t)
    (hclasses : ∀ entry ∈ file.classes, entry.IsBounded c) (hc : 3 * c < 1024) (n : Node) :
    IsWithin (2 ^ (3 * c)) (HardwareClass.factor (t.classOf? n)) := by
  cases hclass : t.classOf? n with
  | none => exact isWithin_of_one isWithin_one _
  | some cls =>
      obtain ⟨entry, hentry, hcls⟩ := Topology.exists_of_classOf? haccepted hclass
      obtain ⟨hfrequency, hinterconnect⟩ := hclasses entry hentry
      unfold Topology.classOf at hcls
      split at hcls
      next a b hfactors =>
        obtain rfl := Except.ok.inj hcls
        rw [hfactors] at hinterconnect
        have ha := hinterconnect a List.mem_cons_self
        have hb := hinterconnect b (List.mem_cons_of_mem a List.mem_cons_self)
        have hproduct : IsWithin (2 ^ (c + c)) (a * b) :=
          ha.mul hb (isBound_two_pow (by omega)) (pow_add 2 c c).ge
        refine hproduct.mul hfrequency (isBound_two_pow hc) ?_
        rw [← pow_add]
        exact pow_le_pow_right₀ one_le_two (by omega)
      next => cases hcls

/-! ## Calls -/

namespace Deployment

variable {d : Deployment σ Float}

theorem isWithin_of_mem_sockets (hconsistent : d.topology.IsConsistent) {s : State σ Float}
    (hall : s.cache.All (Entry.IsBounded · k)) (hsource : (d.source s.store).IsBounded k)
    (hk : 2 * k + 327 < 1024) {name : String} {r : ScoringResult Float}
    (hr : (d.scoreNode name s).1 = .ok r) {line : SocketScore Float} (hline : line ∈ r.sockets) :
    IsWithin (2 ^ (k + 149)) line.baseScore ∧ IsWithin (2 ^ (2 * k + 327)) line.gatedScore := by
  obtain ⟨n, hn, socket, hsocket, spare, rfl⟩ :=
    exists_of_mem_sockets_of_scoreNode hconsistent hr hline
  have hentry := hall.invalidateIfExpired Entry.isBounded_unknown s.now (n.key socket)
  change IsWithin _ ((s.basis.expire.visit d n socket).line socket).baseScore ∧
    IsWithin _ (((s.basis.expire.visit d n socket).line socket).gatedBy spare)
  cases houtcome : (s.basis.expire.visit d n socket).outcome with
  | error trouble =>
      have hzero : IsWithin 1 (0.0 : Float) := by decide +kernel
      simp only [Visit.line, houtcome]
      exact ⟨isWithin_of_one hzero _, isWithin_of_one hzero _⟩
  | ok score =>
      rw [Visit.line_of_outcome houtcome]
      obtain ⟨base, c6, rfl, hbase, hc6⟩ :=
        Visit.exists_isWithin_of_outcome hsource hentry (by omega) houtcome
      exact ⟨hbase, SocketScore.isWithin_gatedBy hbase hc6 hk spare⟩

/-- Every score in the result of a call is finite. -/
theorem isFinite_scores {file : TopologyFile Float}
    (haccepted : Topology.ofFile file = .ok d.topology)
    (hclasses : ∀ entry ∈ file.classes, entry.IsBounded c) (hroom : 2 * k + 3 * c < 697)
    {s : State σ Float} (hall : s.cache.All (Entry.IsBounded · k))
    (hsource : (d.source s.store).IsBounded k) {name : String} {r : ScoringResult Float}
    (hr : (d.scoreNode name s).1 = .ok r) : ∀ x ∈ r.scores, x.isFinite = true := by
  have hconsistent := Topology.isConsistent_of_ofFile haccepted
  have hlines : ∀ line ∈ r.sockets, IsWithin (2 ^ (k + 149)) line.baseScore ∧
      IsWithin (2 ^ (2 * k + 327)) line.gatedScore :=
    fun line hline => isWithin_of_mem_sockets hconsistent hall hsource (by omega) hr hline
  obtain ⟨n, hn, hresult⟩ := eq_result_of_scoreNode_eq_ok hconsistent hr
  -- the score is that of a line, or zero
  have hscore : IsWithin (2 ^ (2 * k + 327)) r.score := by
    have hcases := d.result_cases n (n.sockets.map fun socket =>
      (s.basis.expire.visit d n socket).line socket)
    rw [← hresult] at hcases
    rcases hcases with ⟨-, hzero, -⟩ | ⟨before, w, after, hsplit, -, -, -, hwinner, -⟩
    · rw [hzero]
      exact isWithin_of_one (by decide +kernel) _
    · rw [hwinner]
      refine (hlines w ?_).2
      rw [hsplit]
      exact List.mem_append_right before List.mem_cons_self
  have hfinal : IsWithin (2 ^ (2 * k + 327 + 3 * c)) r.finalScore := by
    have hfactor := isWithin_factor haccepted hclasses (by omega) n
    have heq : r.finalScore = r.score * HardwareClass.factor (d.topology.classOf? n) := by
      rw [hresult]
      rfl
    rw [heq]
    exact hscore.mul hfactor (isBound_two_pow (by omega)) (pow_add 2 _ _).ge
  refine ScoringResult.forall_mem_scores.mpr ⟨hscore.1, hfinal.1, ?_⟩
  intro line hline
  obtain ⟨hbase, hgated⟩ := hlines line hline
  exact ⟨hbase.1, hgated.1⟩

/-! ## Runs -/

theorem isBounded_run (hconsistent : d.topology.IsConsistent) (hk : k + 178 < 1024)
    {steps : List (Step σ Float)} (hsteps : ∀ step ∈ steps, step.isDirectWrite = false)
    (hprofiles : ∀ p, .recordPlacement p ∈ steps → ∀ profile,
      d.catalog[p.profile]? = some profile → profile.IsBounded k)
    {s : State σ Float} (hsource : ∀ i, (d.source (d.run s (steps.take i)).2.store).IsBounded k)
    (hblank : s.cache.IsBlank) : (d.run s steps).2.cache.All (Entry.IsBounded · k) := by
  refine all_run hconsistent Entry.isBounded_unknown hsteps ?_ ?_
    (hblank.all Entry.isBounded_unknown)
  · intro i step hstep key e he
    rcases d.placedOn_cases key e step with
      hsame | ⟨p, n, socket, profile, rfl, hresolve, hplaced⟩
    · rw [hsame]
      exact he
    · rw [hplaced]
      have hprofile := hprofiles p (List.mem_of_getElem? hstep) profile
        (of_resolve_eq_ok hresolve).2.2
      exact he.place hprofile hk socket.coreCount p.countsTowardIdle
  · exact fun i name n hn socket hsocket entry e hlearned =>
      Visit.isBounded_of_learned (hsource i) hk hlearned

/-! ### A bench with a hardware class -/

/-- A description of the bench that weights its node. -/
def weightedFile : TopologyFile Float :=
  { Topology.benchFile with classes := [⟨"b-1", [1.5, 0.5], 3.0⟩] }

/-- The weighted bench, with an application in the catalog and a store that always answers
alike. -/
def weightedBench : Deployment Unit Float :=
  { topology :=
      { nodes := Topology.bench.nodes
        classes := Topology.addClasses [⟨"b-1", (1.5, 0.5), 3.0⟩] }
    settings := {}
    catalog := .extend ∅ [("spec-leslie", ⟨1.5225, 0.3221, 0.1532, 0.1215, 378⟩)]
    source := fun _ => .steady }

/-- Nothing is cached on the weighted bench, and no time has passed. -/
def weightedStart : State Unit Float :=
  { cache := .seeded 500 [⟨"bench", 0⟩, ⟨"bench", 1⟩] 0, health := .tracked 3 0, store := () }

theorem ofFile_weightedFile : Topology.ofFile weightedFile = .ok weightedBench.topology :=
  rfl

theorem isBounded_steady : Source.steady.IsBounded 8 where
  reads m q rows hrows row hrow x hx := by
    obtain rfl := Except.ok.inj hrows
    have hreading : ((row.value m : Except Failure (Option Float)).toOption.join.all fun x =>
        decide (IsWithin (2 ^ 8) x)) = true := by
      rw [List.mem_singleton.mp hrow]
      cases m <;> decide +kernel
    rw [hx] at hreading
    exact of_decide_eq_true hreading
  length_le hrows := by
    obtain rfl := Except.ok.inj hrows
    norm_num

/-- Two equal readings behind a smaller one, whose weighted deviations do not fit a double. -/
def steepRows : List Sample :=
  [(3, 0.0), (2, 1e308), (1, 1e308)].map fun (timestamp, ipc) =>
    { timestamp, core := none, values := [("c6res", .float 0.5), ("ipc", .float ipc),
      ("mem_read", .int 1), ("mem_write", .int 1)] }

/-! ### Finite scores along runs -/

/-- Along every run from a seeded cache on which readings and placed profiles lie within
`2 ^ k` and the factors of classes within `2 ^ c`, averages of answers are finite, so is every
field of every entry, and the scores of every result are finite and written as numbers. -/
theorem scores_finite_of_bounded_readings (d : Deployment σ Float) {file : TopologyFile Float}
    (haccepted : Topology.ofFile file = .ok d.topology) (hroom : 2 * k + 3 * c < 697)
    (hclasses : ∀ entry ∈ file.classes, entry.IsBounded c)
    {s : State σ Float} {ttl now : ℕ} {keys : List SocketKey}
    (hseeded : s.cache = .seeded ttl keys now) {steps : List (Step σ Float)}
    (hsteps : ∀ step ∈ steps, step.isDirectWrite = false)
    (hprofiles : ∀ p, .recordPlacement p ∈ steps → ∀ profile,
      d.catalog[p.profile]? = some profile → profile.IsBounded k)
    (hsource : ∀ i, (d.source (d.run s (steps.take i)).2.store).IsBounded k) :
    let reached := (d.run s steps).2
    (∀ q rows metrics (set : MetricSet Float), d.source reached.store q = .ok rows →
      (Aggregate.weightedAverage rows metrics = .ok set ∨
        Aggregate.weightedAverageOfCores rows metrics = .ok set) →
      ∀ m x, set.get m = some x → x.isFinite = true) ∧
    (∀ key, let e := reached.cache.get key
      e.ipc.isFinite = true ∧ e.memRead.isFinite = true ∧ e.memWrite.isFinite = true ∧
        e.c6res.isFinite = true) ∧
    ∀ name r, (d.scoreNode name reached).1 = .ok r →
      (∀ x ∈ r.scores, x.isFinite = true) ∧ r.WritesScores := by
  intro reached
  have hconsistent := Topology.isConsistent_of_ofFile haccepted
  have hblank : s.cache.IsBlank := hseeded ▸ Cache.isBlank_seeded ttl keys now
  have hall : reached.cache.All (Entry.IsBounded · k) :=
    isBounded_run hconsistent (by omega) hsteps hprofiles hsource hblank
  have hend := hsource steps.length
  rw [List.take_length] at hend
  refine ⟨?_, ?_, ?_⟩
  · intro q rows metrics set hrows hset m x hx
    have hreads : ∀ m, ∀ row ∈ rows, ∀ x : Float, row.value m = .ok (some x) →
        IsWithin (2 ^ k) x := fun m row hrow => hend.reads m q rows hrows row hrow
    rcases hset with hplain | hcores
    · exact (Aggregate.isWithin_weightedAverage hreads (hend.length_le hrows) (by omega)
        hplain hx).1
    · exact (Aggregate.isWithin_weightedAverageOfCores hreads (hend.length_le hrows) (by omega)
        hcores hx).1
  · intro key e
    have he := hall key
    exact ⟨he.ipc.1, he.memRead.1, he.memWrite.1, he.c6res.1⟩
  · intro name r hr
    have hfinite := isFinite_scores haccepted hclasses hroom hall hend hr
    exact ⟨hfinite, ScoringResult.writesScores_of_isFinite hfinite⟩

/-- On the weighted bench readings, the profile and the class lie within `2 ^ 8`.  After the
placement the other socket wins. -/
theorem scores_finite_of_bounded_readings_bench :
    let steps : List (Step Unit Float) := [.score "bench", .recordPlacement exactPlacement]
    let reached := (weightedBench.run weightedStart steps).2
    (reached.cache.get ⟨"bench", 0⟩).memRead.isFinite = true ∧
      ∃ r, (weightedBench.scoreNode "bench" reached).1 = .ok r ∧
        r.socket = some 1 ∧ r.finalScore.isFinite = true ∧ r.WritesScores := by
  intro steps reached
  have hclasses : ∀ entry ∈ weightedFile.classes, entry.IsBounded 8 := by
    intro entry hentry
    rw [List.mem_singleton.mp hentry]
    unfold ClassEntry.IsBounded
    decide +kernel
  have hprofiles : ∀ p, .recordPlacement p ∈ steps → ∀ profile,
      weightedBench.catalog[p.profile]? = some profile → profile.IsBounded 8 := by
    intro p _ profile hprofile
    simp only [weightedBench, Catalog.extend, List.foldl_cons, List.foldl_nil,
      Std.TreeMap.getElem?_insert, Std.TreeMap.getElem?_emptyc] at hprofile
    split at hprofile
    · obtain rfl := Option.some.inj hprofile
      constructor <;> decide +kernel
    · cases hprofile
  have hsteps : ∀ step ∈ steps, step.isDirectWrite = false := by
    simp [steps, Step.isDirectWrite]
  obtain ⟨-, hcached, hscored⟩ := scores_finite_of_bounded_readings weightedBench
    ofFile_weightedFile (by norm_num) hclasses (s := weightedStart) rfl hsteps hprofiles
    (fun _ => isBounded_steady)
  obtain ⟨-, hread, -, -⟩ := hcached ⟨"bench", 0⟩
  obtain ⟨r, hr, hsocket⟩ : ∃ r, (weightedBench.scoreNode "bench" reached).1 = .ok r ∧
      decide (r.socket = some 1) = true := exists_of_any_toOption (by decide +kernel)
  obtain ⟨hfinite, hwrites⟩ := hscored "bench" r hr
  have hfinal := (ScoringResult.forall_mem_scores.mp hfinite).2.1
  exact ⟨hread, r, hr, of_decide_eq_true hsocket, hfinal, hwrites⟩

/-- Readings of up to `1e308` are finite, but their average is not; it is cached, and it is a
score that is written as null. -/
theorem infinite_score_bench :
    let call := bench.scoreNode "bench" (bench.start 500 3 (.constant steepRows))
    (∀ m, (Source.constant steepRows).Reads m fun x : Float => x.isFinite = true) ∧
    (∃ set : MetricSet Float, Aggregate.weightedAverage steepRows [.ipc] = .ok set ∧
      set.get .ipc = some (1.0 / 0.0)) ∧
    (call.2.cache.get ⟨"bench", 0⟩).ipc = 1.0 / 0.0 ∧
    ∃ r, call.1 = .ok r ∧ r.score.isFinite = false ∧ r.finalScore.isFinite = false ∧
      ∃ members, r.encode = .object members ∧ Json.find? "score" members = some .null := by
  intro call
  have hcall : call = bench.scoreNode "bench" _ :=
    congrArg (bench.scoreNode "bench") (start_bench 500 3 (.constant steepRows))
  refine ⟨?_, ?_, ?_, ?_⟩
  · exact fun m q rows hrows row hrow x hx => Sample.isFinite_of_value hx
  · have haverage : ∃ set : MetricSet Float, Aggregate.weightedAverage steepRows [.ipc] = .ok set ∧
        decide (set.get .ipc = some (1.0 / 0.0)) = true :=
      exists_of_any_toOption (by decide +kernel)
    simpa only [decide_eq_true_eq] using haverage
  · rw [hcall]
    decide +kernel
  · have hscored : ∃ r, call.1 = .ok r ∧
        (!r.score.isFinite && !r.finalScore.isFinite) = true := by
      rw [hcall]
      exact exists_of_any_toOption (by decide +kernel)
    obtain ⟨r, hr, hinfinite⟩ := hscored
    rw [Bool.and_eq_true, Bool.not_eq_true', Bool.not_eq_true'] at hinfinite
    have hnull : Json.number r.score = .null := if_neg (by simp [hinfinite.1])
    exact ⟨r, hr, hinfinite.1, hinfinite.2, _, rfl, congrArg some hnull⟩

end Deployment

end SocketRanking
