import SocketRanking.Proofs.Number.Exact
import SocketRanking.Proofs.Scoring.Winner

/-!
# The idle gate, place by place

In order, the gate knows of the idle cores that it has passed; deferred, it knows of all.
What it enters at a place depends only on the socket there and on whether an idle core is
known by then, so that both modes have a closed form in the place of the first socket with
a whole idle core.  The modes differ only before that place, and there the gate that works
in order is the stricter one: it weighs a score by an idle fraction, and the fraction of a
socket without a whole idle core is at most one.
-/

namespace SocketRanking

variable {α : Type} [Scalar α]

/-! ## One socket -/

namespace SocketScore

/-- All that is known of a socket before the gate. -/
def ungated (s : SocketScore α) : SocketScore α :=
  { s with gatedScore := 0.0 }

/-- A whole core of an eligible socket is idle. -/
def HasIdleCore (s : SocketScore α) : Prop :=
  s.eligible = true ∧ ∃ c6, s.c6res = some c6 ∧ 1.0 ≤ c6 * Scalar.ofCount s.cores

variable {s : SocketScore α}

theorem gatedBy_of_ineligible (hineligible : s.eligible = false) (spare : Bool) :
    s.gatedBy spare = 0.0 := by
  simp [gatedBy, hineligible]

theorem gatedBy_true (heligible : s.eligible = true) : s.gatedBy true = s.baseScore := by
  unfold gatedBy
  rw [if_pos heligible]
  cases s.c6res <;> rfl

theorem gatedBy_false (heligible : s.eligible = true) {c6 : α} (hc6 : s.c6res = some c6) :
    s.gatedBy false = s.baseScore * c6 := by
  simp [gatedBy, heligible, hc6]

theorem gatedBy_of_c6res_eq_none (heligible : s.eligible = true) (hc6 : s.c6res = none)
    (spare : Bool) : s.gatedBy spare = s.baseScore := by
  simp [gatedBy, heligible, hc6]

theorem hasSpareCore_iff : s.hasSpareCore = true ↔ s.HasIdleCore := by
  unfold HasIdleCore
  cases hc6 : s.c6res <;> simp [hasSpareCore, idleCores, hc6]

end SocketScore

/-! ## All sockets of a node -/

namespace IdleGate

open SocketScore

/-- Whether the gate knows of an idle core when it comes to a place. -/
def spareAt (mode : IdleGate) (lines : List (SocketScore α)) (i : Nat) : Bool :=
  match mode with
  | inOrder => (lines.take (i + 1)).any (·.hasSpareCore)
  | deferred => lines.any (·.hasSpareCore)

theorem getElem?_applyInOrder (spare : Bool) (lines : List (SocketScore α)) (i : Nat) :
    (applyInOrder spare lines)[i]? =
      lines[i]?.map (·.gate (spare || (lines.take (i + 1)).any (·.hasSpareCore))) := by
  induction lines generalizing spare i with
  | nil => rfl
  | cons line rest ih =>
      cases i with
      | zero => simp [applyInOrder]
      | succ i => simp [applyInOrder, ih, Bool.or_assoc]

theorem getElem?_apply (mode : IdleGate) (lines : List (SocketScore α)) (i : Nat) :
    (mode.apply lines)[i]? = lines[i]?.map (·.gate (mode.spareAt lines i)) := by
  cases mode with
  | inOrder => exact getElem?_applyInOrder false lines i
  | deferred => exact List.getElem?_map

/-- Gating enters gated scores and changes nothing else. -/
theorem exists_gate_of_mem_apply {mode : IdleGate} {sockets : List (SocketScore α)}
    {gated : SocketScore α} (hgated : gated ∈ mode.apply sockets) :
    ∃ s ∈ sockets, ∃ spare, gated = s.gate spare := by
  obtain ⟨i, hi⟩ := List.mem_iff_getElem?.mp hgated
  rw [getElem?_apply, Option.map_eq_some_iff] at hi
  obtain ⟨s, hs, rfl⟩ := hi
  exact ⟨s, List.mem_of_getElem? hs, _, rfl⟩

/-- No line is lost. -/
theorem exists_gate_mem_apply (mode : IdleGate) {sockets : List (SocketScore α)}
    {s : SocketScore α} (hs : s ∈ sockets) : ∃ spare, s.gate spare ∈ mode.apply sockets := by
  obtain ⟨i, hi⟩ := List.mem_iff_getElem?.mp hs
  refine ⟨mode.spareAt sockets i, List.mem_of_getElem? (i := i) ?_⟩
  rw [getElem?_apply, hi, Option.map_some]

/-- What does not look at gated scores is the same before and after the gate. -/
theorem map_apply {β : Type} {f : SocketScore α → β} (hf : ∀ s spare, f (s.gate spare) = f s)
    (mode : IdleGate) (sockets : List (SocketScore α)) :
    (mode.apply sockets).map f = sockets.map f := by
  refine List.ext_getElem? fun i => ?_
  rw [List.getElem?_map, List.getElem?_map, getElem?_apply, Option.map_map]
  exact congrArg (Option.map · _) (funext fun s => hf s _)

/-- Gated scores from before have no influence. -/
theorem apply_map_ungated (mode : IdleGate) (sockets : List (SocketScore α)) :
    mode.apply (sockets.map ungated) = mode.apply sockets := by
  have hspare : ∀ i, mode.spareAt (sockets.map ungated) i = mode.spareAt sockets i := by
    intro i
    cases mode with
    | inOrder =>
        rw [spareAt, ← List.map_take, List.any_map]
        rfl
    | deferred =>
        rw [spareAt, List.any_map]
        rfl
  refine List.ext_getElem? fun i => ?_
  rw [getElem?_apply, getElem?_apply, List.getElem?_map, Option.map_map, hspare]
  rfl

/-! ## What is known of idle cores -/

section

variable {sockets : List (SocketScore α)} {i : Nat} {s : SocketScore α}

/-- A socket is not weighed by its idle fraction if it has a whole idle core itself. -/
theorem spareAt_of_hasSpareCore (mode : IdleGate) (hs : sockets[i]? = some s)
    (hspare : s.hasSpareCore = true) : mode.spareAt sockets i = true := by
  have hpassed : s ∈ sockets.take (i + 1) := by
    refine List.mem_of_getElem? (i := i) ?_
    rwa [List.getElem?_take_of_lt (Nat.lt_succ_self i)]
  cases mode with
  | inOrder => exact List.any_eq_true.mpr ⟨s, hpassed, hspare⟩
  | deferred => exact List.any_eq_true.mpr ⟨s, List.mem_of_mem_take hpassed, hspare⟩

theorem spareAt_deferred_of_inOrder (hspare : inOrder.spareAt sockets i = true) :
    deferred.spareAt sockets i = true := by
  obtain ⟨s, hs, hspare⟩ := List.any_eq_true.mp hspare
  exact List.any_eq_true.mpr ⟨s, List.mem_of_mem_take hs, hspare⟩

theorem spareAt_of_findIdx?_eq_none (hnone : sockets.findIdx? (·.hasSpareCore) = none)
    (mode : IdleGate) (i : Nat) : mode.spareAt sockets i = false := by
  cases mode with
  | inOrder => rw [spareAt, ← List.findIdx?_isSome, List.findIdx?_take, hnone]; rfl
  | deferred => rw [spareAt, ← List.findIdx?_isSome, hnone]; rfl

variable {k : Nat} (hk : sockets.findIdx? (·.hasSpareCore) = some k)

include hk

theorem spareAt_deferred (i : Nat) : deferred.spareAt sockets i = true := by
  rw [spareAt, ← List.findIdx?_isSome, hk]
  rfl

theorem spareAt_inOrder (i : Nat) : inOrder.spareAt sockets i = decide (k ≤ i) := by
  rw [spareAt, ← List.findIdx?_isSome, List.findIdx?_take, hk, Option.bind_some,
    Option.isSome_guard]
  exact decide_eq_decide.mpr Nat.lt_succ_iff

end

/-! ## Closed forms -/

/-- The place of the first socket with a whole idle core. -/
structure IsFirstIdle (sockets : List (SocketScore α)) (k : Nat) : Prop where
  idle : ∃ s, sockets[k]? = some s ∧ s.HasIdleCore
  not_before : ∀ i s, i < k → sockets[i]? = some s → ¬s.HasIdleCore

theorem IsFirstIdle.findIdx?_eq {sockets : List (SocketScore α)} {k : Nat}
    (hk : IsFirstIdle sockets k) : sockets.findIdx? (·.hasSpareCore) = some k := by
  obtain ⟨s, hs, hidle⟩ := hk.idle
  obtain ⟨hlength, rfl⟩ := List.getElem?_eq_some_iff.mp hs
  refine List.findIdx?_eq_some_iff_getElem.mpr ⟨hlength, hasSpareCore_iff.mpr hidle, ?_⟩
  intro i hi
  rw [hasSpareCore_iff]
  exact hk.not_before i _ hi (List.getElem?_eq_getElem (hi.trans hlength))

theorem findIdx?_eq_none {sockets : List (SocketScore α)}
    (hnone : ∀ s ∈ sockets, ¬s.HasIdleCore) : sockets.findIdx? (·.hasSpareCore) = none :=
  List.findIdx?_eq_none_iff.mpr fun s hs =>
    Bool.eq_false_iff.mpr (mt hasSpareCore_iff.mp (hnone s hs))

/-- The gated score at a place. -/
def gatedAt (mode : IdleGate) (sockets : List (SocketScore α)) (i : Nat) : Option α :=
  (mode.apply sockets)[i]?.map (·.gatedScore)

theorem gatedAt_eq (mode : IdleGate) {sockets : List (SocketScore α)} {i : Nat}
    {s : SocketScore α} (hs : sockets[i]? = some s) :
    mode.gatedAt sockets i = some (s.gatedBy (mode.spareAt sockets i)) := by
  rw [gatedAt, getElem?_apply, hs]
  rfl

/-- The gate enters scores that it works out from everything but scores entered before. -/
structure Confined (mode : IdleGate) (sockets : List (SocketScore α)) : Prop where
  kept : (mode.apply sockets).map ungated = sockets.map ungated
  independent : ∀ others : List (SocketScore α), others.map ungated = sockets.map ungated →
    mode.apply others = mode.apply sockets
  repeated : ∀ earlier : IdleGate, mode.apply (earlier.apply sockets) = mode.apply sockets
  ineligible : ∀ s ∈ mode.apply sockets, s.eligible = false → s.gatedScore = 0.0

/-- The gated scores of eligible sockets in terms of the place of the first socket with a
whole idle core. -/
structure ClosedForm (sockets : List (SocketScore α)) : Prop where
  unknown : ∀ mode i s, sockets[i]? = some s → s.eligible = true → s.c6res = none →
    gatedAt mode sockets i = some s.baseScore
  without_idle : (∀ s ∈ sockets, ¬s.HasIdleCore) →
    ∀ mode i s c6, sockets[i]? = some s → s.eligible = true → s.c6res = some c6 →
      gatedAt mode sockets i = some (s.baseScore * c6)
  deferred_eq : ∀ k, IsFirstIdle sockets k →
    ∀ i s, sockets[i]? = some s → s.eligible = true →
      gatedAt deferred sockets i = some s.baseScore
  inOrder_eq : ∀ k, IsFirstIdle sockets k →
    ∀ i s, sockets[i]? = some s → s.eligible = true →
      (k ≤ i → gatedAt inOrder sockets i = some s.baseScore) ∧
      ∀ c6, s.c6res = some c6 → i < k → gatedAt inOrder sockets i = some (s.baseScore * c6)
  agree : ((∀ s ∈ sockets, ¬s.HasIdleCore) →
      inOrder.apply sockets = deferred.apply sockets) ∧
    ∀ k, IsFirstIdle sockets k →
      (inOrder.apply sockets).drop k = (deferred.apply sockets).drop k

theorem confined (mode : IdleGate) (sockets : List (SocketScore α)) : mode.Confined sockets where
  kept := map_apply (fun _ _ => rfl) mode sockets
  independent others hsame := by
    rw [← apply_map_ungated mode others, hsame, apply_map_ungated]
  repeated earlier := by
    rw [← apply_map_ungated mode (earlier.apply sockets), map_apply (fun _ _ => rfl),
      apply_map_ungated]
  ineligible gated hgated hineligible := by
    obtain ⟨s, -, spare, rfl⟩ := exists_gate_of_mem_apply hgated
    exact gatedBy_of_ineligible hineligible spare

theorem closedForm (sockets : List (SocketScore α)) : ClosedForm sockets where
  unknown mode i s hs heligible hc6 := by
    rw [gatedAt_eq mode hs, gatedBy_of_c6res_eq_none heligible hc6]
  without_idle hnone mode i s c6 hs heligible hc6 := by
    rw [gatedAt_eq mode hs, spareAt_of_findIdx?_eq_none (findIdx?_eq_none hnone),
      gatedBy_false heligible hc6]
  deferred_eq k hk i s hs heligible := by
    rw [gatedAt_eq deferred hs, spareAt_deferred hk.findIdx?_eq, gatedBy_true heligible]
  inOrder_eq k hk i s hs heligible := by
    rw [gatedAt_eq inOrder hs, spareAt_inOrder hk.findIdx?_eq]
    constructor
    · intro hafter
      rw [decide_eq_true hafter, gatedBy_true heligible]
    · intro c6 hc6 hbefore
      rw [decide_eq_false (not_le.mpr hbefore), gatedBy_false heligible hc6]
  agree := by
    constructor
    · intro hnone
      have hnone' := findIdx?_eq_none hnone
      refine List.ext_getElem? fun i => ?_
      rw [getElem?_apply, getElem?_apply, spareAt_of_findIdx?_eq_none hnone',
        spareAt_of_findIdx?_eq_none hnone']
    · intro k hk
      refine List.ext_getElem? fun i => ?_
      rw [List.getElem?_drop, List.getElem?_drop, getElem?_apply, getElem?_apply,
        spareAt_inOrder hk.findIdx?_eq, spareAt_deferred hk.findIdx?_eq,
        decide_eq_true (Nat.le_add_right k i)]

end IdleGate

/-! ## Exact arithmetic -/

namespace SocketScore

/-- An eligible socket has a known idle fraction, at least one core and a base score that is
not negative. -/
def IsWeighable (s : SocketScore ℚ) : Prop :=
  s.eligible = true → (∃ c6, s.c6res = some c6) ∧ 1 ≤ s.cores ∧ 0 ≤ s.baseScore

variable {s : SocketScore ℚ}

/-- Without a whole idle core on a socket with cores, its idle fraction is at most one. -/
theorem le_one_of_not_hasSpareCore (heligible : s.eligible = true) {c6 : ℚ}
    (hc6 : s.c6res = some c6) (hcores : 1 ≤ s.cores) (hspare : s.hasSpareCore = false) :
    c6 ≤ 1 := by
  by_contra hlarge
  have hone : (1 : ℚ) ≤ s.cores := by exact_mod_cast hcores
  have hwhole : 1.0 ≤ c6 * Scalar.ofCount s.cores := by
    rw [Scalar.ofCount_eq]
    norm_num only
    exact one_le_mul_of_one_le_of_one_le (not_le.mp hlarge).le hone
  rw [hasSpareCore_iff.mpr ⟨heligible, c6, hc6, hwhole⟩] at hspare
  cases hspare

/-- A gated score is not above the base score, as a socket that has a whole idle core itself
is not weighed. -/
theorem IsWeighable.gatedBy_le (hs : s.IsWeighable) {spare : Bool}
    (hspare : s.hasSpareCore = true → spare = true) (hbase : 0 ≤ s.baseScore) :
    s.gatedBy spare ≤ s.baseScore := by
  by_cases heligible : s.eligible = true
  · obtain ⟨⟨c6, hc6⟩, hcores, -⟩ := hs heligible
    cases spare with
    | true => exact (gatedBy_true heligible).le
    | false =>
        have hown : s.hasSpareCore = false := Bool.eq_false_iff.mpr (mt hspare Bool.false_ne_true)
        rw [gatedBy_false heligible hc6]
        exact mul_le_of_le_one_right hbase (le_one_of_not_hasSpareCore heligible hc6 hcores hown)
  · rw [gatedBy_of_ineligible (Bool.eq_false_iff.mpr heligible)]
    norm_num only
    exact hbase

/-- To know of an idle core raises a gated score. -/
theorem IsWeighable.gatedBy_mono (hs : s.IsWeighable) {spare spare' : Bool}
    (hspare : s.hasSpareCore = true → spare = true) (hlater : spare = true → spare' = true) :
    s.gatedBy spare ≤ s.gatedBy spare' := by
  by_cases heligible : s.eligible = true
  · cases spare' with
    | true =>
        rw [gatedBy_true heligible]
        exact hs.gatedBy_le hspare (hs heligible).2.2
    | false => rw [Bool.eq_false_iff.mpr (mt hlater Bool.false_ne_true)]
  · have hineligible : s.eligible = false := Bool.eq_false_iff.mpr heligible
    rw [gatedBy_of_ineligible hineligible, gatedBy_of_ineligible hineligible]

end SocketScore

namespace IdleGate

/-- In order, the gate is the stricter one, and neither mode raises a score. -/
structure OnlyLowers (sockets : List (SocketScore ℚ)) : Prop where
  gated_le : ∀ (i : ℕ) (s s' : SocketScore ℚ), (inOrder.apply sockets)[i]? = some s →
    (deferred.apply sockets)[i]? = some s' → s.gatedScore ≤ s'.gatedScore
  le_base : ∀ s ∈ deferred.apply sockets, s.eligible = true ∨ 0 ≤ s.baseScore →
    s.gatedScore ≤ s.baseScore
  winner_le : ∀ w, winner? (inOrder.apply sockets) = some w →
    ∃ w', winner? (deferred.apply sockets) = some w' ∧ w.gatedScore ≤ w'.gatedScore

variable {sockets : List (SocketScore ℚ)} (hsockets : ∀ s ∈ sockets, s.IsWeighable)

include hsockets

theorem inOrder_gated_le {i : Nat} {s s' : SocketScore ℚ}
    (hs : (inOrder.apply sockets)[i]? = some s) (hs' : (deferred.apply sockets)[i]? = some s') :
    s.gatedScore ≤ s'.gatedScore := by
  rw [getElem?_apply, Option.map_eq_some_iff] at hs hs'
  obtain ⟨socket, hsocket, rfl⟩ := hs
  obtain ⟨socket', hsocket', rfl⟩ := hs'
  obtain rfl := Option.some.inj (hsocket.symm.trans hsocket')
  exact (hsockets socket (List.mem_of_getElem? hsocket)).gatedBy_mono
    (spareAt_of_hasSpareCore inOrder hsocket) spareAt_deferred_of_inOrder

theorem deferred_gated_le_base {gated : SocketScore ℚ} (hgated : gated ∈ deferred.apply sockets)
    (hbase : gated.eligible = true ∨ 0 ≤ gated.baseScore) : gated.gatedScore ≤ gated.baseScore := by
  obtain ⟨i, hi⟩ := List.mem_iff_getElem?.mp hgated
  rw [getElem?_apply, Option.map_eq_some_iff] at hi
  obtain ⟨s, hs, rfl⟩ := hi
  have hweighable := hsockets s (List.mem_of_getElem? hs)
  refine hweighable.gatedBy_le (spareAt_of_hasSpareCore deferred hs) ?_
  exact hbase.elim (fun heligible => (hweighable heligible).2.2) id

theorem inOrder_winner_le {w : SocketScore ℚ} (hw : winner? (inOrder.apply sockets) = some w) :
    ∃ w', winner? (deferred.apply sockets) = some w' ∧ w.gatedScore ≤ w'.gatedScore := by
  rcases winner?_cases (inOrder.apply sockets) with
    ⟨hnone, -⟩ | ⟨before, v, after, hsplit, hv, hpositive, -⟩
  · cases hnone.symm.trans hw
  · obtain rfl := Option.some.inj (hv.symm.trans hw)
    obtain ⟨i, hi⟩ : ∃ i, (inOrder.apply sockets)[i]? = some v :=
      List.mem_iff_getElem?.mp (hsplit ▸ by simp)
    obtain ⟨s, hs, -⟩ := Option.map_eq_some_iff.mp (getElem?_apply inOrder sockets i ▸ hi)
    have hlater : (deferred.apply sockets)[i]? = some (s.gate (deferred.spareAt sockets i)) := by
      rw [getElem?_apply, hs, Option.map_some]
    have hle := inOrder_gated_le hsockets hi hlater
    rcases winner?_cases (deferred.apply sockets) with
      ⟨-, hnone⟩ | ⟨before', w', after', hsplit', hw', -, hbest⟩
    · exact absurd (hpositive.trans_le hle) (hnone _ (List.mem_of_getElem? hlater))
    · refine ⟨w', hw', hle.trans (not_lt.mp (hbest.not_exceeded _ ?_))⟩
      exact hsplit' ▸ List.mem_of_getElem? hlater

end IdleGate

/-- The gate changes gated scores only, and what it enters is determined by the place of the
first socket with a whole idle core.  In exact arithmetic the gate that works in order scores
no socket higher than the deferred one does, neither scores a socket above its base score,
and the winner is not the better for it. -/
theorem idleGate_modes :
    (∀ {α : Type} [Scalar α] (sockets : List (SocketScore α)),
      (∀ mode : IdleGate, mode.Confined sockets) ∧ IdleGate.ClosedForm sockets) ∧
    ∀ sockets : List (SocketScore ℚ), (∀ s ∈ sockets, s.IsWeighable) →
      IdleGate.OnlyLowers sockets := by
  constructor
  · intro α _ sockets
    exact ⟨fun mode => IdleGate.confined mode sockets, IdleGate.closedForm sockets⟩
  · intro sockets hsockets
    constructor
    case gated_le => exact fun i s s' => IdleGate.inOrder_gated_le hsockets
    case le_base => exact fun s => IdleGate.deferred_gated_le_base hsockets
    case winner_le => exact fun w => IdleGate.inOrder_winner_le hsockets

/-- An eligible socket before the one with idle cores, an ineligible one between them. -/
theorem idleGate_modes_bench :
    let sockets : List (SocketScore ℚ) :=
      [⟨0, 2, 8, some (1 / 4), 0, true⟩, ⟨1, 2, -1, none, 5, false⟩,
        ⟨2, 2, 6, some (1 / 2), 0, true⟩]
    IdleGate.IsFirstIdle sockets 2 ∧ (∀ s ∈ sockets, s.IsWeighable) ∧
      (IdleGate.inOrder.gatedAt sockets 0, IdleGate.deferred.gatedAt sockets 0) = (some 2, some 8) ∧
      ∃ w, winner? (IdleGate.deferred.apply sockets) = some w ∧ 6 ≤ w.gatedScore := by
  intro sockets
  have hsockets : ∀ s ∈ sockets, s.IsWeighable := by
    simp [sockets, SocketScore.IsWeighable]
  have hk : IdleGate.IsFirstIdle sockets 2 := by
    refine ⟨⟨_, rfl, rfl, _, rfl, by norm_num [Scalar.ofCount_eq]⟩, ?_⟩
    rintro (_ | _ | i) s hi hs
    · cases hs
      norm_num [SocketScore.HasIdleCore, Scalar.ofCount_eq]
    · cases hs
      norm_num [SocketScore.HasIdleCore]
    · omega
  obtain ⟨-, hclosed⟩ := idleGate_modes.1 sockets
  have hinOrder := (hclosed.inOrder_eq 2 hk 0 _ rfl rfl).2 _ rfl (by decide)
  have hdeferred := hclosed.deferred_eq 2 hk 0 _ rfl rfl
  have hwinner := (idleGate_modes.2 sockets hsockets).winner_le
    ⟨2, 2, 6, some (1 / 2), 6, true⟩ (by decide +kernel)
  refine ⟨hk, hsockets, ?_, hwinner⟩
  rw [hinOrder, hdeferred]
  norm_num

end SocketRanking
