import SocketRanking.Proofs.Number.SignedZero
import SocketRanking.Proofs.Telemetry.Pooling

/-!
# Cores with identical series

If all cores of a socket report the same, it makes no difference whether they are pooled.  In
rounded arithmetic that is not a matter of course: it holds because means are taken over the
deviations from the first value, which are all zero here.  The mean of a slot is then the
value of its cores plus zero, which is the same number.  Only the sign of a zero can get lost.
-/

namespace SocketRanking.Aggregate

open Number

/-- One row of each core, all of them with the same reading of the metric. -/
structure Repeats (m : Metric) (cores : List UInt32) (x : Float) (slot : List Sample) : Prop where
  coversCores : CoversCores cores slot
  value_eq : ∀ s ∈ slot, s.value m = .ok (some x)

/-! ## The mean of a slot -/

theorem sum_replicate_zero (n : ℕ) : Scalar.sum (List.replicate n (0.0 : Float)) = 0.0 := by
  unfold Scalar.sum
  induction n with
  | zero => rfl
  | succ n ih => exact ih

theorem mean_replicate {x : Float} (hx : x.isFinite = true) {n : ℕ} (hn : 0 < n) :
    mean (List.replicate n x) = some (x + 0.0) := by
  obtain ⟨n, rfl⟩ := Nat.exists_eq_succ_of_ne_zero hn.ne'
  have hdeviations : (x :: List.replicate n x).map (· - x) = List.replicate (n + 1) 0.0 := by
    rw [← List.replicate_succ, List.map_replicate, sub_self_of_isFinite hx]
  have hzero : (0.0 : Float) / Scalar.ofCount (n + 1) = 0.0 := zero_div_ofNat hn
  rw [List.replicate_succ, mean]
  simp only [hdeviations, sum_replicate_zero, List.length_cons, List.length_replicate, hzero]

theorem Repeats.column_eq {m : Metric} {cores : List UInt32} {x : Float} {slot : List Sample}
    (hslot : Repeats m cores x slot) : column slot m = .ok (List.replicate slot.length x) := by
  rw [← List.map_const']
  exact column_of_forall₂ (List.forall₂_map_right_iff.mpr (List.forall₂_same.mpr hslot.value_eq))

theorem slotMeans_of_repeats {m : Metric} {cores : List UInt32} (hsome : cores ≠ [])
    {values : List Float} {slots : List (List Sample)} (hfinite : ∀ x ∈ values, x.isFinite = true)
    (hslots : List.Forall₂ (Repeats m cores) values slots) :
    slotMeans m slots = .ok (values.map (· + 0.0)) := by
  have hboth := (List.forall₂_and_left values slots).mpr ⟨hfinite, hslots⟩
  refine slotMeans_of_forall₂ (List.forall₂_map_right_iff.mpr (List.Forall₂.flip (hboth.imp ?_)))
  rintro x slot ⟨hx, hslot⟩
  refine ⟨_, hslot.column_eq, mean_replicate hx ?_⟩
  rw [hslot.coversCores.length_eq]
  exact List.length_pos_iff.mpr hsome

/-! ## Averages of the same numbers -/

section

variable {values values' : List Float} (hsame : List.Forall₂ SameNumber values values')

include hsame

theorem weightedDeviations_sameNumber {anchor anchor' : Float} (hanchor : SameNumber anchor anchor')
    (n : Float) (j : ℕ) : List.Forall₂ SameNumber (weightedDeviations anchor n j values)
      (weightedDeviations anchor' n j values') := by
  induction hsame generalizing j with
  | nil => exact .nil
  | cons hx _ ih => exact .cons ((hx.sub hanchor).mul_right _) (ih (j + 1))

theorem foldl_add_sameNumber {total total' : Float} (htotal : SameNumber total total') :
    SameNumber (values.foldl (· + ·) total) (values'.foldl (· + ·) total') := by
  induction hsame generalizing total total' with
  | nil => exact htotal
  | cons hx _ ih => exact ih (htotal.add hx)

theorem sum_sameNumber : SameNumber (Scalar.sum values) (Scalar.sum values') :=
  foldl_add_sameNumber hsame (.refl _)

theorem recencyWeighted_sameNumber (hsome : values ≠ []) :
    ∃ x x', recencyWeighted values = some x ∧ recencyWeighted values' = some x' ∧
      SameNumber x x' := by
  cases hsame with
  | nil => exact absurd rfl hsome
  | @cons anchor anchor' rest rest' hanchor hrest =>
      refine ⟨_, _, rfl, rfl, ?_⟩
      have hlength : rest.length = rest'.length := hrest.length_eq
      simp only [List.length_cons, hlength]
      have hdeviations := weightedDeviations_sameNumber (.cons hanchor hrest) hanchor
        (Scalar.ofCount (rest'.length + 1)) 0
      exact hanchor.add ((sum_sameNumber hdeviations).div_right _)

end

/-- Pooling cores that all report the same series gives the same number as averaging the
series, exactly, and the same double where no value is the negative zero.  The cores may come
in any order in each of the slots. -/
theorem weightedAverageOfCores_of_repeats {m : Metric} {values : List Float} (hvalues : values ≠ [])
    (hfinite : ∀ x ∈ values, x.isFinite = true) {cores : List UInt32} (hcores : cores.Nodup)
    (hsome : cores ≠ []) {slots : List (List Sample)}
    (hslots : List.Forall₂ (Repeats m cores) values slots) {series : List Sample}
    (hseries : List.Forall₂ (fun x s => s.value m = .ok (some x)) values series) :
    ∃ pooled single, weightedAverageOfCores slots.flatten [m] = .ok (MetricSet.empty.set m pooled) ∧
      weightedAverage series [m] = .ok (MetricSet.empty.set m single) ∧
      SameNumber pooled single ∧ (-0.0 ∉ values → pooled = single) := by
  have hcomplete : ∀ slot ∈ slots, CoversCores cores slot := by
    have hboth : List.Forall₂ (fun slot x => CoversCores cores slot ∧ Repeats m cores x slot)
        slots values :=
      List.Forall₂.flip (hslots.imp fun x slot hslot => ⟨hslot.coversCores, hslot⟩)
    exact ((List.forall₂_and_left slots values).mp hboth).1
  have hmeans := slotMeans_of_repeats hsome hfinite hslots
  have hsame : List.Forall₂ SameNumber (values.map (· + 0.0)) values :=
    List.forall₂_map_left_iff.mpr (List.forall₂_same.mpr fun x _ => sameNumber_add_zero x)
  obtain ⟨pooled, single, hpooled, hsingle, hnumber⟩ :=
    recencyWeighted_sameNumber hsame (mt List.map_eq_nil_iff.mp hvalues)
  refine ⟨pooled, single, ?_, ?_, hnumber, ?_⟩
  · rw [weightedAverageOfCores, timeSlots_flatten hcores hsome hcomplete]
    simp only [collect, hmeans, Except.map, hpooled]
  · rw [weightedAverage]
    simp only [collect, column_of_forall₂ (List.Forall₂.flip hseries), Except.map, hsingle]
  · intro hpositive
    have hback : values.map (· + 0.0) = values := by
      conv_rhs => rw [← List.map_id values]
      exact List.map_congr_left fun x hx => add_zero_of_ne fun heq => hpositive (heq ▸ hx)
    rw [hback] at hpooled
    exact Option.some.inj (hpooled.symm.trans hsingle)

/-- Three instants of two cores, which come in another order at the second. -/
theorem weightedAverageOfCores_of_repeats_bench :
    let row (c : UInt32) (t : Int64) (x : Float) : Sample := ⟨t, some c, [("c6res", .float x)]⟩
    ∃ pooled single : Float,
      weightedAverageOfCores [row 4 30 0.5, row 9 30 0.5, row 9 20 0.25, row 4 20 0.25,
        row 4 10 0.25, row 9 10 0.25] [.c6res] = .ok (MetricSet.empty.set .c6res pooled) ∧
      weightedAverage [row 4 30 0.5, row 4 20 0.25, row 4 10 0.25] [.c6res] =
        .ok (MetricSet.empty.set .c6res single) ∧ pooled = single := by
  intro row
  have hread : ∀ c t {x : Float}, x.isFinite = true →
      (row c t x).value .c6res = .ok (some x) := by
    intro c t x hx
    have hraw : (row c t x).raw? .c6res = some (.float x) := rfl
    have hreading : Sample.reading? (.float x) = some x := Option.filter_some_pos hx
    rw [Sample.value, hraw]
    simp only [hreading]
    rfl
  have hslot : ∀ {c c'} t {x : Float}, x.isFinite = true →
      [some c, some c'].Perm [some 4, some 9] →
        Repeats .c6res [4, 9] x [row c t x, row c' t x] := by
    intro c c' t x hx horder
    refine ⟨horder, List.forall_mem_cons.mpr ⟨hread c t hx, ?_⟩⟩
    exact List.forall_mem_singleton.mpr (hread c' t hx)
  have hhalf : (0.5 : Float).isFinite = true := by decide +kernel
  have hquarter : (0.25 : Float).isFinite = true := by decide +kernel
  have hslots : List.Forall₂ (Repeats .c6res [4, 9]) [0.5, 0.25, 0.25]
      [[row 4 30 0.5, row 9 30 0.5], [row 9 20 0.25, row 4 20 0.25],
        [row 4 10 0.25, row 9 10 0.25]] :=
    .cons (hslot 30 hhalf (by decide)) (.cons (hslot 20 hquarter (by decide))
      (.cons (hslot 10 hquarter (by decide)) .nil))
  have hseries : List.Forall₂ (fun x s => s.value .c6res = .ok (some x)) [0.5, 0.25, 0.25]
      [row 4 30 0.5, row 4 20 0.25, row 4 10 0.25] :=
    .cons (hread _ _ hhalf) (.cons (hread _ _ hquarter) (.cons (hread _ _ hquarter) .nil))
  obtain ⟨pooled, single, hpooled, hsingle, -, hsame⟩ := weightedAverageOfCores_of_repeats
    (by decide) (by simp [hhalf, hquarter]) (by decide) (by decide) hslots hseries
  refine ⟨pooled, single, hpooled, hsingle, hsame ?_⟩
  simp only [List.mem_cons, List.not_mem_nil, or_false]
  decide +kernel

/-- Where the newest value is a negative zero and the average vanishes by rounding, cores that
are pooled lose the sign. -/
example : recencyWeighted [-0.0, -5e-324] = some (-0.0 : Float) ∧
    recencyWeighted [-0.0 + 0.0, -5e-324 + 0.0] = some (0.0 : Float) := by
  decide +kernel

end SocketRanking.Aggregate
