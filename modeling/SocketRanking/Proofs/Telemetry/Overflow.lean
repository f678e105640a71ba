import SocketRanking.Proofs.Number.Magnitude
import SocketRanking.Proofs.Telemetry.Averages

/-!
# Averages that do not overflow

An average is computed from deviations, weights and their sum, each of which can be larger
than every reading, so that averages of finite readings need not be finite.  Where readings
stay within a bound and their number fits a machine word, averages exceed the bound by a
fixed factor at most: `isWithin_weightedAverage`, `isWithin_weightedAverageOfCores`.
-/

namespace SocketRanking.Aggregate

open Number

section Averages

variable {k : ℕ} {values : List Float}

theorem isWithin_deviation {anchor v : Float} (hanchor : IsWithin (2 ^ k) anchor)
    (hv : IsWithin (2 ^ k) v) (hk : k < 1023) : IsWithin (2 ^ (k + 1)) (v - anchor) := by
  refine hv.sub hanchor (isBound_two_pow (by omega)) ?_
  rw [pow_succ]
  linarith

/-- Weights are differences of counts, so they lie within twice a machine word. -/
theorem isWithin_weight {n j : ℕ} (hn : n ≤ 2 ^ 64) (hj : j ≤ 2 ^ 64) :
    IsWithin (2 ^ 65) (Float.ofNat n - Float.ofNat j) :=
  (isWithin_ofNat hn (by norm_num)).sub (isWithin_ofNat hj (by norm_num))
    (isBound_two_pow (by norm_num)) (by norm_num)

theorem isWithin_weightedDeviations {anchor : Float} (hanchor : IsWithin (2 ^ k) anchor)
    (hvalues : ∀ v ∈ values, IsWithin (2 ^ k) v) (hk : k + 66 < 1024) {n j : ℕ}
    (hn : n ≤ 2 ^ 64) (hj : j + values.length ≤ 2 ^ 64) :
    ∀ x ∈ weightedDeviations anchor (Float.ofNat n) j values, IsWithin (2 ^ (k + 66)) x := by
  induction values generalizing j with
  | nil => exact fun x hx => absurd hx List.not_mem_nil
  | cons v rest ih =>
      obtain ⟨hv, hrest⟩ := List.forall_mem_cons.mp hvalues
      rw [List.length_cons] at hj
      have hfirst : IsWithin (2 ^ (k + 66)) ((v - anchor) * (Float.ofNat n - Float.ofNat j)) :=
        (isWithin_deviation hanchor hv (by omega)).mul (isWithin_weight hn (by omega))
          (isBound_two_pow hk) (pow_add 2 (k + 1) 65).ge
      rw [weightedDeviations]
      exact List.forall_mem_cons.mpr ⟨hfirst, ih hrest (by omega)⟩

theorem isAbove_total {n : ℕ} (hn : 0 < n) :
    IsAbove (2 ^ (-1 : ℤ)) (Float.ofNat n * (Float.ofNat n + 1.0) / 2.0) := by
  have hcount := isAbove_ofNat hn
  have hnext : IsAbove 1 (Float.ofNat n + 1.0) :=
    hcount.add isAbove_one isRepresentable_one one_pos (by norm_num)
  have hproduct : IsAbove 1 (Float.ofNat n * (Float.ofNat n + 1.0)) :=
    hcount.mul hnext zero_le_one isRepresentable_one one_pos (mul_one 1).ge
  have htwo : (2.0 : Float).toModel.unpack =
      .finite .positive (2 ^ 52) (-51) (by decide) := rfl
  exact hproduct.div htwo (isRepresentable_two_zpow (by norm_num)) (by positivity) (by norm_num)

theorem isWithin_recencyWeighted (hvalues : ∀ v ∈ values, IsWithin (2 ^ k) v)
    (hlength : values.length ≤ 2 ^ 64) (hk : k + 122 < 1024) {x : Float}
    (hx : recencyWeighted values = some x) : IsWithin (2 ^ (k + 122)) x := by
  cases values with
  | nil => cases hx
  | cons anchor rest =>
      obtain rfl := Option.some.inj hx
      have hanchor := hvalues anchor List.mem_cons_self
      have hsum : IsWithin (2 ^ (k + 66 + 54)) (Scalar.sum (weightedDeviations anchor
          (Float.ofNat (anchor :: rest).length) 0 (anchor :: rest))) :=
        isWithin_sum
          (isWithin_weightedDeviations hanchor hvalues (by omega) hlength (by omega)) (by omega)
      -- the weights add up to a half or more, so their sum doubles the bound at most
      have hdouble : (2 : ℚ) ^ (k + 66 + 54) / 2 ^ (-1 : ℤ) = 2 ^ (k + 121) := by
        rw [pow_succ 2 (k + 120), zpow_neg_one, div_inv_eq_mul]
      have hoffset := hsum.div (isAbove_total (Nat.succ_pos rest.length)) (by positivity)
        (isBound_two_pow (by omega)) hdouble.le
      refine hanchor.add hoffset (isBound_two_pow hk) ?_
      have hgrow : (2 : ℚ) ^ k ≤ 2 ^ (k + 121) := pow_le_pow_right₀ one_le_two (by omega)
      rw [pow_succ 2 (k + 121)]
      linarith

theorem isWithin_mean (hvalues : ∀ v ∈ values, IsWithin (2 ^ k) v) (hk : k + 56 < 1024)
    {x : Float} (hx : mean values = some x) : IsWithin (2 ^ (k + 56)) x := by
  cases values with
  | nil => cases hx
  | cons anchor rest =>
      obtain rfl := Option.some.inj hx
      have hanchor := hvalues anchor List.mem_cons_self
      have hdeviations : ∀ x ∈ (anchor :: rest).map (· - anchor), IsWithin (2 ^ (k + 1)) x := by
        intro x hx
        obtain ⟨v, hv, rfl⟩ := List.mem_map.mp hx
        exact isWithin_deviation hanchor (hvalues v hv) (by omega)
      have hsum : IsWithin (2 ^ (k + 1 + 54)) (Scalar.sum ((anchor :: rest).map (· - anchor))) :=
        isWithin_sum hdeviations (by omega)
      have hoffset := hsum.div (isAbove_ofNat (Nat.succ_pos rest.length)) one_pos
        (isBound_two_pow (by omega)) (div_one _).le
      refine hanchor.add hoffset (isBound_two_pow hk) ?_
      have hgrow : (2 : ℚ) ^ k ≤ 2 ^ (k + 55) := pow_le_pow_right₀ one_le_two (by omega)
      rw [pow_succ 2 (k + 55)]
      linarith

end Averages

/-! ## Windows -/

section Windows

variable {α : Type} [Scalar α]

theorem length_column_le {samples : List Sample} {m : Metric} {values : List α}
    (hcolumn : column samples m = .ok values) : values.length ≤ samples.length := by
  induction samples generalizing values with
  | nil =>
      obtain rfl : [] = values := Except.ok.inj hcolumn
      exact le_refl 0
  | cons s rest ih =>
      rw [column] at hcolumn
      split at hcolumn
      · cases hcolumn
      · exact (ih hcolumn).trans (Nat.le_succ _)
      · split at hcolumn
        · cases hcolumn
        next later hlater =>
          obtain rfl := Except.ok.inj hcolumn
          exact Nat.succ_le_succ (ih hlater)

theorem length_slotMeans_le {slots : List (List Sample)} {m : Metric} {means : List α}
    (hmeans : slotMeans m slots = .ok means) : means.length ≤ slots.length := by
  induction slots generalizing means with
  | nil =>
      obtain rfl : [] = means := Except.ok.inj hmeans
      exact le_refl 0
  | cons slot rest ih =>
      rw [slotMeans] at hmeans
      split at hmeans
      · cases hmeans
      · split at hmeans
        · cases hmeans
        next later hlater =>
          split at hmeans
          · obtain rfl := Except.ok.inj hmeans
            exact Nat.succ_le_succ (ih hlater)
          · obtain rfl := Except.ok.inj hmeans
            exact (ih hlater).trans (Nat.le_succ _)

theorem length_slotsFrom_le (opened rows : List Sample) :
    (slotsFrom opened rows).length ≤ rows.length + 1 := by
  fun_induction slotsFrom opened rows with
  | case1 => exact Nat.zero_le _
  | case2 opened hopened => exact le_refl _
  | case3 s rest ih => exact ih.trans (Nat.le_succ _)
  | case4 opened s rest hopened hopens ih => exact Nat.succ_le_succ ih
  | case5 opened s rest hopened hstays ih => exact ih.trans (Nat.le_succ _)

/-- There are no more time slots than rows. -/
theorem length_timeSlots_le (rows : List Sample) : (timeSlots rows).length ≤ rows.length := by
  cases rows with
  | nil => exact le_refl 0
  | cons s rest => exact length_slotsFrom_le [s] rest

end Windows

section Bounds

variable {k : ℕ} {rows : List Sample} {metrics : List Metric} {set : MetricSet Float}
  (hreads : ∀ m, ∀ row ∈ rows, ∀ x : Float, row.value m = .ok (some x) → IsWithin (2 ^ k) x)
  (hlength : rows.length ≤ 2 ^ 64)

include hreads hlength

theorem isWithin_weightedAverage (hk : k + 122 < 1024)
    (hset : weightedAverage rows metrics = .ok set) {m : Metric} {x : Float}
    (hx : set.get m = some x) : IsWithin (2 ^ (k + 122)) x := by
  obtain ⟨values, hcolumn, haverage⟩ := exists_of_get_collect (column rows) hset hx
  have hvalues : ∀ v ∈ values, IsWithin (2 ^ k) v := by
    intro v hv
    obtain ⟨row, hrow, hvalue⟩ := exists_of_mem_column hcolumn hv
    exact hreads m row hrow v hvalue
  exact isWithin_recencyWeighted hvalues ((length_column_le hcolumn).trans hlength) hk haverage

theorem isWithin_weightedAverageOfCores (hk : k + 178 < 1024)
    (hset : weightedAverageOfCores rows metrics = .ok set) {m : Metric} {x : Float}
    (hx : set.get m = some x) : IsWithin (2 ^ (k + 178)) x := by
  obtain ⟨means, hmeans, haverage⟩ :=
    exists_of_get_collect (slotMeans · (timeSlots rows)) hset hx
  have hvalues : ∀ v ∈ means, IsWithin (2 ^ (k + 56)) v := by
    refine forall_mem_slotMeans (fun hmean hv => isWithin_mean hv (by omega) hmean) hmeans ?_
    intro slot hslot row hrow
    exact hreads m row (mem_of_mem_timeSlots hslot hrow)
  have hmany : means.length ≤ 2 ^ 64 :=
    (length_slotMeans_le hmeans).trans ((length_timeSlots_le rows).trans hlength)
  exact isWithin_recencyWeighted hvalues hmany hk haverage

end Bounds

end SocketRanking.Aggregate
