import Mathlib.Data.List.Forall2
import SocketRanking.Telemetry.Aggregate

/-!
# Readings of a metric

An aggregation reads rows, slots and metrics in turn and stops at the first value that is no
reading.  What it finds of a metric is nevertheless a matter of the rows alone: their readings
in order (`readings`), unless one of the values is malformed (`malformed?`), which does not
depend on how the rows are divided into slots.
-/

namespace SocketRanking.Aggregate

variable {α : Type} [Scalar α]

/-- The values of a metric in the rows that carry it, as far as they are numbers. -/
def readings (m : Metric) (rows : List Sample) : List α :=
  (rows.filterMap (·.raw? m)).filterMap fun raw => (Sample.reading? raw).map Scalar.ofReading

/-- The first value of a metric that is no number. -/
def malformed? (m : Metric) (rows : List Sample) : Option Json :=
  (rows.filterMap (·.raw? m)).find? fun raw => (Sample.reading? raw).isNone

/-- The values, unless a row holds a malformed one. -/
def checked (m : Metric) (rows : List Sample) (values : List α) : Except Failure (List α) :=
  match malformed? m rows with
  | some raw => .error (.unparsable m raw.compact)
  | none => .ok values

section

variable {m : Metric}

/-! ## Rows -/

theorem malformed?_append (rows later : List Sample) :
    malformed? m (rows ++ later) = (malformed? m rows).or (malformed? m later) := by
  rw [malformed?, List.filterMap_append, List.find?_append, malformed?, malformed?]

theorem malformed?_cons (s : Sample) (rest : List Sample) : malformed? m (s :: rest) =
    ((s.raw? m).filter fun raw => (Sample.reading? raw).isNone).or (malformed? m rest) := by
  rw [← List.singleton_append, malformed?_append]
  congr 1
  cases hraw : s.raw? m with
  | none => simp [malformed?, hraw]
  | some raw => simp [malformed?, hraw, Option.filter]

theorem readings_cons (s : Sample) (rest : List Sample) : readings m (s :: rest) =
    ((((s.raw? m).bind Sample.reading?).map Scalar.ofReading).toList ++
      readings m rest : List α) := by
  cases hraw : s.raw? m with
  | none => simp [readings, hraw]
  | some raw => cases hread : Sample.reading? raw <;> simp [readings, hraw, hread]

theorem column_eq (rows : List Sample) :
    (column rows m : Except Failure (List α)) = checked m rows (readings m rows) := by
  induction rows with
  | nil => rfl
  | cons s rest ih =>
      rw [column, ih, checked, checked, malformed?_cons, readings_cons]
      unfold Sample.value
      cases s.raw? m with
      | none => rfl
      | some raw =>
          cases hread : Sample.reading? raw with
          | none => simp [Option.filter, hread]
          | some x => cases malformed? m rest <;> simp [Option.filter, hread]

theorem value_eq_ok_some_iff {s : Sample} {v : α} : s.value m = .ok (some v) ↔
    ∃ raw, s.raw? m = some raw ∧ ∃ x, Sample.reading? raw = some x ∧ Scalar.ofReading x = v := by
  unfold Sample.value
  cases s.raw? m with
  | none => simp
  | some raw => cases hread : Sample.reading? raw <;> simp [hread]

theorem mem_readings {rows : List Sample} {v : α} :
    v ∈ readings m rows ↔ ∃ s ∈ rows, s.value m = .ok (some v) := by
  simp only [readings, List.mem_filterMap, Option.map_eq_some_iff, value_eq_ok_some_iff]
  constructor
  · rintro ⟨raw, ⟨s, hs, hraw⟩, hread⟩
    exact ⟨s, hs, raw, hraw, hread⟩
  · rintro ⟨s, hs, raw, hraw, hread⟩
    exact ⟨raw, ⟨s, hs, hraw⟩, hread⟩

omit [Scalar α] in
theorem eq_of_checked {rows : List Sample} {values found : List α}
    (hfound : checked m rows values = .ok found) : found = values := by
  unfold checked at hfound
  split at hfound
  · cases hfound
  · exact (Except.ok.inj hfound).symm

/-- A column holds readings of its rows. -/
theorem exists_of_mem_column {samples : List Sample} {values : List α}
    (hcolumn : column samples m = .ok values) {v : α} (hv : v ∈ values) :
    ∃ s ∈ samples, s.value m = .ok (some v) := by
  rw [column_eq] at hcolumn
  obtain rfl := eq_of_checked hcolumn
  exact mem_readings.mp hv

/-- Rows that all carry a reading of the metric. -/
theorem column_of_forall₂ {rows : List Sample} {values : List α}
    (hrows : List.Forall₂ (fun s x => s.value m = .ok (some x)) rows values) :
    column rows m = .ok values := by
  induction hrows with
  | nil => rfl
  | cons hx _ ih =>
      rw [column, hx]
      simp only [ih]

/-! ## Slots -/

/-- The values of the rows divided into slots are malformed or not wherever the slots end. -/
theorem slotMeans_eq (slots : List (List Sample)) : (slotMeans m slots : Except Failure (List α)) =
    checked m slots.flatten (slots.filterMap fun slot => mean (readings m slot)) := by
  induction slots with
  | nil => rfl
  | cons slot rest ih =>
      rw [slotMeans, column_eq, ih, List.flatten_cons, checked, checked, checked,
        malformed?_append]
      cases malformed? m slot with
      | some raw => rfl
      | none =>
          cases malformed? m rest.flatten with
          | some raw => rfl
          | none => cases hmean : mean (readings m slot : List α) <;> simp [hmean]

/-- Slots that all have a mean of the metric. -/
theorem slotMeans_of_forall₂ {slots : List (List Sample)} {means : List α}
    (hslots : List.Forall₂ (fun slot x => ∃ values, column slot m = .ok values ∧
      mean values = some x) slots means) : slotMeans m slots = .ok means := by
  induction hslots with
  | nil => rfl
  | cons hslot _ ih =>
      obtain ⟨values, hcolumn, hmean⟩ := hslot
      rw [slotMeans, hcolumn]
      simp only [ih, hmean]

/-- What means of readings have, the means over slots have. -/
theorem forall_mem_slotMeans {P Q : α → Prop}
    (hmean : ∀ {values : List α} {x : α}, mean values = some x → (∀ v ∈ values, P v) → Q x)
    {slots : List (List Sample)} {means : List α} (hmeans : slotMeans m slots = .ok means)
    (hreadings : ∀ slot ∈ slots, ∀ s ∈ slot, ∀ x : α, s.value m = .ok (some x) → P x) :
    ∀ v ∈ means, Q v := by
  rw [slotMeans_eq] at hmeans
  obtain rfl := eq_of_checked hmeans
  intro v hv
  obtain ⟨slot, hslot, hx⟩ := List.mem_filterMap.mp hv
  refine hmean hx fun x hx => ?_
  obtain ⟨s, hs, hvalue⟩ := mem_readings.mp hx
  exact hreadings slot hslot s hs x hvalue

/-! ## Metrics -/

omit [Scalar α] in
/-- Metrics are aggregated one after the other, up to the first that fails. -/
theorem collect_cases (aggregate : Metric → Except Failure (Option α)) (metrics : List Metric)
    (before : MetricSet α) :
    (∃ set, collect aggregate metrics before = .ok set ∧
      (∀ m ∈ metrics, ∃ x, aggregate m = .ok (some x) ∧ set.get m = some x) ∧
      ∀ m ∉ metrics, set.get m = before.get m) ∨
    ∃ earlier m later e, metrics = earlier ++ m :: later ∧
      (∀ k ∈ earlier, ∃ x, aggregate k = .ok (some x)) ∧
      collect aggregate metrics before = .error e ∧
      (aggregate m = .error e ∨ aggregate m = .ok none ∧ e = .noSamples m) := by
  induction metrics generalizing before with
  | nil => exact Or.inl ⟨before, rfl, by simp, by simp⟩
  | cons m rest ih =>
      rw [collect]
      cases hm : aggregate m with
      | error e => exact Or.inr ⟨[], m, rest, e, rfl, by simp, rfl, Or.inl hm⟩
      | ok average =>
          cases average with
          | none => exact Or.inr ⟨[], m, rest, _, rfl, by simp, rfl, Or.inr ⟨hm, rfl⟩⟩
          | some x =>
              rcases ih (before.set m x) with
                ⟨set, hset, hrequested, hothers⟩ | ⟨earlier, k, later, e, rfl, hearlier, he, hk⟩
              · refine Or.inl ⟨set, hset, ?_, ?_⟩
                · intro k hk
                  by_cases hrest : k ∈ rest
                  · exact hrequested k hrest
                  · obtain rfl := (List.mem_cons.mp hk).resolve_right hrest
                    refine ⟨x, hm, ?_⟩
                    rw [hothers k hrest, MetricSet.get_set, if_pos rfl]
                · intro k hk
                  obtain ⟨hne, hrest⟩ := not_or.mp (List.mem_cons.not.mp hk)
                  rw [hothers k hrest, MetricSet.get_set, if_neg (Ne.symm hne)]
              · exact Or.inr ⟨m :: earlier, k, later, e, rfl,
                  List.forall_mem_cons.mpr ⟨⟨x, hm⟩, hearlier⟩, he, hk⟩

omit [Scalar α] in
/-- What is collected was there before or has been aggregated. -/
theorem get_of_collect {aggregate : Metric → Except Failure (Option α)} {metrics : List Metric}
    {before after : MetricSet α} (hcollect : collect aggregate metrics before = .ok after) {x : α}
    (hx : after.get m = some x) : before.get m = some x ∨ aggregate m = .ok (some x) := by
  rcases collect_cases aggregate metrics before with
    ⟨set, hset, hrequested, hothers⟩ | ⟨-, -, -, e, -, -, he, -⟩
  · obtain rfl := Except.ok.inj (hset.symm.trans hcollect)
    by_cases hm : m ∈ metrics
    · obtain ⟨y, hy, hget⟩ := hrequested m hm
      rw [hget] at hx
      exact Or.inr (hx ▸ hy)
    · exact Or.inl (hothers m hm ▸ hx)
  · cases he.symm.trans hcollect

/-- A collected mean is the mean of the values that were found for its metric. -/
theorem exists_of_get_collect (find : Metric → Except Failure (List α)) {metrics : List Metric}
    {set : MetricSet α}
    (hset : collect (fun m => (find m).map recencyWeighted) metrics .empty = .ok set) {x : α}
    (hx : set.get m = some x) :
    ∃ values, find m = .ok values ∧ recencyWeighted values = some x := by
  rcases get_of_collect hset hx with hempty | haggregate
  · rw [MetricSet.get_empty] at hempty
    cases hempty
  · cases hvalues : find m with
    | error e =>
        rw [hvalues] at haggregate
        cases haggregate
    | ok values =>
        rw [hvalues] at haggregate
        exact ⟨values, rfl, Except.ok.inj haggregate⟩

end

end SocketRanking.Aggregate
