import Mathlib.Data.List.Forall2
import SocketRanking.Proofs.Telemetry.Readings
import SocketRanking.Proofs.Telemetry.Slots

/-!
# What an aggregation answers

Whether an aggregation succeeds, and what it complains about if it does not, can be said of
the rows alone.  The first malformed value of a metric is the same however the rows are divided
into slots, so that both averages are given up for the same reason, and the first metric that
cannot be used decides which reason that is.  Values of other metrics and timestamps are never
looked at.
-/

namespace SocketRanking

/-- The value is a finite number, or a string that spells one between blanks. -/
inductive Json.Denotes : Json → Float → Prop
  | int {n : Int} (hfinite : (Float.ofInt n).isFinite = true) : Denotes (.int n) (.ofInt n)
  | float {x : Float} (hfinite : x.isFinite = true) : Denotes (.float x) x
  | string {text : String} {x : Float} (hspelled : Number.readFloat? (Text.trim text) = some x)
      (hfinite : x.isFinite = true) : Denotes (.string text) x

theorem Sample.reading?_eq_some_iff {raw : Json} {x : Float} :
    reading? raw = some x ↔ raw.Denotes x := by
  unfold reading?
  simp only [Option.filter_eq_some_iff]
  constructor
  · rintro ⟨hread, hfinite⟩
    cases raw with
    | int n =>
        obtain rfl := Option.some.inj hread
        exact .int hfinite
    | float y =>
        obtain rfl := Option.some.inj hread
        exact .float hfinite
    | string text => exact .string hread hfinite
    | _ => cases hread
  · rintro (hfinite | hfinite | ⟨hspelled, hfinite⟩)
    · exact ⟨rfl, hfinite⟩
    · exact ⟨rfl, hfinite⟩
    · exact ⟨hspelled, hfinite⟩

theorem Sample.reading?_eq_none_iff {raw : Json} : reading? raw = none ↔ ¬∃ x, raw.Denotes x := by
  simp only [Option.eq_none_iff_forall_ne_some, ne_eq, reading?_eq_some_iff, not_exists]

namespace Aggregate

/-! ## What the rows say of a metric -/

/-- The metric can be aggregated: a row carries it, and every row that does holds a finite
number or spells one. -/
structure IsUsable (m : Metric) (rows : List Sample) : Prop where
  carried : ∃ s ∈ rows, ∃ raw, s.raw? m = some raw
  readable : ∀ s ∈ rows, ∀ raw, s.raw? m = some raw → ∃ x, raw.Denotes x

/-- The failure of a metric that cannot be aggregated: it shows the first value that is no
number, in the order of the rows, or else says that no row carries the metric. -/
inductive Blames (m : Metric) (rows : List Sample) : Failure → Prop
  | unparsable {before after : List Sample} {s : Sample} {raw : Json}
      (hrows : rows = before ++ s :: after) (hraw : s.raw? m = some raw)
      (hmalformed : ¬∃ x, raw.Denotes x)
      (hfirst : ∀ r ∈ before, ∀ raw, r.raw? m = some raw → ∃ x, raw.Denotes x) :
      Blames m rows (.unparsable m raw.compact)
  | noSamples (hnone : ∀ s ∈ rows, s.raw? m = none) : Blames m rows (.noSamples m)

/-- The rows belong to the same core and hold the same values of the metrics. -/
def AlikeIn (metrics : List Metric) (r s : Sample) : Prop :=
  s.core = r.core ∧ ∀ m ∈ metrics, s.raw? m = r.raw? m

variable {α : Type} [Scalar α]

/-- What an aggregation answers for some rows and metrics, if `average` is what it makes of a
metric. -/
structure AnswersBy (average : Metric → Option α)
    (aggregate : List Sample → List Metric → Except Failure (MetricSet α))
    (rows : List Sample) (metrics : List Metric) : Prop where
  succeeds_iff : (∃ set, aggregate rows metrics = .ok set) ↔ ∀ m ∈ metrics, IsUsable m rows
  requested : ∀ set, aggregate rows metrics = .ok set → ∀ m ∈ metrics,
    ∃ x, average m = some x ∧ set.get m = some x
  others : ∀ set, aggregate rows metrics = .ok set → ∀ m ∉ metrics, set.get m = none
  fails : ∀ e, aggregate rows metrics = .error e → ∃ earlier m later,
    metrics = earlier ++ m :: later ∧ (∀ k ∈ earlier, IsUsable k rows) ∧ ¬IsUsable m rows ∧
      Blames m rows e
  unaffected : ∀ rows', List.Forall₂ (AlikeIn metrics) rows rows' →
    aggregate rows' metrics = aggregate rows metrics

section

variable {average : Metric → Option α}
  {aggregate : List Sample → List Metric → Except Failure (MetricSet α)} {rows : List Sample}
  {metrics : List Metric} (hunaffected : ∀ rows', List.Forall₂ (AlikeIn metrics) rows rows' →
    aggregate rows' metrics = aggregate rows metrics)

include hunaffected

omit [Scalar α] in
theorem AnswersBy.of_ok {set : MetricSet α} (hset : aggregate rows metrics = .ok set)
    (hrequested : ∀ m ∈ metrics, IsUsable m rows ∧ ∃ x, average m = some x ∧ set.get m = some x)
    (hothers : ∀ m ∉ metrics, set.get m = none) : AnswersBy average aggregate rows metrics where
  succeeds_iff := iff_of_true ⟨set, hset⟩ fun m hm => (hrequested m hm).1
  requested set' hset' m hm := by
    obtain rfl := Except.ok.inj (hset.symm.trans hset')
    exact (hrequested m hm).2
  others set' hset' m hm := by
    obtain rfl := Except.ok.inj (hset.symm.trans hset')
    exact hothers m hm
  fails e he := by cases hset.symm.trans he
  unaffected := hunaffected

omit [Scalar α] in
theorem AnswersBy.of_error {e : Failure} (he : aggregate rows metrics = .error e)
    {earlier later : List Metric} {m : Metric} (hsplit : metrics = earlier ++ m :: later)
    (hearlier : ∀ k ∈ earlier, IsUsable k rows) (hunusable : ¬IsUsable m rows)
    (hblames : Blames m rows e) : AnswersBy average aggregate rows metrics where
  succeeds_iff := by
    refine iff_of_false ?_ fun hall => hunusable (hall m (hsplit ▸ by simp))
    rintro ⟨set, hset⟩
    cases hset.symm.trans he
  requested set hset := by cases hset.symm.trans he
  others set hset := by cases hset.symm.trans he
  fails e' he' := by
    obtain rfl := Except.error.inj (he.symm.trans he')
    exact ⟨earlier, m, later, hsplit, hearlier, hunusable, hblames⟩
  unaffected := hunaffected

end

/-! ## What is found of a metric -/

section

variable {m : Metric}

theorem malformed?_eq_none_iff {rows : List Sample} : malformed? m rows = none ↔
    ∀ s ∈ rows, ∀ raw, s.raw? m = some raw → ∃ x, raw.Denotes x := by
  simp only [malformed?, List.find?_eq_none, List.mem_filterMap, Option.isNone_iff_eq_none,
    Sample.reading?_eq_none_iff, not_not]
  constructor
  · intro hall s hs raw hraw
    exact hall raw ⟨s, hs, hraw⟩
  · rintro hall raw ⟨s, hs, hraw⟩
    exact hall s hs raw hraw

theorem blames_of_malformed? {rows : List Sample} {raw : Json}
    (hraw : malformed? m rows = some raw) : Blames m rows (.unparsable m raw.compact) := by
  obtain ⟨hmalformed, sound, later, hsplit, hsound⟩ := List.find?_eq_some_iff_append.mp hraw
  obtain ⟨before, rest, rfl, rfl, hrest⟩ := List.filterMap_eq_append_iff.mp hsplit
  obtain ⟨skipped, s, after, rfl, hskipped, hcarried, -⟩ := List.filterMap_eq_cons_iff.mp hrest
  have hrows : before ++ (skipped ++ s :: after) = before ++ skipped ++ s :: after :=
    (List.append_assoc _ _ _).symm
  refine .unparsable hrows hcarried ?_ ?_
  · exact Sample.reading?_eq_none_iff.mp (Option.isNone_iff_eq_none.mp hmalformed)
  · intro r hr first hfirst
    rcases List.mem_append.mp hr with hbefore | hbetween
    · have hread := hsound first (List.mem_filterMap.mpr ⟨r, hbefore, hfirst⟩)
      rw [Bool.not_eq_true', Option.isNone_eq_false_iff, Option.isSome_iff_exists] at hread
      exact hread.imp fun x => Sample.reading?_eq_some_iff.mp
    · rw [hskipped r hbetween] at hfirst
      cases hfirst

theorem isUsable_iff {rows : List Sample} :
    IsUsable m rows ↔ malformed? m rows = none ∧ ¬∀ s ∈ rows, s.raw? m = none := by
  rw [malformed?_eq_none_iff]
  constructor
  · rintro ⟨⟨s, hs, raw, hraw⟩, hreadable⟩
    refine ⟨hreadable, fun hnone => ?_⟩
    rw [hnone s hs] at hraw
    cases hraw
  · rintro ⟨hreadable, hcarried⟩
    push Not at hcarried
    obtain ⟨s, hs, hraw⟩ := hcarried
    exact ⟨⟨s, hs, Option.ne_none_iff_exists'.mp hraw⟩, hreadable⟩

theorem recencyWeighted_eq_none_iff {values : List α} :
    recencyWeighted values = none ↔ values = [] := by
  cases values <;> simp [recencyWeighted]

theorem mean_eq_none_iff {values : List α} : mean values = none ↔ values = [] := by
  cases values <;> simp [mean]

/-- The values that are found for each metric: none of them if a row holds a malformed one,
and otherwise as many as make an average if a row carries the metric. -/
structure Finds (rows : List Sample) (find : Metric → Except Failure (List α))
    (values : Metric → List α) : Prop where
  find_eq : ∀ m, find m = checked m rows (values m)
  eq_nil_iff : ∀ m, malformed? m rows = none → (values m = [] ↔ ∀ s ∈ rows, s.raw? m = none)

/-- Each metric has an average, or a failure that is to blame. -/
theorem Finds.cases {rows : List Sample} {find : Metric → Except Failure (List α)}
    {values : Metric → List α} (hfinds : Finds rows find values) (m : Metric) :
    (IsUsable m rows ∧ ∃ x, recencyWeighted (values m) = some x ∧
      (find m).map recencyWeighted = .ok (some x)) ∨
    (¬IsUsable m rows ∧ ∃ e, Blames m rows e ∧ ((find m).map recencyWeighted = .error e ∨
      (find m).map recencyWeighted = .ok none ∧ e = .noSamples m)) := by
  rw [isUsable_iff, hfinds.find_eq m, checked]
  cases hmalformed : malformed? m rows with
  | some raw =>
      exact Or.inr ⟨by simp, _, blames_of_malformed? hmalformed, Or.inl rfl⟩
  | none =>
      by_cases hnone : ∀ s ∈ rows, s.raw? m = none
      · have hempty : recencyWeighted (values m) = none :=
          recencyWeighted_eq_none_iff.mpr ((hfinds.eq_nil_iff m hmalformed).mpr hnone)
        exact Or.inr ⟨fun husable => husable.2 hnone, _, .noSamples hnone,
          Or.inr ⟨congrArg Except.ok hempty, rfl⟩⟩
      · have hsome : recencyWeighted (values m) ≠ none := fun hempty =>
          hnone ((hfinds.eq_nil_iff m hmalformed).mp (recencyWeighted_eq_none_iff.mp hempty))
        obtain ⟨x, hx⟩ := Option.ne_none_iff_exists'.mp hsome
        exact Or.inl ⟨⟨rfl, hnone⟩, x, hx, congrArg Except.ok hx⟩

section

variable {rows : List Sample} {find : Metric → Except Failure (List α)} {values : Metric → List α}
  (hfinds : Finds rows find values) {m : Metric}

include hfinds

theorem Finds.isUsable_of_ok {x : α} (hx : (find m).map recencyWeighted = .ok (some x)) :
    IsUsable m rows ∧ recencyWeighted (values m) = some x := by
  rcases hfinds.cases m with ⟨husable, y, hy, haverage⟩ | ⟨-, e, -, he | ⟨hnone, -⟩⟩
  · obtain rfl := Option.some.inj (Except.ok.inj (haverage.symm.trans hx))
    exact ⟨husable, hy⟩
  · cases he.symm.trans hx
  · cases hnone.symm.trans hx

theorem Finds.blames_of_failed {e : Failure} (he : (find m).map recencyWeighted = .error e ∨
    (find m).map recencyWeighted = .ok none ∧ e = .noSamples m) :
    ¬IsUsable m rows ∧ Blames m rows e := by
  rcases hfinds.cases m with ⟨-, y, -, haverage⟩ | ⟨hunusable, e', hblames, he'⟩
  · rw [haverage] at he
    simp at he
  · have heq : e = e' := by
      rcases he with he | ⟨hnone, rfl⟩ <;> rcases he' with he' | ⟨hnone', rfl⟩
      · exact Except.error.inj (he.symm.trans he')
      · cases he.symm.trans hnone'
      · cases hnone.symm.trans he'
      · rfl
    exact ⟨hunusable, heq ▸ hblames⟩

theorem Finds.answersBy {metrics : List Metric}
    {aggregate : List Sample → List Metric → Except Failure (MetricSet α)}
    (haggregate : aggregate rows metrics =
      collect (fun m => (find m).map recencyWeighted) metrics .empty)
    (hunaffected : ∀ rows', List.Forall₂ (AlikeIn metrics) rows rows' →
      aggregate rows' metrics = aggregate rows metrics) :
    AnswersBy (fun m => recencyWeighted (values m)) aggregate rows metrics := by
  rcases collect_cases (fun m => (find m).map recencyWeighted) metrics .empty with
    ⟨set, hset, hrequested, hothers⟩ | ⟨earlier, m, later, e, hsplit, hearlier, he, hm⟩
  · refine .of_ok hunaffected (haggregate.trans hset) (fun m hm => ?_) fun m hm => ?_
    · obtain ⟨x, hx, hget⟩ := hrequested m hm
      obtain ⟨husable, hmean⟩ := hfinds.isUsable_of_ok hx
      exact ⟨husable, x, hmean, hget⟩
    · rw [hothers m hm, MetricSet.get_empty]
  · obtain ⟨hunusable, hblames⟩ := hfinds.blames_of_failed hm
    refine .of_error hunaffected (haggregate.trans he) hsplit (fun k hk => ?_) hunusable hblames
    obtain ⟨x, hx⟩ := hearlier k hk
    exact (hfinds.isUsable_of_ok hx).1

end

theorem readings_eq_nil_iff {rows : List Sample} (hsound : malformed? m rows = none) :
    (readings m rows : List α) = [] ↔ ∀ s ∈ rows, s.raw? m = none := by
  have hreadable := malformed?_eq_none_iff.mp hsound
  simp only [readings, List.filterMap_eq_nil_iff, List.mem_filterMap, Option.map_eq_none_iff]
  constructor
  · intro hempty s hs
    by_contra hcarried
    obtain ⟨raw, hraw⟩ := Option.ne_none_iff_exists'.mp hcarried
    exact Sample.reading?_eq_none_iff.mp (hempty raw ⟨s, hs, hraw⟩) (hreadable s hs raw hraw)
  · rintro hnone raw ⟨s, hs, hraw⟩
    rw [hnone s hs] at hraw
    cases hraw

theorem finds_column (rows : List Sample) :
    Finds (α := α) rows (column rows) (readings · rows) where
  find_eq _ := column_eq rows
  eq_nil_iff _ := readings_eq_nil_iff

theorem finds_slotMeans (slots : List (List Sample)) : Finds (α := α) slots.flatten
    (slotMeans · slots) fun m => slots.filterMap fun slot => mean (readings m slot) where
  find_eq _ := slotMeans_eq slots
  eq_nil_iff m hsound := by
    have hslots : ∀ slot ∈ slots, malformed? m slot = none := by
      intro slot hslot
      rw [malformed?_eq_none_iff] at hsound ⊢
      exact fun s hs => hsound s (List.mem_flatten_of_mem hslot hs)
    simp only [List.filterMap_eq_nil_iff, mean_eq_none_iff, List.mem_flatten]
    constructor
    · rintro hempty s ⟨slot, hslot, hs⟩
      exact (readings_eq_nil_iff (hslots slot hslot)).mp (hempty slot hslot) s hs
    · intro hnone slot hslot
      exact (readings_eq_nil_iff (hslots slot hslot)).mpr fun s hs => hnone s ⟨slot, hslot, hs⟩

/-! ## What is not looked at -/

section

variable {metrics : List Metric} {rows rows' : List Sample}

theorem filterMap_raw?_congr (halike : List.Forall₂ (AlikeIn metrics) rows rows')
    (hm : m ∈ metrics) : rows'.filterMap (·.raw? m) = rows.filterMap (·.raw? m) := by
  induction halike with
  | nil => rfl
  | cons hfirst _ ih => rw [List.filterMap_cons, List.filterMap_cons, hfirst.2 m hm, ih]

theorem column_congr (halike : List.Forall₂ (AlikeIn metrics) rows rows') (hm : m ∈ metrics) :
    (column rows' m : Except Failure (List α)) = column rows m := by
  rw [column_eq, column_eq, checked, checked, malformed?, malformed?, readings, readings,
    filterMap_raw?_congr halike hm]

theorem slotMeans_congr {slots slots' : List (List Sample)}
    (halike : List.Forall₂ (List.Forall₂ (AlikeIn metrics)) slots slots') (hm : m ∈ metrics) :
    (slotMeans m slots' : Except Failure (List α)) = slotMeans m slots := by
  induction halike with
  | nil => rfl
  | cons hfirst _ ih => rw [slotMeans, slotMeans, column_congr hfirst hm, ih]

omit [Scalar α] in
theorem collect_congr {aggregate aggregate' : Metric → Except Failure (Option α)}
    (hagree : ∀ m ∈ metrics, aggregate' m = aggregate m) (before : MetricSet α) :
    collect aggregate' metrics before = collect aggregate metrics before := by
  induction metrics generalizing before with
  | nil => rfl
  | cons m rest ih =>
      obtain ⟨hm, hrest⟩ := List.forall_mem_cons.mp hagree
      simp only [collect, hm, ih hrest]

theorem opensSlot_congr {slot slot' : List Sample} {s s' : Sample}
    (hslot : List.Forall₂ (AlikeIn metrics) slot slot') (hs : AlikeIn metrics s s') :
    opensSlot slot' s' = opensSlot slot s := by
  unfold opensSlot
  rw [hs.1]
  congr 1
  induction hslot with
  | nil => rfl
  | cons hfirst _ ih => rw [List.any_cons, List.any_cons, hfirst.1, ih]

/-- Slots end where they do because of the cores of the rows. -/
theorem slotsFrom_alike {opened opened' : List Sample}
    (hopened : List.Forall₂ (AlikeIn metrics) opened opened')
    (hrows : List.Forall₂ (AlikeIn metrics) rows rows') :
    List.Forall₂ (List.Forall₂ (AlikeIn metrics)) (slotsFrom opened rows)
      (slotsFrom opened' rows') := by
  induction hrows generalizing opened opened' with
  | nil =>
      cases hopened with
      | nil => exact .nil
      | cons hfirst hlater => exact .cons (List.rel_reverse (.cons hfirst hlater)) .nil
  | cons hs hrest ih =>
      cases hopened with
      | nil =>
          rw [slotsFrom, slotsFrom]
          exact ih (.cons hs .nil)
      | cons hfirst hlater =>
          have hslot := List.Forall₂.cons hfirst hlater
          rw [slotsFrom_cons (List.cons_ne_nil _ _), slotsFrom_cons (List.cons_ne_nil _ _),
            opensSlot_congr hslot hs]
          split
          · exact .cons (List.rel_reverse hslot) (ih (.cons hs .nil))
          · exact ih (.cons hs hslot)

theorem timeSlots_alike (halike : List.Forall₂ (AlikeIn metrics) rows rows') :
    List.Forall₂ (List.Forall₂ (AlikeIn metrics)) (timeSlots rows) (timeSlots rows') :=
  slotsFrom_alike .nil halike

end

/-! ## Both averages -/

theorem weightedAverage_answersBy (rows : List Sample) (metrics : List Metric) :
    AnswersBy (α := α) (fun m => recencyWeighted (readings m rows)) weightedAverage rows
      metrics := by
  refine (finds_column rows).answersBy rfl fun rows' halike => ?_
  refine collect_congr (fun m hm => ?_) _
  rw [column_congr halike hm]

theorem weightedAverageOfCores_answersBy (rows : List Sample) (metrics : List Metric) :
    AnswersBy (α := α) (fun m => recencyWeighted
        ((timeSlots rows).filterMap fun slot => mean (readings m slot)))
      weightedAverageOfCores rows metrics := by
  have hfinds := finds_slotMeans (α := α) (timeSlots rows)
  rw [flatten_timeSlots] at hfinds
  refine hfinds.answersBy rfl fun rows' halike => ?_
  refine collect_congr (fun m hm => ?_) _
  rw [slotMeans_congr (timeSlots_alike halike) hm]

/-- Both averages succeed exactly if every requested metric can be used, answer with the
averages of these metrics alone, and otherwise tell what is wrong with the first metric that
cannot be used.  Values of other metrics and timestamps have no part in it. -/
theorem averages_answersBy (rows : List Sample) (metrics : List Metric) :
    AnswersBy (α := α) (fun m => recencyWeighted (readings m rows)) weightedAverage rows metrics ∧
      AnswersBy (α := α) (fun m => recencyWeighted
          ((timeSlots rows).filterMap fun slot => mean (readings m slot)))
        weightedAverageOfCores rows metrics :=
  ⟨weightedAverage_answersBy rows metrics, weightedAverageOfCores_answersBy rows metrics⟩

end

end Aggregate

end SocketRanking
