import Mathlib.Algebra.BigOperators.Group.List.Basic
import Mathlib.Algebra.Ring.Nat
import Mathlib.Data.List.Sort
import SocketRanking.Telemetry.Log

/-!
# What a telemetry log holds

Rows are added to a log in any order and any number at a time, and the log may be cleared.
A series is then the stable sort, newest rows first, of all rows that were added to it
since, in the order of their addition.  Entering rows one by one behind those that are not
older comes to the same as sorting all of them once: `foldl_insertRow_mergeSort`.
-/

namespace SocketRanking.TelemetryLog

/-- Whether a row may stand before another. -/
def newerFirst (r s : Sample) : Bool :=
  decide (s.timestamp ≤ r.timestamp)

/-- What can be done to a log. -/
inductive Operation where
  | push (k : SeriesKey) (s : Sample)
  | extend (k : SeriesKey) (samples : List Sample)
  | clear

/-- What an operation makes of a log. -/
def perform (l : TelemetryLog) : Operation → TelemetryLog
  | .push k s => l.push k s
  | .extend k samples => l.extend k samples
  | .clear => .empty

/-- Carries operations out one after the other. -/
def run (l : TelemetryLog) (ops : List Operation) : TelemetryLog :=
  ops.foldl perform l

/-- The rows that were added since the last clear, with their series, in the order of their
addition. -/
def Operation.enter (added : List (SeriesKey × Sample)) : Operation → List (SeriesKey × Sample)
  | .push k s => added ++ [(k, s)]
  | .extend k samples => added ++ samples.map (k, ·)
  | .clear => []

/-- The rows of a snapshot, with their series, in the order of the snapshot. -/
def listed (snapshot : LogSnapshot) : List (SeriesKey × Sample) :=
  snapshot.series.flatMap fun s => s.samples.map (s.key, ·)

/-- The rows among those added that belong to a series. -/
def addedTo (k : SeriesKey) (added : List (SeriesKey × Sample)) : List Sample :=
  (added.filter (·.1 = k)).map (·.2)

/-! ## Sorting by insertion -/

/-- Entering a row at the front and entering one at the back do not disturb each other. -/
theorem insertRow_orderedInsert (s a : Sample) (rows : List Sample) :
    insertRow s (rows.orderedInsert (newerFirst · ·) a) =
      (insertRow s rows).orderedInsert (newerFirst · ·) a := by
  induction rows with
  | nil => grind [insertRow, newerFirst]
  | cons r rest ih =>
      simp only [newerFirst] at ih ⊢
      by_cases hrs : r.timestamp < s.timestamp
      · grind [insertRow]
      · grind [insertRow]

theorem newerFirst_trans (r s t : Sample) (hrs : newerFirst r s = true)
    (hst : newerFirst s t = true) : newerFirst r t = true := by
  simp only [newerFirst, decide_eq_true_eq] at hrs hst ⊢
  exact Int64.le_trans hst hrs

theorem newerFirst_total (r s : Sample) : (newerFirst r s || newerFirst s r) = true := by
  simp only [newerFirst, Bool.or_eq_true, decide_eq_true_eq]
  exact Int64.le_total s.timestamp r.timestamp

theorem pairwise_mergeSort_newerFirst (rows : List Sample) :
    (rows.mergeSort newerFirst).Pairwise fun r s => s.timestamp ≤ r.timestamp :=
  (List.pairwise_mergeSort newerFirst_trans newerFirst_total rows).imp of_decide_eq_true

/-- Sorting enters the rows one by one, the last one first. -/
theorem mergeSort_cons_eq_orderedInsert (a : Sample) (rows : List Sample) :
    (a :: rows).mergeSort newerFirst =
      (rows.mergeSort newerFirst).orderedInsert (newerFirst · ·) a := by
  obtain ⟨newer, others, hsorted, hrest, hnewer⟩ :=
    List.mergeSort_cons newerFirst_trans newerFirst_total a rows
  have hothers : ∀ r ∈ others, newerFirst a r = true := by
    have hpairwise := List.pairwise_mergeSort newerFirst_trans newerFirst_total (a :: rows)
    rw [hsorted] at hpairwise
    exact (List.pairwise_cons.mp (List.pairwise_append.mp hpairwise).2.1).1
  have hstop : others.takeWhile (fun r => !newerFirst a r) = [] ∧
      others.dropWhile (fun r => !newerFirst a r) = others := by
    cases others with
    | nil => exact ⟨rfl, rfl⟩
    | cons r rest =>
        have hr : newerFirst a r = true := hothers r List.mem_cons_self
        simp [hr]
  rw [hsorted, hrest, List.orderedInsert_eq_take_drop]
  simp only [Bool.not_eq_true, Bool.decide_eq_false]
  rw [List.takeWhile_append_of_pos hnewer, List.dropWhile_append_of_pos hnewer, hstop.1,
    hstop.2, List.append_nil]

theorem foldl_insertRow_orderedInsert (a : Sample) (samples rows : List Sample) :
    samples.foldl (fun rows s => insertRow s rows) (rows.orderedInsert (newerFirst · ·) a) =
      (samples.foldl (fun rows s => insertRow s rows) rows).orderedInsert (newerFirst · ·) a := by
  induction samples generalizing rows with
  | nil => rfl
  | cons s rest ih => rw [List.foldl_cons, insertRow_orderedInsert, ih, List.foldl_cons]

/-- Rows that are entered one by one are sorted as if all had been sorted at once. -/
theorem foldl_insertRow_eq_mergeSort (samples : List Sample) :
    samples.foldl (fun rows s => insertRow s rows) [] = samples.mergeSort newerFirst := by
  -- sorting enters the first row last, and so it has to move behind all the others
  induction samples with
  | nil => rw [List.mergeSort_nil, List.foldl_nil]
  | cons a rest ih =>
      rw [mergeSort_cons_eq_orderedInsert, ← ih]
      exact foldl_insertRow_orderedInsert a rest []

theorem foldl_insertRow_mergeSort (before samples : List Sample) :
    samples.foldl (fun rows s => insertRow s rows) (before.mergeSort newerFirst) =
      (before ++ samples).mergeSort newerFirst := by
  rw [← foldl_insertRow_eq_mergeSort, ← foldl_insertRow_eq_mergeSort, List.foldl_append]

/-! ## Rows and their number -/

theorem rows_empty (k : SeriesKey) : empty.rows k = [] :=
  Std.TreeMap.getD_emptyc

theorem rows_extend (l : TelemetryLog) (k : SeriesKey) (samples : List Sample) (k' : SeriesKey) :
    (l.extend k samples).rows k' =
      if k = k' then samples.foldl (fun rows s => insertRow s rows) (l.rows k) else l.rows k' := by
  simp only [rows, extend, Std.TreeMap.getD_insert, Std.LawfulEqCmp.compare_eq_iff_eq]

theorem length_insertRow (s : Sample) (rows : List Sample) :
    (insertRow s rows).length = rows.length + 1 := by
  induction rows with
  | nil => rfl
  | cons r rest ih =>
      rw [insertRow]
      split
      · rfl
      · rw [List.length_cons, ih, List.length_cons]

theorem length_foldl_insertRow (samples rows : List Sample) :
    (samples.foldl (fun rows s => insertRow s rows) rows).length =
      rows.length + samples.length := by
  induction samples generalizing rows with
  | nil => rfl
  | cons s rest ih =>
      rw [List.foldl_cons, ih, length_insertRow, List.length_cons]
      omega

theorem rowCount_eq_sum (l : TelemetryLog) :
    l.rowCount = (l.series.toList.map (·.2.length)).sum := by
  rw [rowCount, Std.TreeMap.foldl_eq_foldl_toList, List.sum_eq_foldl, List.foldl_map]

/-- The rows of one series and those of the others make up the log. -/
theorem rowCount_eq_add (l : TelemetryLog) (k : SeriesKey) :
    l.rowCount =
      (l.rows k).length + ((l.series.toList.filter (¬k == ·.1)).map (·.2.length)).sum := by
  rw [rowCount_eq_sum]
  cases hk : l.series[k]? with
  | some samples =>
      have hsame : l.series.Equiv (l.series.insert k samples) := by
        refine .of_forall_constGet?_eq fun k' => ?_
        rw [Std.TreeMap.getElem?_insert]
        split
        next heq => rw [← Std.LawfulEqCmp.compare_eq_iff_eq.mp heq, hk]
        next => rfl
      have hrows : l.rows k = samples := by
        rw [rows, Std.TreeMap.getD_eq_getD_getElem?, hk]
        rfl
      rw [hsame.toList_eq, (Std.TreeMap.toList_insert_perm.map _).sum_eq, List.map_cons,
        List.sum_cons, hrows, ← hsame.toList_eq]
  | none =>
      have hrows : l.rows k = [] := by
        rw [rows, Std.TreeMap.getD_eq_getD_getElem?, hk]
        rfl
      have hall : l.series.toList.filter (¬k == ·.1) = l.series.toList := by
        refine List.filter_eq_self.mpr fun row hrow => ?_
        have hfound := Std.TreeMap.mem_toList_iff_getElem?_eq_some.mp hrow
        have hapart : k ≠ row.1 := by
          rintro rfl
          rw [hk] at hfound
          cases hfound
        simpa using hapart
      rw [hrows, hall, List.length_nil, Nat.zero_add]

theorem rowCount_extend (l : TelemetryLog) (k : SeriesKey) (samples : List Sample) :
    (l.extend k samples).rowCount = l.rowCount + samples.length := by
  have hothers := rowCount_eq_add l k
  rw [rowCount_eq_sum, extend, (Std.TreeMap.toList_insert_perm.map _).sum_eq, List.map_cons,
    List.sum_cons, length_foldl_insertRow]
  omega

/-! ## The log and what was added to it -/

/-- The log holds exactly these rows, each series sorted. -/
structure Holds (l : TelemetryLog) (added : List (SeriesKey × Sample)) : Prop where
  rows : ∀ k, l.rows k = (addedTo k added).mergeSort newerFirst
  rowCount : l.rowCount = added.length

theorem addedTo_append (k : SeriesKey) (added later : List (SeriesKey × Sample)) :
    addedTo k (added ++ later) = addedTo k added ++ addedTo k later := by
  rw [addedTo, List.filter_append, List.map_append]
  rfl

theorem addedTo_map (k k' : SeriesKey) (samples : List Sample) :
    addedTo k (samples.map (k', ·)) = if k' = k then samples else [] := by
  by_cases hk : k' = k <;> simp [addedTo, List.filter_map, Function.comp_def, hk]

theorem holds_empty : empty.Holds [] where
  rows k := (rows_empty k).trans List.mergeSort_nil.symm
  rowCount := rfl

variable {l : TelemetryLog} {added : List (SeriesKey × Sample)}

theorem Holds.extend (hl : l.Holds added) (k : SeriesKey) (samples : List Sample) :
    (l.extend k samples).Holds (added ++ samples.map (k, ·)) where
  rows k' := by
    rw [rows_extend, addedTo_append, addedTo_map]
    split
    next hk => rw [hl.rows, foldl_insertRow_mergeSort, hk]
    next => rw [List.append_nil, hl.rows]
  rowCount := by
    rw [rowCount_extend, hl.rowCount, List.length_append, List.length_map]

theorem Holds.perform (hl : l.Holds added) (op : Operation) :
    (l.perform op).Holds (op.enter added) := by
  cases op with
  | push k s => exact hl.extend k [s]
  | extend k samples => exact hl.extend k samples
  | clear => exact holds_empty

theorem Holds.run (hl : l.Holds added) (ops : List Operation) :
    (l.run ops).Holds (ops.foldl Operation.enter added) := by
  induction ops generalizing l added with
  | nil => exact hl
  | cons op rest ih => exact ih (hl.perform op)

theorem holds_ofSnapshot (snapshot : LogSnapshot) :
    (ofSnapshot snapshot).Holds (listed snapshot) := by
  suffices hfold : ∀ (series : List SeriesSnapshot) (l : TelemetryLog)
      (added : List (SeriesKey × Sample)), l.Holds added →
      (series.foldl (fun l s => l.extend s.key s.samples) l).Holds
        (added ++ series.flatMap fun s => s.samples.map (s.key, ·)) from
    hfold snapshot.series empty [] holds_empty
  intro series
  induction series with
  | nil =>
      intro l added hl
      rwa [List.flatMap_nil, List.append_nil]
  | cons first rest ih =>
      intro l added hl
      rw [List.flatMap_cons, ← List.append_assoc]
      exact ih _ _ (hl.extend first.key first.samples)

theorem holds_run (snapshot : LogSnapshot) (ops : List Operation) :
    ((ofSnapshot snapshot).run ops).Holds (ops.foldl Operation.enter (listed snapshot)) :=
  (holds_ofSnapshot snapshot).run ops

/-! ## Logs that cannot be told apart -/

/-- The same rows, the same number of them, and the same answers. -/
structure Alike (l l' : TelemetryLog) : Prop where
  rows : ∀ k, l.rows k = l'.rows k
  rowCount : l.rowCount = l'.rowCount
  source : l.source = l'.source

theorem Holds.alike {l' : TelemetryLog} (hl : l.Holds added) (hl' : l'.Holds added) :
    l.Alike l' := by
  have hrows : ∀ k, l.rows k = l'.rows k := fun k => (hl.rows k).trans (hl'.rows k).symm
  refine ⟨hrows, hl.rowCount.trans hl'.rowCount.symm, ?_⟩
  funext q
  rw [TelemetryLog.source, TelemetryLog.source, answer, answer, hrows]

theorem Holds.foldl_push (hl : l.Holds added) (k : SeriesKey) (samples : List Sample) :
    (samples.foldl (fun l s => l.push k s) l).Holds (added ++ samples.map (k, ·)) := by
  induction samples generalizing l added with
  | nil => rwa [List.map_nil, List.append_nil]
  | cons s rest ih =>
      rw [List.map_cons, List.append_cons]
      exact ih (hl.extend k [s])

/-! ## Answers -/

/-- The row is of the kind that a query asks for. -/
def IsAskedFor (cores : Option (List UInt32)) (s : Sample) : Prop :=
  (cores = none ∧ s.core = none) ∨ ∃ asked core, cores = some asked ∧ s.core = some core ∧
    core ∈ asked

theorem matchesCores_iff {cores : Option (List UInt32)} {s : Sample} :
    matchesCores cores s = true ↔ IsAskedFor cores s := by
  unfold matchesCores IsAskedFor
  cases cores <;> cases s.core <;> simp

instance (cores : Option (List UInt32)) : DecidablePred (IsAskedFor cores) :=
  fun _ => decidable_of_iff _ matchesCores_iff

theorem filter_matchesCores (cores : Option (List UInt32)) (rows : List Sample) :
    rows.filter (matchesCores cores) = rows.filter fun s => decide (IsAskedFor cores s) := by
  refine List.filter_congr fun s _ => ?_
  rw [Bool.eq_iff_iff, matchesCores_iff, decide_eq_true_iff]

theorem mem_values_restrict {s : Sample} {metrics : List Metric} {name : String} {raw : Json} :
    (name, raw) ∈ (s.restrict metrics).values ↔
      (name, raw) ∈ s.values ∧ ∃ m ∈ metrics, m.name = name := by
  simp [Sample.restrict, List.mem_filter]

/-- From a snapshot on, whatever is added and cleared, each series of the log is the stable
sort, newest rows first, of the rows that were added to it since the last clear, and the log
counts all of them.  It does not matter how many rows are added at a time.  A query is
answered with the first rows of its series that are of the kind asked for, as many as there
are up to the limit, and of each row the fields of the metrics asked for. -/
theorem run_sorts_added (snapshot : LogSnapshot) (ops : List Operation) :
    let l := (ofSnapshot snapshot).run ops
    let added := ops.foldl Operation.enter (listed snapshot)
    (∀ k, l.rows k = (addedTo k added).mergeSort newerFirst) ∧
    l.rowCount = added.length ∧
    (∀ k a b, ((l.extend k a).extend k b).Alike (l.extend k (a ++ b)) ∧
      (a.foldl (fun l s => l.push k s) l).Alike (l.extend k a) ∧
      ∀ k', k' ≠ k → (l.extend k a).rows k' = l.rows k') ∧
    ∀ q : Query, ∃ answer, l.source q = .ok answer ∧
      let asked := ((addedTo ⟨q.uuid, q.socket⟩ added).mergeSort newerFirst).filter
        fun s => decide (IsAskedFor q.cores s)
      answer.length = min q.limit asked.length ∧
      ∀ (i : ℕ) (out : Sample), answer[i]? = some out →
        ∃ row, asked[i]? = some row ∧ out.timestamp = row.timestamp ∧ out.core = row.core ∧
          ∀ name raw, (name, raw) ∈ out.values ↔
            (name, raw) ∈ row.values ∧ ∃ m ∈ q.metrics, m.name = name := by
  intro l added
  have hl : l.Holds added := holds_run snapshot ops
  refine ⟨hl.rows, hl.rowCount, ?_, ?_⟩
  · intro k a b
    have htwice : ((l.extend k a).extend k b).Holds (added ++ (a ++ b).map (k, ·)) := by
      rw [List.map_append, ← List.append_assoc]
      exact (hl.extend k a).extend k b
    refine ⟨htwice.alike (hl.extend k (a ++ b)), (hl.foldl_push k a).alike (hl.extend k a), ?_⟩
    intro k' hk
    rw [rows_extend, if_neg (Ne.symm hk)]
  · intro q
    refine ⟨l.answer q, rfl, ?_, ?_⟩
    · rw [answer, hl.rows, filter_matchesCores, List.length_map, List.length_take]
    · intro i out hout
      rw [answer, hl.rows, filter_matchesCores, List.getElem?_map, Option.map_eq_some_iff] at hout
      obtain ⟨row, hrow, rfl⟩ := hout
      rw [List.getElem?_take] at hrow
      have hasked := (Option.ite_none_right_eq_some.mp hrow).2
      exact ⟨row, hasked, rfl, rfl, fun _ _ => mem_values_restrict⟩

/-- Rows of a core that arrive late, under a series that the snapshot lists twice. -/
theorem run_sorts_added_bench :
    let k : SeriesKey := ⟨"b-1", 0⟩
    let row (t : Int64) : Sample := ⟨t, some 0, [("c6res", .float 0.5)]⟩
    let l := (ofSnapshot { series := [⟨k, [row 1]⟩, ⟨k, [row 3]⟩] }).run
      [.push ⟨"b-2", 0⟩ (row 9), .extend k [row 2, row 5]]
    l.rowCount = 5 ∧ (l.rows k).map (·.timestamp) = [5, 3, 2, 1] ∧
      (l.extend ⟨"b-2", 0⟩ [row 7]).rows k = l.rows k := by
  intro k row l
  obtain ⟨hrows, hcount, hextend, -⟩ := run_sorts_added
    { series := [⟨k, [row 1]⟩, ⟨k, [row 3]⟩] }
    [.push ⟨"b-2", 0⟩ (row 9), .extend k [row 2, row 5]]
  refine ⟨hcount, ?_, (hextend ⟨"b-2", 0⟩ [row 7] []).2.2 k (by decide)⟩
  change (l.rows k).map (·.timestamp) = _
  rw [hrows k, ← foldl_insertRow_eq_mergeSort]
  decide +kernel

end SocketRanking.TelemetryLog
