import Mathlib.Data.List.Perm.Basic
import SocketRanking.Proofs.Telemetry.Averages
import SocketRanking.Proofs.Telemetry.Log
import SocketRanking.Proofs.Telemetry.Slots

/-!
# Pooling complete data

Where every core of a socket has one reading at each instant, the time slots that are found
in an answer of the log are the instants, newest first, whatever the order of addition was.
The limit of a query then falls between two slots, and what is measured is the mean over the
cores of each instant, averaged over the instants.
-/

namespace SocketRanking

theorem Settings.rowsPerWindow_pos (settings : Settings) : 0 < settings.rowsPerWindow := by
  unfold rowsPerWindow
  split <;> omega

theorem Settings.rowsForCores_of_lt {settings : Settings} {cores : ℕ} (hcores : 0 < cores)
    (hlimit : settings.rowsPerWindow * cores < 2 ^ 64) :
    settings.rowsForCores cores = settings.rowsPerWindow * cores := by
  have hone : max cores 1 = cores := max_eq_left hcores
  rw [rowsForCores, hone]
  exact Nat.mod_eq_of_lt hlimit

/-! ## Readings of a window -/

theorem Sample.value_restrict {α : Type} [Scalar α] {s : Sample} {metrics : List Metric}
    {m : Metric} (hm : m ∈ metrics) : ((s.restrict metrics).value m : Except Failure (Option α)) =
      s.value m := by
  have hraw : (s.restrict metrics).raw? m = s.raw? m := by
    change (s.values.filter fun field => metrics.any (·.name = field.1)).lookup m.name =
      s.values.lookup m.name
    induction s.values with
    | nil => rfl
    | cons field rest ih =>
        obtain ⟨name, raw⟩ := field
        by_cases hname : m.name = name
        · have hkept : metrics.any (·.name = name) = true :=
            List.any_eq_true.mpr ⟨m, hm, decide_eq_true hname⟩
          simp [hkept, hname]
        · have hskip : ((name, raw) :: rest).lookup m.name = rest.lookup m.name := by
            rw [List.lookup_cons, beq_false_of_ne hname]
          rw [hskip, ← ih, List.filter_cons]
          split
          · rw [List.lookup_cons, beq_false_of_ne hname]
          · rfl
  unfold value
  rw [hraw]

namespace Aggregate

/-! ## Slots of complete data -/

/-- The block holds one row of each core and no other row. -/
def CoversCores (cores : List UInt32) (block : List Sample) : Prop :=
  (block.map (·.core)).Perm (cores.map some)

variable {cores : List UInt32}

theorem CoversCores.length_eq {block : List Sample} (hblock : CoversCores cores block) :
    block.length = cores.length := by
  have hlength := List.Perm.length_eq hblock
  rwa [List.length_map, List.length_map] at hlength

theorem CoversCores.nodup {block : List Sample} (hblock : CoversCores cores block)
    (hcores : cores.Nodup) : (block.map (·.core)).Nodup :=
  (List.Perm.nodup_iff hblock).mpr (hcores.map (Option.some_injective _))

theorem CoversCores.core_mem_iff {block : List Sample} (hblock : CoversCores cores block)
    {core : Option UInt32} : (∃ s ∈ block, s.core = core) ↔ ∃ c ∈ cores, some c = core := by
  rw [← List.mem_map, ← List.mem_map]
  exact List.Perm.mem_iff hblock

theorem CoversCores.isSlot {block : List Sample} (hblock : CoversCores cores block)
    (hcores : cores.Nodup) (hsome : cores ≠ []) : IsSlot block where
  ne_nil := by
    rintro rfl
    exact hsome (List.length_eq_zero_iff.mp hblock.length_eq.symm)
  core_ne_none := by
    intro s hs hnone
    obtain ⟨c, -, hc⟩ := hblock.core_mem_iff.mp ⟨s, List.mem_of_mem_tail hs, hnone⟩
    cases hc
  nodup_cores := hblock.nodup hcores

/-- The next block begins with a core that this one holds, too. -/
theorem CoversCores.endsBefore {block next : List Sample} (hblock : CoversCores cores block)
    (hnext : CoversCores cores next) : EndsBefore block next := by
  intro s hs
  have hcore := hnext.core_mem_iff.mp ⟨s, List.mem_of_mem_head? hs, rfl⟩
  exact opensSlot_iff.mpr (Or.inr (hblock.core_mem_iff.mpr hcore))

/-- The slots of complete blocks, one after the other, are the blocks. -/
theorem timeSlots_flatten (hcores : cores.Nodup) (hsome : cores ≠ [])
    {blocks : List (List Sample)} (hblocks : ∀ b ∈ blocks, CoversCores cores b) :
    timeSlots blocks.flatten = blocks := by
  apply timeSlots_flatten_of_isGreedy
  constructor
  case isSlot => exact fun b hb => (hblocks b hb).isSlot hcores hsome
  case isChain =>
    refine List.Pairwise.isChain (List.pairwise_of_forall_mem_list fun b hb next hnext => ?_)
    exact (hblocks b hb).endsBefore (hblocks next hnext)

end Aggregate

/-! ## Blocks of a sorted series -/

namespace TelemetryLog

open Aggregate

def rowsAt (t : Int64) (rows : List Sample) : List Sample :=
  rows.filter (·.timestamp = t)

theorem rowsAt_eq_self {t : Int64} {rows : List Sample} (hrows : ∀ s ∈ rows, s.timestamp = t) :
    rowsAt t rows = rows :=
  List.filter_eq_self.mpr fun s hs => decide_eq_true (hrows s hs)

theorem rowsAt_eq_nil {t : Int64} {rows : List Sample} (hrows : ∀ s ∈ rows, s.timestamp ≠ t) :
    rowsAt t rows = [] :=
  List.filter_eq_nil_iff.mpr fun s hs => by simpa using hrows s hs

/-- The rows of the newest instant stand before all others. -/
theorem eq_rowsAt_append {rows : List Sample} {t : Int64}
    (hsorted : rows.Pairwise fun r s => s.timestamp ≤ r.timestamp)
    (hnewest : ∀ s ∈ rows, s.timestamp ≤ t) :
    rows = rowsAt t rows ++ rows.filter (·.timestamp ≠ t) := by
  induction rows with
  | nil => rfl
  | cons s rest ih =>
      obtain ⟨hs, hrest⟩ := List.pairwise_cons.mp hsorted
      have htail := ih hrest fun r hr => hnewest r (List.mem_cons_of_mem s hr)
      by_cases ht : s.timestamp = t
      · have hfirst : rowsAt t (s :: rest) = s :: rowsAt t rest :=
          List.filter_cons_of_pos (decide_eq_true ht)
        have hothers : (s :: rest).filter (·.timestamp ≠ t) = rest.filter (·.timestamp ≠ t) :=
          List.filter_cons_of_neg (by simp [ht])
        rw [hfirst, hothers, List.cons_append, ← htail]
      · have hnone : ∀ r ∈ s :: rest, r.timestamp ≠ t := by
          intro r hr hrt
          rcases List.mem_cons.mp hr with rfl | hr
          · exact ht hrt
          · exact ht (Int64.le_antisymm (hnewest s List.mem_cons_self) (hrt ▸ hs r hr))
        rw [rowsAt_eq_nil hnone, List.nil_append]
        exact (List.filter_eq_self.mpr fun r hr => decide_eq_true (hnone r hr)).symm

/-- A sorted series falls into the blocks of its instants. -/
theorem eq_flatten_rowsAt {rows : List Sample} {times : List Int64}
    (hsorted : rows.Pairwise fun r s => s.timestamp ≤ r.timestamp)
    (htimes : times.Pairwise fun t u => u ≤ t) (hnodup : times.Nodup)
    (hall : ∀ s ∈ rows, s.timestamp ∈ times) :
    rows = (times.map (rowsAt · rows)).flatten := by
  induction times generalizing rows with
  | nil =>
      rw [List.map_nil, List.flatten_nil]
      exact List.eq_nil_iff_forall_not_mem.mpr fun s hs => List.not_mem_nil (hall s hs)
  | cons t later ih =>
      obtain ⟨hnewest, hlater⟩ := List.pairwise_cons.mp htimes
      obtain ⟨hfresh, hdistinct⟩ := List.nodup_cons.mp hnodup
      have hbefore : ∀ s ∈ rows, s.timestamp ≤ t := by
        intro s hs
        rcases List.mem_cons.mp (hall s hs) with heq | hmem
        · exact heq ▸ Int64.le_refl _
        · exact hnewest _ hmem
      have hothers := ih (hsorted.filter (·.timestamp ≠ t)) hlater hdistinct fun s hs => by
        obtain ⟨hs, hne⟩ := List.mem_filter.mp hs
        exact (List.mem_cons.mp (hall s hs)).resolve_left (of_decide_eq_true hne)
      -- the blocks of later instants lose no row to the first
      have hblocks : later.map (rowsAt · (rows.filter (·.timestamp ≠ t))) =
          later.map (rowsAt · rows) := by
        refine List.map_congr_left fun u hu => ?_
        unfold rowsAt
        rw [List.filter_filter]
        refine List.filter_congr fun s _ => ?_
        by_cases hsu : s.timestamp = u
        · have hne : u ≠ t := fun hut => hfresh (hut ▸ hu)
          simp [hsu, hne]
        · simp [hsu]
      rw [hblocks] at hothers
      rw [List.map_cons, List.flatten_cons, ← hothers]
      exact eq_rowsAt_append hsorted hbefore

/-- A limit that is a multiple of the length of the blocks falls between two of them. -/
theorem take_flatten {α : Type} {blocks : List (List α)} {size : ℕ}
    (hsize : ∀ b ∈ blocks, b.length = size) (n : ℕ) :
    blocks.flatten.take (n * size) = (blocks.take n).flatten := by
  induction blocks generalizing n with
  | nil => simp
  | cons block rest ih =>
      obtain ⟨hblock, hrest⟩ := List.forall_mem_cons.mp hsize
      cases n with
      | zero => simp
      | succ n =>
          rw [List.flatten_cons, List.take_succ_cons, List.flatten_cons, ← ih hrest, Nat.succ_mul,
            Nat.add_comm, ← hblock, List.take_length_add_append]

/-! ## What is measured -/

/-- One row of each core at each instant, with its reading of a metric. -/
structure IsTable {α : Type} [Scalar α] (m : Metric) (cores : List UInt32) (times : List Int64)
    (row : UInt32 → Int64 → Sample) (x : UInt32 → Int64 → α) : Prop where
  cores_nodup : cores.Nodup
  cores_ne_nil : cores ≠ []
  times_nodup : times.Nodup
  times_ne_nil : times ≠ []
  timestamp_eq : ∀ c ∈ cores, ∀ t ∈ times, (row c t).timestamp = t
  core_eq : ∀ c ∈ cores, ∀ t ∈ times, (row c t).core = some c
  value_eq : ∀ c ∈ cores, ∀ t ∈ times, (row c t).value m = .ok (some (x c t))

def tableRows (cores : List UInt32) (times : List Int64) (row : UInt32 → Int64 → Sample) :
    List Sample :=
  times.flatMap fun t => cores.map (row · t)

/-- The instants of a table, newest first. -/
def newestFirst (times : List Int64) : List Int64 :=
  times.mergeSort fun t u => decide (u ≤ t)

theorem newestFirst_perm (times : List Int64) : (newestFirst times).Perm times :=
  List.mergeSort_perm times _

theorem pairwise_newestFirst (times : List Int64) :
    (newestFirst times).Pairwise fun t u => u ≤ t := by
  refine (List.pairwise_mergeSort ?_ ?_ times).imp of_decide_eq_true
  · intro t u v htu huv
    exact decide_eq_true (Int64.le_trans (of_decide_eq_true huv) (of_decide_eq_true htu))
  · intro t u
    rw [Bool.or_eq_true, decide_eq_true_eq, decide_eq_true_eq]
    exact Int64.le_total u t

section Tables

variable {α : Type} [Scalar α] {m : Metric} {cores : List UInt32} {times : List Int64}
  {row : UInt32 → Int64 → Sample} {x : UInt32 → Int64 → α}

theorem mem_tableRows {s : Sample} :
    s ∈ tableRows cores times row ↔ ∃ t ∈ times, ∃ c ∈ cores, row c t = s := by
  simp [tableRows]

theorem rowsAt_tableRows (htimestamp : ∀ c ∈ cores, ∀ t ∈ times, (row c t).timestamp = t)
    (hnodup : times.Nodup) {t : Int64} (ht : t ∈ times) :
    rowsAt t (tableRows cores times row) = cores.map (row · t) := by
  induction times with
  | nil => cases ht
  | cons u later ih =>
      obtain ⟨hfresh, hdistinct⟩ := List.nodup_cons.mp hnodup
      have hfirst : ∀ s ∈ cores.map (row · u), s.timestamp = u := by
        intro s hs
        obtain ⟨c, hc, rfl⟩ := List.mem_map.mp hs
        exact htimestamp c hc u List.mem_cons_self
      have hlater : ∀ s ∈ tableRows cores later row, s.timestamp ∈ later := by
        intro s hs
        obtain ⟨v, hv, c, hc, rfl⟩ := mem_tableRows.mp hs
        exact (htimestamp c hc v (List.mem_cons_of_mem u hv)).symm ▸ hv
      have hsplit : rowsAt t (tableRows cores (u :: later) row) =
          rowsAt t (cores.map (row · u)) ++ rowsAt t (tableRows cores later row) := by
        rw [tableRows, List.flatMap_cons, rowsAt, List.filter_append]
        rfl
      rw [hsplit]
      by_cases htu : u = t
      · subst htu
        rw [rowsAt_eq_self hfirst, rowsAt_eq_nil, List.append_nil]
        intro s hs hsu
        exact hfresh (hsu ▸ hlater s hs)
      · rw [rowsAt_eq_nil fun s hs => hfirst s hs ▸ htu, List.nil_append]
        refine ih (fun c hc v hv => htimestamp c hc v (List.mem_cons_of_mem u hv)) hdistinct ?_
        exact (List.mem_cons.mp ht).resolve_left (Ne.symm htu)

/-- Of the rows of a table in any order, those of one instant belong to the cores in some
order. -/
theorem IsTable.exists_rowsAt_eq (htable : IsTable m cores times row x) {rows : List Sample}
    (hrows : rows.Perm (tableRows cores times row)) {t : Int64} (ht : t ∈ times) :
    ∃ order : List UInt32, order.Perm cores ∧ rowsAt t rows = order.map (row · t) := by
  have hblock := rowsAt_tableRows htable.timestamp_eq htable.times_nodup ht
  have hperm : (rowsAt t rows).Perm (cores.map (row · t)) := hblock ▸ hrows.filter _
  have hcomp := congrFun (congrFun (List.eq_map_comp_perm (row · t)) (rowsAt t rows)) cores
  obtain ⟨order, hmap, horder⟩ := hcomp.mpr hperm
  exact ⟨order, horder, hmap⟩

/-- The first rows of a table that was sorted, as many as there are in `n` instants, are the
slots of the `n` newest instants. -/
theorem IsTable.exists_take_eq (htable : IsTable m cores times row x) {rows : List Sample}
    (hrows : rows.Perm (tableRows cores times row))
    (hsorted : rows.Pairwise fun r s => s.timestamp ≤ r.timestamp) (n : ℕ) :
    ∃ order : Int64 → List UInt32, (∀ t ∈ times, (order t).Perm cores) ∧
      rows.take (n * cores.length) =
        (((newestFirst times).take n).map fun t => (order t).map (row · t)).flatten := by
  choose! order horder hblock using
    fun t (ht : t ∈ times) => htable.exists_rowsAt_eq hrows ht
  refine ⟨order, horder, ?_⟩
  have htimes : ∀ s ∈ rows, s.timestamp ∈ newestFirst times := by
    intro s hs
    obtain ⟨t, ht, c, hc, rfl⟩ := mem_tableRows.mp (hrows.mem_iff.mp hs)
    rw [htable.timestamp_eq c hc t ht]
    exact (newestFirst_perm times).mem_iff.mpr ht
  have hblocks : (newestFirst times).map (rowsAt · rows) =
      (newestFirst times).map fun t => (order t).map (row · t) :=
    List.map_congr_left fun t ht => hblock t ((newestFirst_perm times).mem_iff.mp ht)
  have hnodup : (newestFirst times).Nodup :=
    (newestFirst_perm times).nodup_iff.mpr htable.times_nodup
  have hall := eq_flatten_rowsAt hsorted (pairwise_newestFirst times) hnodup htimes
  rw [hblocks] at hall
  rw [hall, take_flatten, List.map_take]
  intro block hmem
  obtain ⟨t, ht, rfl⟩ := List.mem_map.mp hmem
  rw [List.length_map]
  exact (horder t ((newestFirst_perm times).mem_iff.mp ht)).length_eq

end Tables

/-- Slots that hold the rows of some instants of a table are pooled to the average of the
means over the cores. -/
theorem IsTable.pooled_eq {m : Metric} {cores : List UInt32} {times : List Int64}
    {row : UInt32 → Int64 → Sample} {x : UInt32 → Int64 → ℚ}
    (htable : IsTable m cores times row x) {order : Int64 → List UInt32}
    (horder : ∀ t ∈ times, (order t).Perm cores) {chosen : List Int64}
    (hchosen : ∀ t ∈ chosen, t ∈ times) (hsome : chosen ≠ []) :
    let means := chosen.map fun t => (cores.map (x · t)).sum / cores.length
    let rows := (chosen.map fun t => (order t).map (row · t)).flatten
    ((slotMeans m (timeSlots (rows.map (·.restrict [m])))).map recencyWeighted :
      Except Failure (Option ℚ)) = .ok (some (weightedSum means / totalWeight means.length)) := by
  intro means rows
  let slot (t : Int64) := (order t).map fun c => (row c t).restrict [m]
  have hrows : rows.map (·.restrict [m]) = (chosen.map slot).flatten := by
    simp [rows, slot, List.map_flatten, List.map_map, Function.comp_def]
  have hcomplete : ∀ block ∈ chosen.map slot, CoversCores cores block := by
    intro block hblock
    obtain ⟨t, ht, rfl⟩ := List.mem_map.mp hblock
    have hcores : (slot t).map (·.core) = (order t).map some := by
      rw [List.map_map]
      refine List.map_congr_left fun c hc => ?_
      exact htable.core_eq c ((horder t (hchosen t ht)).mem_iff.mp hc) t (hchosen t ht)
    rw [CoversCores, hcores]
    exact (horder t (hchosen t ht)).map some
  let values (t : Int64) := (order t).map (x · t)
  have hvalues : ∀ t ∈ chosen, column (slot t) m = .ok (values t) ∧
      mean (values t) = some ((cores.map (x · t)).sum / cores.length) := by
    intro t ht
    have hperm : (values t).Perm (cores.map (x · t)) := (horder t (hchosen t ht)).map (x · t)
    constructor
    · refine column_of_forall₂ (List.forall₂_map_left_iff.mpr (List.forall₂_map_right_iff.mpr
        (List.forall₂_same.mpr fun c hc => ?_)))
      rw [Sample.value_restrict (List.mem_singleton_self m)]
      exact htable.value_eq c ((horder t (hchosen t ht)).mem_iff.mp hc) t (hchosen t ht)
    · have hfilled : values t ≠ [] := by
        intro hempty
        rw [hempty] at hperm
        exact htable.cores_ne_nil (List.map_eq_nil_iff.mp hperm.symm.eq_nil)
      rw [mean_eq hfilled, hperm.sum_eq, hperm.length_eq, List.length_map]
  have hmeans : slotMeans m (chosen.map slot) = .ok means :=
    slotMeans_of_forall₂ (List.forall₂_map_left_iff.mpr (List.forall₂_map_right_iff.mpr
      (List.forall₂_same.mpr fun t ht => ⟨values t, hvalues t ht⟩)))
  rw [hrows, timeSlots_flatten htable.cores_nodup htable.cores_ne_nil hcomplete, hmeans,
    Except.map, recencyWeighted_eq]
  exact mt List.map_eq_nil_iff.mp hsome

/-- Where every core of a socket has one reading at each instant of a table, the idle fraction
that is measured in exact arithmetic is the recency-weighted mean, over the newest instants that
the window covers, of the plain mean over the cores.  The rows may have been added in any order
and any number at a time, among rows of other cores, of the whole socket and of other series. -/
theorem measureIdle_of_table (snapshot : LogSnapshot) (ops : List Operation)
    (settings : Settings) (uuid : String) (socket : Socket) (times : List Int64)
    (row : UInt32 → Int64 → Sample) (x : UInt32 → Int64 → ℚ)
    (htable : IsTable .c6res socket.cores times row x)
    (hadded : ((addedTo ⟨uuid, socket.id⟩ (ops.foldl Operation.enter (listed snapshot))).filter
      fun s => decide (IsAskedFor (some socket.cores) s)).Perm (tableRows socket.cores times row))
    (hlimit : settings.rowsPerWindow * socket.cores.length < 2 ^ 64) :
    let newest := (newestFirst times).take settings.rowsPerWindow
    let means := newest.map fun t => (socket.cores.map (x · t)).sum / socket.cores.length
    (measureIdle settings ((ofSnapshot snapshot).run ops).source uuid socket).result =
      .ok (weightedSum means / totalWeight means.length) := by
  intro newest means
  let l := (ofSnapshot snapshot).run ops
  let rows := (l.rows ⟨uuid, socket.id⟩).filter (matchesCores (some socket.cores))
  have hrows : l.rows ⟨uuid, socket.id⟩ = _ := (holds_run snapshot ops).rows ⟨uuid, socket.id⟩
  have hperm : rows.Perm (tableRows socket.cores times row) := by
    refine List.Perm.trans ?_ hadded
    rw [← filter_matchesCores]
    simp only [rows, hrows]
    exact (List.mergeSort_perm _ newerFirst).filter _
  have hsorted : rows.Pairwise fun r s => s.timestamp ≤ r.timestamp := by
    simp only [rows, hrows]
    exact (pairwise_mergeSort_newerFirst _).filter _
  obtain ⟨order, horder, htake⟩ := htable.exists_take_eq hperm hsorted settings.rowsPerWindow
  have hnewest : ∀ t ∈ newest, t ∈ times := fun t ht =>
    (newestFirst_perm times).mem_iff.mp (List.mem_of_mem_take ht)
  have hsome : newest ≠ [] := by
    intro hempty
    rcases List.take_eq_nil_iff.mp hempty with hzero | hnone
    · exact absurd hzero settings.rowsPerWindow_pos.ne'
    · exact htable.times_ne_nil ((hnone ▸ newestFirst_perm times).symm.eq_nil)
  let q : Query :=
    { metrics := [.c6res], uuid, socket := socket.id, cores := some socket.cores
      limit := settings.rowsForCores socket.cores.length }
  have hanswer : l.answer q =
      ((newest.map fun t => (order t).map (row · t)).flatten).map (·.restrict [.c6res]) := by
    have hcores : 0 < socket.cores.length := List.length_pos_iff.mpr htable.cores_ne_nil
    have hcount : q.limit = settings.rowsPerWindow * socket.cores.length :=
      Settings.rowsForCores_of_lt hcores hlimit
    rw [answer, hcount]
    exact congrArg _ htake
  have hpooled := htable.pooled_eq horder hnewest hsome
  have haverage : weightedAverageOfCores (l.answer q) [.c6res] =
      .ok (MetricSet.empty.set .c6res (weightedSum means / totalWeight means.length)) := by
    rw [hanswer, weightedAverageOfCores]
    simp only [collect, hpooled]
    rfl
  change unusable (do
    let pooled ← weightedAverageOfCores (l.answer q) [.c6res]
    pooled.require .c6res) = _
  rw [haverage]
  rfl

/-- Two cores at three instants, of which the window covers two. -/
theorem measureIdle_of_table_bench :
    let k : SeriesKey := ⟨"b-1", 0⟩
    let socket : Socket := ⟨0, [4, 9]⟩
    let settings : Settings := { window := .ofMillis 400 }
    let row (c : UInt32) (t : Int64) : Sample :=
      ⟨t, some c, [("c6res", .int (if c = 4 ∧ t = 30 then 1 else 0))]⟩
    let l := (ofSnapshot { series := [⟨k, [row 9 20]⟩] }).run
      [.push ⟨"b-1", 1⟩ (row 4 30), .extend k [row 4 10, row 9 30, ⟨30, none, []⟩, row 7 30],
        .push k (row 4 30), .extend k [row 4 20, row 9 10]]
    (measureIdle settings l.source "b-1" socket).result = .ok (1 / 3 : ℚ) := by
  intro k socket settings row l
  let x (c : UInt32) (t : Int64) : ℚ := if c = 4 ∧ t = 30 then 1 else 0
  let times : List Int64 := [20, 10, 30]
  have htable : IsTable .c6res socket.cores times row x :=
    { cores_nodup := by decide
      cores_ne_nil := by decide
      times_nodup := by decide
      times_ne_nil := by decide
      timestamp_eq := fun _ _ _ _ => rfl
      core_eq := fun _ _ _ _ => rfl
      value_eq := by
        intro c _ t _
        by_cases hidle : c = 4 ∧ t = 30
        · simp only [row, x, hidle, and_self, if_true]
          decide +kernel
        · simp only [row, x, hidle, if_false]
          change (⟨0, none, [("c6res", .int 0)]⟩ : Sample).value .c6res = .ok (some (0 : ℚ))
          decide +kernel }
  -- the rows of the two cores in the order of their addition
  let order : List (UInt32 × Int64) := [(9, 20), (4, 10), (9, 30), (4, 30), (4, 20), (9, 10)]
  have horder : order.Perm (times.flatMap fun t => socket.cores.map (·, t)) := by decide
  have hmeasured := measureIdle_of_table { series := [⟨k, [row 9 20]⟩] }
    [.push ⟨"b-1", 1⟩ (row 4 30), .extend k [row 4 10, row 9 30, ⟨30, none, []⟩, row 7 30],
      .push k (row 4 30), .extend k [row 4 20, row 9 10]] settings "b-1" socket times row x htable
    (horder.map fun place : UInt32 × Int64 => row place.1 place.2) (by decide)
  have hnewest : newestFirst times = [30, 20, 10] := by
    simp [newestFirst, times, List.mergeSort, List.MergeSort.Internal.splitInTwo]
  rw [hnewest] at hmeasured
  exact hmeasured.trans (by decide +kernel)

end TelemetryLog

end SocketRanking
