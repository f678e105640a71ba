import Mathlib.Data.List.Dedup
import SocketRanking.Proofs.Telemetry.Pooling
import SocketRanking.Proofs.Telemetry.Verdicts

/-!
# Slots and instants

A time slot is meant to hold the rows of one instant, but timestamps are never looked at: an
instant is told from the next newer one by a core that appears again.  Where cores are missing
this can go wrong in both ways, since rows of two instants may share a slot and rows of one
instant may be torn apart.  Slots are instants exactly if every instant but the newest begins
with a row of a core that has a row at the next newer instant, too, `groupsByInstant_iff`.
-/

namespace SocketRanking.Aggregate

open TelemetryLog

/-- Rows of single cores, newest first, with no more than one row of a core at an instant. -/
structure IsPerCore (rows : List Sample) : Prop where
  newestFirst : rows.Pairwise fun r s => s.timestamp ≤ r.timestamp
  core_ne_none : ∀ s ∈ rows, s.core ≠ none
  distinct : (rows.map fun s => (s.core, s.timestamp)).Nodup

/-- Two rows are in the same slot exactly if they are of the same instant. -/
def GroupsByInstant (rows : List Sample) : Prop :=
  ∀ r ∈ rows, ∀ s ∈ rows,
    (∃ slot ∈ timeSlots rows, r ∈ slot ∧ s ∈ slot) ↔ r.timestamp = s.timestamp

/-- The second row is of the instant of the first, or of a core that has a row there, too. -/
def Continues (rows : List Sample) (r s : Sample) : Prop :=
  r.timestamp ≠ s.timestamp → ∃ q ∈ rows, q.timestamp = r.timestamp ∧ q.core = s.core

/-- Every instant but the newest begins with a row of a core that has a row at the next newer
instant, too. -/
def Resumes (rows : List Sample) : Prop :=
  rows.IsChain (Continues rows)

instance (rows : List Sample) : DecidableRel (Continues rows) := fun r s =>
  inferInstanceAs (Decidable (r.timestamp ≠ s.timestamp →
    ∃ q ∈ rows, q.timestamp = r.timestamp ∧ q.core = s.core))

instance (rows : List Sample) : Decidable (Resumes rows) :=
  inferInstanceAs (Decidable (rows.IsChain (Continues rows)))

/-- The instants of rows, in the order of the rows. -/
def instants (rows : List Sample) : List Int64 :=
  (rows.map (·.timestamp)).dedup

/-! ## The rows of an instant -/

theorem mem_rowsAt {t : Int64} {rows : List Sample} {s : Sample} :
    s ∈ rowsAt t rows ↔ s ∈ rows ∧ s.timestamp = t := by
  simp [rowsAt]

theorem mem_instants {rows : List Sample} {t : Int64} :
    t ∈ instants rows ↔ ∃ s ∈ rows, s.timestamp = t := by
  rw [instants, List.mem_dedup, List.mem_map]

section

variable {rows : List Sample} (hrows : IsPerCore rows)

include hrows

theorem IsPerCore.flatten_instants :
    ((instants rows).map (rowsAt · rows)).flatten = rows := by
  refine (eq_flatten_rowsAt hrows.newestFirst ?_ (List.nodup_dedup _) ?_).symm
  · exact (List.pairwise_map.mpr hrows.newestFirst).sublist (List.dedup_sublist _)
  · exact fun s hs => mem_instants.mpr ⟨s, hs, rfl⟩

theorem IsPerCore.isSlot_rowsAt {t : Int64} (ht : t ∈ instants rows) :
    IsSlot (rowsAt t rows) where
  ne_nil := by
    obtain ⟨s, hs, hst⟩ := mem_instants.mp ht
    exact List.ne_nil_of_mem (mem_rowsAt.mpr ⟨hs, hst⟩)
  core_ne_none s hs := hrows.core_ne_none s (mem_rowsAt.mp (List.mem_of_mem_tail hs)).1
  nodup_cores := by
    have hpairs : (rowsAt t rows).map (fun s => (s.core, s.timestamp)) =
        ((rowsAt t rows).map (·.core)).map (·, t) := by
      rw [List.map_map]
      exact List.map_congr_left fun s hs => congrArg (s.core, ·) (mem_rowsAt.mp hs).2
    exact .of_map _ (hpairs ▸ hrows.distinct.sublist (List.filter_sublist.map _))

/-- Instants that begin with a core of the next newer one are as long as a slot can be. -/
theorem IsPerCore.isGreedy_instants (hresumes : Resumes rows) :
    IsGreedy ((instants rows).map (rowsAt · rows)) := by
  have hslots : ∀ slot ∈ (instants rows).map (rowsAt · rows), IsSlot slot :=
    List.forall_mem_map.mpr fun t ht => hrows.isSlot_rowsAt ht
  have hboundaries : (((instants rows).map (rowsAt · rows)).flatten).IsChain (Continues rows) :=
    hrows.flatten_instants.symm ▸ hresumes
  rw [List.isChain_flatten fun hmem => (hslots [] hmem).ne_nil rfl, List.isChain_map] at hboundaries
  refine ⟨hslots, (List.isChain_map _).mpr ?_⟩
  refine List.isChain_iff_forall_rel_of_append_cons_cons.mpr fun t u before after hsplit s hs => ?_
  have hboundary := List.isChain_iff_forall_rel_of_append_cons_cons.mp hboundaries.2 hsplit
  have hnodup : (before ++ t :: u :: after).Nodup := hsplit ▸ List.nodup_dedup _
  have hne : t ≠ u := by
    rintro rfl
    simp [List.nodup_append] at hnodup
  have ht : t ∈ instants rows := hsplit ▸ by simp
  have hfilled : rowsAt t rows ≠ [] := (hrows.isSlot_rowsAt ht).ne_nil
  have hlast := mem_rowsAt.mp (List.getLast_mem hfilled)
  have hfirst := mem_rowsAt.mp (List.mem_of_mem_head? hs)
  have hmoved : ((rowsAt t rows).getLast hfilled).timestamp ≠ s.timestamp := by
    rwa [hlast.2, hfirst.2]
  obtain ⟨q, hq, hqt, hcore⟩ :=
    hboundary _ (List.getLast?_eq_some_getLast hfilled) s hs hmoved
  exact opensSlot_iff.mpr (Or.inr ⟨q, mem_rowsAt.mpr ⟨hq, hqt.trans hlast.2⟩, hcore⟩)

theorem IsPerCore.timeSlots_eq (hresumes : Resumes rows) :
    timeSlots rows = (instants rows).map (rowsAt · rows) := by
  have hslots := timeSlots_flatten_of_isGreedy (hrows.isGreedy_instants hresumes)
  rwa [hrows.flatten_instants] at hslots

theorem IsPerCore.groupsByInstant_of_resumes (hresumes : Resumes rows) : GroupsByInstant rows := by
  intro r hr s hs
  rw [hrows.timeSlots_eq hresumes]
  constructor
  · rintro ⟨slot, hslot, hrslot, hsslot⟩
    obtain ⟨t, ht, rfl⟩ := List.mem_map.mp hslot
    rw [(mem_rowsAt.mp hrslot).2, (mem_rowsAt.mp hsslot).2]
  · intro hsame
    have ht : r.timestamp ∈ instants rows := mem_instants.mpr ⟨r, hr, rfl⟩
    exact ⟨_, List.mem_map_of_mem ht, mem_rowsAt.mpr ⟨hr, rfl⟩, mem_rowsAt.mpr ⟨hs, hsame.symm⟩⟩

theorem IsPerCore.resumes_of_groupsByInstant (hgroups : GroupsByInstant rows) : Resumes rows := by
  have hsame : ∀ slot ∈ timeSlots rows, ∀ r ∈ slot, ∀ s ∈ slot, r.timestamp = s.timestamp := by
    intro slot hslot r hr s hs
    have hrs := hgroups r (mem_of_mem_timeSlots hslot hr) s (mem_of_mem_timeSlots hslot hs)
    exact hrs.mp ⟨slot, hslot, hr, hs⟩
  have hslots := isGreedy_timeSlots rows
  have hchain : ((timeSlots rows).flatten).IsChain (Continues rows) := by
    rw [List.isChain_flatten hslots.nil_notMem]
    constructor
    · intro slot hslot
      exact List.Pairwise.isChain <| List.pairwise_of_forall_mem_list fun r hr s hs hne =>
        absurd (hsame slot hslot r hr s hs) hne
    · refine hslots.isChain.imp_of_mem_imp fun slot next hslot hnext hends r hr s hs _ => ?_
      -- a row of some core opens a slot only if its core reports again
      have hcore : s.core ≠ none := hrows.core_ne_none s
        (mem_of_mem_timeSlots hnext (List.mem_of_mem_head? hs))
      obtain ⟨q, hq, hagain⟩ := (opensSlot_iff.mp (hends s hs)).resolve_left hcore
      exact ⟨q, mem_of_mem_timeSlots hslot hq,
        hsame slot hslot q hq r (List.mem_of_mem_getLast? hr), hagain⟩
  rwa [flatten_timeSlots] at hchain

/-- Rows fall into slots by instant exactly if every instant but the newest begins with a row
of a core that has a row at the next newer instant, too.  The average over cores is then that of
the means over the cores that each instant has rows of. -/
theorem groupsByInstant_iff : (GroupsByInstant rows ↔ Resumes rows) ∧
    (GroupsByInstant rows → ∀ {α : Type} [Scalar α] (metrics : List Metric),
      AnswersBy (α := α) (fun m => recencyWeighted
          ((instants rows).filterMap fun t => mean (readings m (rowsAt t rows))))
        weightedAverageOfCores rows metrics) := by
  refine ⟨⟨hrows.resumes_of_groupsByInstant, hrows.groupsByInstant_of_resumes⟩, ?_⟩
  intro hgroups α _ metrics
  have hanswer := weightedAverageOfCores_answersBy (α := α) rows metrics
  rw [hrows.timeSlots_eq (hrows.resumes_of_groupsByInstant hgroups)] at hanswer
  simpa only [List.filterMap_map, Function.comp_def] using hanswer

end

/-- Three instants, of which the one in the middle has a row of one core only. -/
theorem groupsByInstant_iff_bench :
    let row (c : UInt32) (t : Int64) (idle : Int) : Sample := ⟨t, some c, [("c6res", .int idle)]⟩
    let rows := [row 4 30 1, row 9 30 0, row 9 20 1, row 9 10 0, row 4 10 1]
    GroupsByInstant rows ∧ ∃ set : MetricSet ℚ,
      weightedAverageOfCores rows [.c6res] = .ok set ∧ set.get .c6res = some (2 / 3) := by
  intro row rows
  have hrows : IsPerCore rows := ⟨by decide, by decide, by decide⟩
  obtain ⟨hgroups, haverage⟩ := groupsByInstant_iff hrows
  have hinstants : GroupsByInstant rows := hgroups.mpr (by decide)
  have hanswer := haverage hinstants (α := ℚ) [.c6res]
  refine ⟨hinstants, _, rfl, ?_⟩
  obtain ⟨x, hmean, hx⟩ := hanswer.requested _ rfl .c6res (List.mem_singleton_self _)
  rw [hx, ← hmean]
  decide +kernel

/-- A core that misses the newer of two instants: the row of the other core there makes a slot
with the first row of the older instant, whose second row is left alone. -/
theorem not_groupsByInstant :
    let row (c : UInt32) (t : Int64) (idle : Int) : Sample := ⟨t, some c, [("c6res", .int idle)]⟩
    let rows := [row 0 2 1, row 1 1 0, row 0 1 0]
    IsPerCore rows ∧ ¬GroupsByInstant rows ∧
      ((weightedAverageOfCores rows [.c6res]).map (·.get .c6res) : Except Failure (Option ℚ)) =
        .ok (some (1 / 3)) ∧
      recencyWeighted ((instants rows).filterMap fun t => mean (readings .c6res (rowsAt t rows))) =
        some (2 / 3 : ℚ) := by
  intro row rows
  have hslots : timeSlots rows = [[row 0 2 1, row 1 1 0], [row 0 1 0]] := rfl
  refine ⟨⟨by decide, by decide, by decide⟩, ?_, by decide +kernel, by decide +kernel⟩
  intro hgroups
  have htogether := hgroups (row 0 2 1) (by simp [rows]) (row 1 1 0) (by simp [rows])
  rw [hslots] at htogether
  exact absurd (htogether.mp ⟨[row 0 2 1, row 1 1 0], by simp, by simp, by simp⟩) (by decide)

end SocketRanking.Aggregate
