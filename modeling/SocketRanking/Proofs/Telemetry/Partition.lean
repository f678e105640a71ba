import Mathlib.Data.List.Nodup
import SocketRanking.Proofs.Telemetry.Slots

/-!
# The greedy partition of a window

What a division into time slots has to be, said of the rows alone: no row is lost, repeated or
moved, a slot has one row of a core, and no slot could have been longer.  A window has exactly
one such partition, and it is the one that is found, `isGreedyPartition_iff`.
-/

namespace SocketRanking.Aggregate

/-- Rows divided into consecutive slots, each as long as it can be. -/
structure IsGreedyPartition (rows : List Sample) (slots : List (List Sample)) : Prop where
  flatten_eq : slots.flatten = rows
  ne_nil : ∀ slot ∈ slots, slot ≠ []
  /-- No core has two rows in a slot. -/
  nodup_cores : ∀ slot ∈ slots, (slot.filterMap (·.core)).Nodup
  /-- A row of no core is the first of its slot. -/
  coreless_first : ∀ slot ∈ slots, ∀ s ∈ slot.tail, s.core ≠ none
  /-- The first row of the next slot is of no core, or of a core that has a row in this one. -/
  isMaximal : slots.IsChain fun slot next =>
    ∀ s ∈ next.head?, s.core = none ∨ ∃ r ∈ slot, r.core = s.core

/-- Where only the first row may be of no core, it does not matter whether rows of no core count
as rows of the same core. -/
theorem nodup_cores_iff {slot : List Sample} (htail : ∀ s ∈ slot.tail, s.core ≠ none) :
    (slot.map (·.core)).Nodup ↔ (slot.filterMap (·.core)).Nodup := by
  have happart : ∀ r s : Sample, s.core ≠ none →
      (r.core ≠ s.core ↔ ∀ c ∈ r.core, ∀ c' ∈ s.core, c ≠ c') := by
    intro r s hs
    obtain ⟨c', hc'⟩ := Option.ne_none_iff_exists'.mp hs
    cases hc : r.core <;> simp [hc']
  rw [List.Nodup, List.Nodup, List.pairwise_map, List.pairwise_filterMap]
  cases slot with
  | nil => simp
  | cons first rest =>
      rw [List.pairwise_cons, List.pairwise_cons]
      refine and_congr (forall₂_congr fun s hs => happart first s (htail s hs)) ?_
      exact List.Pairwise.iff_of_mem fun {r s} _ hs => happart r s (htail s hs)

theorem isSlot_iff {slot : List Sample} :
    IsSlot slot ↔ slot ≠ [] ∧ (∀ s ∈ slot.tail, s.core ≠ none) ∧
      (slot.filterMap (·.core)).Nodup := by
  constructor
  · rintro ⟨hfilled, htail, hnodup⟩
    exact ⟨hfilled, htail, (nodup_cores_iff htail).mp hnodup⟩
  · rintro ⟨hfilled, htail, hnodup⟩
    exact ⟨hfilled, htail, (nodup_cores_iff htail).mpr hnodup⟩

theorem endsBefore_iff {slot next : List Sample} :
    EndsBefore slot next ↔ ∀ s ∈ next.head?, s.core = none ∨ ∃ r ∈ slot, r.core = s.core :=
  forall₂_congr fun _ _ => opensSlot_iff

theorem IsGreedy.isGreedyPartition {slots : List (List Sample)} (hslots : IsGreedy slots) :
    IsGreedyPartition slots.flatten slots where
  flatten_eq := rfl
  ne_nil slot hslot := (hslots.isSlot slot hslot).ne_nil
  nodup_cores slot hslot := (isSlot_iff.mp (hslots.isSlot slot hslot)).2.2
  coreless_first slot hslot := (hslots.isSlot slot hslot).core_ne_none
  isMaximal := hslots.isChain.imp fun _ _ => endsBefore_iff.mp

theorem IsGreedyPartition.isGreedy {rows : List Sample} {slots : List (List Sample)}
    (hslots : IsGreedyPartition rows slots) : IsGreedy slots where
  isSlot slot hslot := isSlot_iff.mpr
    ⟨hslots.ne_nil slot hslot, hslots.coreless_first slot hslot, hslots.nodup_cores slot hslot⟩
  isChain := hslots.isMaximal.imp fun _ _ => endsBefore_iff.mpr

/-- The time slots of a window are its greedy partition, and it has no other. -/
theorem isGreedyPartition_iff (rows : List Sample) (slots : List (List Sample)) :
    IsGreedyPartition rows slots ↔ slots = timeSlots rows := by
  constructor
  · intro hslots
    have hfound := timeSlots_flatten_of_isGreedy hslots.isGreedy
    rw [← hfound, hslots.flatten_eq]
  · rintro rfl
    have hpartition := (isGreedy_timeSlots rows).isGreedyPartition
    rwa [flatten_timeSlots] at hpartition

/-- A row of no core begins a slot, and rows of cores may join it. -/
example :
    let row (core : Option UInt32) : Sample := ⟨0, core, []⟩
    timeSlots [row none, row (some 4), row (some 9), row (some 4), row none, row none] =
      [[row none, row (some 4), row (some 9)], [row (some 4)], [row none], [row none]] :=
  rfl

end SocketRanking.Aggregate
