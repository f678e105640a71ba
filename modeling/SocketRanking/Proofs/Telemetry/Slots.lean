import Mathlib.Data.List.Chain
import Mathlib.Data.List.Nodup
import SocketRanking.Telemetry.Aggregate

/-!
# Time slots

Slots are filled greedily: a row goes into the open slot unless it belongs to no core, or to
one that the slot already holds.  The slots of a window are therefore the only division of
it into runs of different cores in which no run could have been longer.  A division that is
known to be greedy need not be computed: `timeSlots_flatten_of_isGreedy`.
-/

namespace SocketRanking.Aggregate

/-- A run of rows of different cores; only its first row may belong to no core. -/
structure IsSlot (slot : List Sample) : Prop where
  ne_nil : slot ≠ []
  core_ne_none : ∀ s ∈ slot.tail, s.core ≠ none
  nodup_cores : (slot.map (·.core)).Nodup

/-- The next slot begins with a row that could not stay in this one. -/
def EndsBefore (slot next : List Sample) : Prop :=
  ∀ s ∈ next.head?, opensSlot slot s = true

/-- Every slot is as long as it can be. -/
structure IsGreedy (slots : List (List Sample)) : Prop where
  isSlot : ∀ slot ∈ slots, IsSlot slot
  isChain : slots.IsChain EndsBefore

theorem IsGreedy.nil_notMem {slots : List (List Sample)} (hslots : IsGreedy slots) : [] ∉ slots :=
  fun hnil => (hslots.isSlot [] hnil).ne_nil rfl

theorem opensSlot_iff {slot : List Sample} {s : Sample} :
    opensSlot slot s = true ↔ s.core = none ∨ ∃ r ∈ slot, r.core = s.core := by
  simp [opensSlot]

theorem isSlot_singleton (s : Sample) : IsSlot [s] where
  ne_nil := List.cons_ne_nil s []
  core_ne_none := by simp
  nodup_cores := List.nodup_singleton _

theorem IsSlot.concat {slot : List Sample} (hslot : IsSlot slot) {s : Sample}
    (hstays : ¬opensSlot slot s = true) : IsSlot (slot ++ [s]) := by
  obtain ⟨hcore, hfresh⟩ := not_or.mp (opensSlot_iff.not.mp hstays)
  constructor
  case ne_nil => simp
  case core_ne_none =>
    rw [List.tail_append_of_ne_nil hslot.ne_nil]
    intro r hr
    rcases List.mem_append.mp hr with hbefore | hlast
    · exact hslot.core_ne_none r hbefore
    · exact List.mem_singleton.mp hlast ▸ hcore
  case nodup_cores =>
    rw [List.map_append, List.map_singleton, List.nodup_append]
    refine ⟨hslot.nodup_cores, List.nodup_singleton _, ?_⟩
    intro c hc c' hc' heq
    obtain ⟨r, hr, rfl⟩ := List.mem_map.mp hc
    exact hfresh ⟨r, hr, heq.trans (List.mem_singleton.mp hc')⟩

/-! ## The slots that are found -/

theorem slotsFrom_cons {opened rest : List Sample} {s : Sample} (hopened : opened ≠ []) :
    slotsFrom opened (s :: rest) =
      if opensSlot opened s then opened.reverse :: slotsFrom [s] rest
      else slotsFrom (s :: opened) rest := by
  rw [slotsFrom]
  exact hopened

theorem flatten_slotsFrom (opened rows : List Sample) :
    (slotsFrom opened rows).flatten = opened.reverse ++ rows := by
  fun_induction slotsFrom opened rows with
  | case1 => rfl
  | case2 opened hopened => simp
  | case3 s rest ih => simpa using ih
  | case4 opened s rest hopened hopens ih => simp [ih]
  | case5 opened s rest hopened hstays ih => simp [ih]

theorem flatten_timeSlots (rows : List Sample) : (timeSlots rows).flatten = rows :=
  flatten_slotsFrom [] rows

/-- Time slots hold rows of the window. -/
theorem mem_of_mem_timeSlots {samples slot : List Sample} {s : Sample}
    (hslot : slot ∈ timeSlots samples) (hs : s ∈ slot) : s ∈ samples :=
  flatten_timeSlots samples ▸ List.mem_flatten_of_mem hslot hs

/-- The first slot begins with the row that opened it. -/
theorem head?_head?_slotsFrom {opened rows : List Sample} (hopened : opened ≠ []) :
    ∀ slot ∈ (slotsFrom opened rows).head?, slot.head? = opened.reverse.head? := by
  induction rows generalizing opened with
  | nil =>
      rw [slotsFrom]
      · simp
      · exact hopened
  | cons s rest ih =>
      rw [slotsFrom_cons hopened]
      split
      · simp
      · intro slot hslot
        rw [ih (List.cons_ne_nil s opened) slot hslot, List.reverse_cons,
          List.head?_append_of_ne_nil _ (List.reverse_ne_nil_iff.mpr hopened)]

theorem opensSlot_reverse (slot : List Sample) (s : Sample) :
    opensSlot slot.reverse s = opensSlot slot s := by
  rw [opensSlot, List.any_reverse, opensSlot]

theorem isGreedy_slotsFrom {opened : List Sample} (rows : List Sample)
    (hopened : opened ≠ [] → IsSlot opened.reverse) : IsGreedy (slotsFrom opened rows) := by
  fun_induction slotsFrom opened rows with
  | case1 => exact ⟨by simp, List.isChain_nil⟩
  | case2 opened hne =>
      exact ⟨List.forall_mem_singleton.mpr (hopened hne), List.isChain_singleton _⟩
  | case3 s rest ih => exact ih fun _ => isSlot_singleton s
  | case4 opened s rest hne hopens ih =>
      have hlater := ih fun _ => isSlot_singleton s
      refine ⟨List.forall_mem_cons.mpr ⟨hopened hne, hlater.isSlot⟩, ?_⟩
      refine hlater.isChain.cons fun slot hslot r hr => ?_
      rw [head?_head?_slotsFrom (List.cons_ne_nil s []) slot hslot] at hr
      obtain rfl := Option.some.inj hr
      rwa [opensSlot_reverse]
  | case5 opened s rest hne hstays ih =>
      refine ih fun _ => ?_
      rw [List.reverse_cons]
      exact (hopened hne).concat (by rwa [opensSlot_reverse])

theorem isGreedy_timeSlots (rows : List Sample) : IsGreedy (timeSlots rows) :=
  isGreedy_slotsFrom rows fun hne => absurd rfl hne

/-! ## No other slots are greedy -/

/-- A row stays in the open slot if the two make a slot. -/
theorem not_opensSlot_of_isSlot {opened rest : List Sample} {s : Sample} (hopened : opened ≠ [])
    (hslot : IsSlot (opened.reverse ++ s :: rest)) : ¬opensSlot opened s = true := by
  have hreverse : opened.reverse ≠ [] := List.reverse_ne_nil_iff.mpr hopened
  have hcore := hslot.core_ne_none
  have hnodup := hslot.nodup_cores
  rw [List.tail_append_of_ne_nil hreverse] at hcore
  rw [List.map_append, List.map_cons, List.nodup_append] at hnodup
  rw [opensSlot_iff]
  rintro (hnone | ⟨r, hr, hagain⟩)
  · exact hcore s (List.mem_append_right _ List.mem_cons_self) hnone
  · exact hnodup.2.2 r.core (List.mem_map_of_mem (List.mem_reverse.mpr hr)) s.core
      List.mem_cons_self hagain

/-- The rows of a slot that has been opened all go into it. -/
theorem slotsFrom_append {opened rows later : List Sample} (hopened : opened ≠ [])
    (hslot : IsSlot (opened.reverse ++ rows)) :
    slotsFrom opened (rows ++ later) = slotsFrom (rows.reverse ++ opened) later := by
  induction rows generalizing opened with
  | nil => rfl
  | cons s rest ih =>
      have hmore : opened.reverse ++ s :: rest = (s :: opened).reverse ++ rest := by
        rw [List.reverse_cons, List.append_assoc, List.singleton_append]
      rw [List.cons_append, slotsFrom_cons hopened, if_neg (not_opensSlot_of_isSlot hopened hslot),
        ih (List.cons_ne_nil s opened) (hmore ▸ hslot), List.reverse_cons, List.append_assoc,
        List.singleton_append]

theorem slotsFrom_nil_append {slot later : List Sample} (hslot : IsSlot slot) :
    slotsFrom [] (slot ++ later) = slotsFrom slot.reverse later := by
  obtain ⟨s, rest, rfl⟩ := List.exists_cons_of_ne_nil hslot.ne_nil
  rw [List.cons_append, slotsFrom, slotsFrom_append (List.cons_ne_nil s []) hslot,
    List.reverse_cons]

/-- A row that cannot stay in the open slot closes it. -/
theorem slotsFrom_cons_of_opensSlot {opened rest : List Sample} {s : Sample}
    (hopened : opened ≠ []) (hopens : opensSlot opened s = true) :
    slotsFrom opened (s :: rest) = opened.reverse :: slotsFrom [] (s :: rest) := by
  rw [slotsFrom_cons hopened, if_pos hopens, slotsFrom]

theorem timeSlots_flatten_of_isGreedy {slots : List (List Sample)} (hslots : IsGreedy slots) :
    timeSlots slots.flatten = slots := by
  unfold timeSlots
  induction slots with
  | nil => rfl
  | cons slot rest ih =>
      obtain ⟨hslot, hrest⟩ := List.forall_mem_cons.mp hslots.isSlot
      have hlater := ih ⟨hrest, hslots.isChain.tail⟩
      have hreverse : slot.reverse ≠ [] := List.reverse_ne_nil_iff.mpr hslot.ne_nil
      rw [List.flatten_cons, slotsFrom_nil_append hslot]
      cases rest with
      | nil =>
          rw [List.flatten_nil, slotsFrom, List.reverse_reverse]
          exact hreverse
      | cons next later =>
          obtain ⟨s, others, rfl⟩ :=
            List.exists_cons_of_ne_nil (hrest next List.mem_cons_self).ne_nil
          -- the next slot begins with a row that closes this one
          have hopens : opensSlot slot.reverse s = true := by
            rw [opensSlot_reverse]
            exact hslots.isChain.rel s rfl
          rw [List.flatten_cons, List.cons_append] at hlater ⊢
          rw [slotsFrom_cons_of_opensSlot hreverse hopens, hlater, List.reverse_reverse]

end SocketRanking.Aggregate
