import Mathlib.Algebra.Order.Group.MinMax
import SocketRanking.Proofs.Cache.Load

/-!
# Placements one after the other

Placements on a socket are folded into its entry one by one, and every one of them may be
cut off at the floor of idle fractions.  In exact arithmetic their order still makes no
difference.  Traffic only grows, so it never comes to stand at the sentinel, where later
placements would pass it by.  And as no workload gives idle time back, cutting off after
every placement is the same as cutting off once, after all of them.
-/

namespace SocketRanking

/-- A workload that is placed on a socket with so many cores. -/
structure PlacedApp (α : Type) where
  profile : AppProfile α
  cores : ℕ
  countsTowardIdle : Bool

namespace PlacedApp

/-- The workload takes neither traffic nor busy time away. -/
structure IsLoad (a : PlacedApp ℚ) : Prop where
  memRead : 0 ≤ a.profile.memRead
  memWrite : 0 ≤ a.profile.memWrite
  c6res : a.profile.c6res ≤ 100

/-- The share of the cores that the workload keeps busy; a socket without cores counts as one
with a single core. -/
def share (a : PlacedApp ℚ) : ℚ :=
  (100 - a.profile.c6res) / (100 * (max a.cores 1 : ℕ))

/-- The shares of the workloads that count toward idle capacity. -/
def idleLoad (apps : List (PlacedApp ℚ)) : ℚ :=
  ((apps.filter (·.countsTowardIdle)).map share).sum

theorem busyShare_eq (a : PlacedApp ℚ) : Entry.busyShare a.profile a.cores = a.share := by
  rw [Entry.busyShare, share, Scalar.ofCount_eq]
  norm_num

theorem IsLoad.share_nonneg {a : PlacedApp ℚ} (ha : a.IsLoad) : 0 ≤ a.share := by
  rw [← busyShare_eq]
  exact Entry.busyShare_nonneg ha.c6res a.cores

theorem idleLoad_cons_of_counts {a : PlacedApp ℚ} (ha : a.countsTowardIdle = true)
    (apps : List (PlacedApp ℚ)) : idleLoad (a :: apps) = a.share + idleLoad apps := by
  rw [idleLoad, List.filter_cons_of_pos ha, List.map_cons, List.sum_cons]
  rfl

theorem idleLoad_cons_of_not_counts {a : PlacedApp ℚ} (ha : a.countsTowardIdle = false)
    (apps : List (PlacedApp ℚ)) : idleLoad (a :: apps) = idleLoad apps := by
  rw [idleLoad, List.filter_cons_of_neg (by simp [ha])]
  rfl

theorem idleLoad_perm {apps apps' : List (PlacedApp ℚ)} (hperm : apps.Perm apps') :
    idleLoad apps = idleLoad apps' :=
  ((hperm.filter _).map _).sum_eq

theorem idleLoad_nonneg {apps : List (PlacedApp ℚ)} (hloads : ∀ a ∈ apps, a.IsLoad) :
    0 ≤ idleLoad apps := by
  apply List.sum_nonneg
  intro x hx
  obtain ⟨a, ha, rfl⟩ := List.mem_map.mp hx
  exact (hloads a (List.mem_of_mem_filter ha)).share_nonneg

end PlacedApp

open PlacedApp

/-! ## Entries -/

namespace Entry

/-- The entry after placements one after the other. -/
def placeAll {α : Type} [Scalar α] (e : Entry α) (apps : List (PlacedApp α)) : Entry α :=
  apps.foldl (fun e a => e.place a.profile a.cores a.countsTowardIdle) e

/-- What placements make of an entry, whatever their order. -/
structure SettlesAt (e : Entry ℚ) (apps : List (PlacedApp ℚ)) (e' : Entry ℚ) : Prop where
  ipc : e'.ipc = e.ipc
  memRead : e'.memRead = e.memRead + (apps.map (·.profile.memRead)).sum
  memWrite : e'.memWrite = e.memWrite + (apps.map (·.profile.memWrite)).sum
  uncounted : (∀ a ∈ apps, a.countsTowardIdle = false) → e'.c6res = e.c6res
  counted : (∃ a ∈ apps, a.countsTowardIdle = true) →
    e'.c6res = max (e.c6res - idleLoad apps) idleEpsilon

variable {e e' : Entry ℚ} {apps : List (PlacedApp ℚ)}

theorem ipc_placeAll (e : Entry ℚ) (apps : List (PlacedApp ℚ)) :
    (e.placeAll apps).ipc = e.ipc := by
  induction apps generalizing e with
  | nil => rfl
  | cons a rest ih => exact ih (e.place a.profile a.cores a.countsTowardIdle)

/-- What is known and not negative is raised by all amounts. -/
theorem foldl_raise {x : ℚ} (hx : 0 ≤ x) {amounts : List ℚ} (hamounts : ∀ y ∈ amounts, 0 ≤ y) :
    amounts.foldl raise x = x + amounts.sum := by
  induction amounts generalizing x with
  | nil => simp
  | cons y rest ih =>
      obtain ⟨hy, hrest⟩ := List.forall_mem_cons.mp hamounts
      have hfirst : raise x y = x + y := if_pos (isKnown_of_nonneg hx)
      rw [List.foldl_cons, hfirst, ih (add_nonneg hx hy) hrest, List.sum_cons, add_assoc]

theorem memRead_placeAll (e : Entry ℚ) (apps : List (PlacedApp ℚ)) :
    (e.placeAll apps).memRead = (apps.map (·.profile.memRead)).foldl raise e.memRead := by
  induction apps generalizing e with
  | nil => rfl
  | cons a rest ih => exact ih (e.place a.profile a.cores a.countsTowardIdle)

theorem memWrite_placeAll (e : Entry ℚ) (apps : List (PlacedApp ℚ)) :
    (e.placeAll apps).memWrite = (apps.map (·.profile.memWrite)).foldl raise e.memWrite := by
  induction apps generalizing e with
  | nil => rfl
  | cons a rest ih => exact ih (e.place a.profile a.cores a.countsTowardIdle)

theorem c6res_place_of_counts (hknown : isKnown e.c6res = true) {a : PlacedApp ℚ}
    (ha : a.countsTowardIdle = true) :
    (e.place a.profile a.cores a.countsTowardIdle).c6res =
      max (e.c6res - a.share) idleEpsilon := by
  simp only [place, ha, hknown, Bool.and_self, if_true, Scalar.atLeast_eq_max, busyShare_eq]
  exact max_comm _ _

theorem c6res_place_of_not_counts (e : Entry ℚ) {a : PlacedApp ℚ}
    (ha : a.countsTowardIdle = false) :
    (e.place a.profile a.cores a.countsTowardIdle).c6res = e.c6res := by
  simp [place, ha]

/-- Once the idle fraction has been cut off, all later cuts come to a single one. -/
theorem c6res_placeAll_of_cut {x : ℚ} (hcut : e.c6res = max x idleEpsilon)
    (hloads : ∀ a ∈ apps, a.IsLoad) :
    (e.placeAll apps).c6res = max (x - idleLoad apps) idleEpsilon := by
  induction apps generalizing e x with
  | nil => simpa [idleLoad, placeAll] using hcut
  | cons a rest ih =>
      obtain ⟨ha, hrest⟩ := List.forall_mem_cons.mp hloads
      change ((e.place a.profile a.cores a.countsTowardIdle).placeAll rest).c6res = _
      cases hcounts : a.countsTowardIdle with
      | false =>
          rw [idleLoad_cons_of_not_counts hcounts]
          apply ih _ hrest
          rw [← hcounts, c6res_place_of_not_counts e hcounts, hcut]
      | true =>
          have hknown : isKnown e.c6res = true :=
            isKnown_of_nonneg (hcut ▸ idleEpsilon_nonneg.trans (le_max_right _ _))
          have hlower : (idleEpsilon : ℚ) - a.share ≤ idleEpsilon :=
            sub_le_self _ ha.share_nonneg
          rw [idleLoad_cons_of_counts hcounts, ← sub_sub]
          apply ih _ hrest
          rw [← hcounts, c6res_place_of_counts hknown hcounts, hcut,
            ← max_sub_sub_right, max_assoc, max_eq_right hlower]

theorem c6res_placeAll_of_uncounted (e : Entry ℚ)
    (hcounts : ∀ a ∈ apps, a.countsTowardIdle = false) : (e.placeAll apps).c6res = e.c6res := by
  induction apps generalizing e with
  | nil => rfl
  | cons a rest ih =>
      obtain ⟨ha, hrest⟩ := List.forall_mem_cons.mp hcounts
      exact (ih _ hrest).trans (c6res_place_of_not_counts e ha)

theorem c6res_placeAll_of_counted (hknown : isKnown e.c6res = true)
    (hloads : ∀ a ∈ apps, a.IsLoad) (hcounts : ∃ a ∈ apps, a.countsTowardIdle = true) :
    (e.placeAll apps).c6res = max (e.c6res - idleLoad apps) idleEpsilon := by
  -- up to the first workload that counts, the idle fraction stays as it is
  induction apps generalizing e with
  | nil => simp at hcounts
  | cons a rest ih =>
      obtain ⟨ha, hrest⟩ := List.forall_mem_cons.mp hloads
      cases hfirst : a.countsTowardIdle with
      | true =>
          rw [idleLoad_cons_of_counts hfirst, ← sub_sub]
          exact c6res_placeAll_of_cut (c6res_place_of_counts hknown hfirst) hrest
      | false =>
          have hlater : ∃ a ∈ rest, a.countsTowardIdle = true := by
            simpa [hfirst] using hcounts
          have hsame := c6res_place_of_not_counts e hfirst
          rw [idleLoad_cons_of_not_counts hfirst, ← hsame]
          exact ih (hsame.symm ▸ hknown) hrest hlater

theorem settlesAt_placeAll (hread : 0 ≤ e.memRead) (hwrite : 0 ≤ e.memWrite)
    (hknown : isKnown e.c6res = true) (hloads : ∀ a ∈ apps, a.IsLoad) :
    e.SettlesAt apps (e.placeAll apps) where
  ipc := ipc_placeAll e apps
  memRead := by
    rw [memRead_placeAll]
    exact foldl_raise hread (List.forall_mem_map.mpr fun a ha => (hloads a ha).memRead)
  memWrite := by
    rw [memWrite_placeAll]
    exact foldl_raise hwrite (List.forall_mem_map.mpr fun a ha => (hloads a ha).memWrite)
  uncounted := c6res_placeAll_of_uncounted e
  counted := c6res_placeAll_of_counted hknown hloads

namespace SettlesAt

theorem c6res_cases (hsettles : e.SettlesAt apps e') :
    (∀ a ∈ apps, a.countsTowardIdle = false) ∧ e'.c6res = e.c6res ∨
      (∃ a ∈ apps, a.countsTowardIdle = true) ∧
        e'.c6res = max (e.c6res - idleLoad apps) idleEpsilon := by
  by_cases hcounts : ∃ a ∈ apps, a.countsTowardIdle = true
  · exact Or.inr ⟨hcounts, hsettles.counted hcounts⟩
  · push Not at hcounts
    have hnone : ∀ a ∈ apps, a.countsTowardIdle = false :=
      fun a ha => Bool.eq_false_iff.mpr (hcounts a ha)
    exact Or.inl ⟨hnone, hsettles.uncounted hnone⟩

/-- Entries in which the same workloads settle in different orders are the same. -/
theorem eq_of_perm {apps' : List (PlacedApp ℚ)} {e'' : Entry ℚ} (hsettles : e.SettlesAt apps e')
    (hsettles' : e.SettlesAt apps' e'') (hperm : apps.Perm apps') : e' = e'' := by
  have hc6res : e'.c6res = e''.c6res := by
    rcases hsettles.c6res_cases with ⟨hnone, hsame⟩ | ⟨⟨a, ha, hcounts⟩, hcut⟩
    · rw [hsame, hsettles'.uncounted fun a ha => hnone a (hperm.mem_iff.mpr ha)]
    · rw [hcut, hsettles'.counted ⟨a, hperm.mem_iff.mp ha, hcounts⟩, idleLoad_perm hperm]
  have hread : e'.memRead = e''.memRead := by
    rw [hsettles.memRead, hsettles'.memRead, (hperm.map _).sum_eq]
  have hwrite : e'.memWrite = e''.memWrite := by
    rw [hsettles.memWrite, hsettles'.memWrite, (hperm.map _).sum_eq]
  cases e'
  cases e''
  exact (Entry.mk.injEq ..).mpr ⟨hsettles.ipc.trans hsettles'.ipc.symm, hread, hwrite, hc6res⟩

theorem memory_nonneg (hsettles : e.SettlesAt apps e') (hread : 0 ≤ e.memRead)
    (hwrite : 0 ≤ e.memWrite) (hloads : ∀ a ∈ apps, a.IsLoad) :
    0 ≤ e'.memRead ∧ 0 ≤ e'.memWrite := by
  rw [hsettles.memRead, hsettles.memWrite]
  exact ⟨add_nonneg hread
      (List.sum_nonneg (List.forall_mem_map.mpr fun a ha => (hloads a ha).memRead)),
    add_nonneg hwrite
      (List.sum_nonneg (List.forall_mem_map.mpr fun a ha => (hloads a ha).memWrite))⟩

theorem c6res_pos (hsettles : e.SettlesAt apps e')
    (hcounts : ∃ a ∈ apps, a.countsTowardIdle = true) : 0 < e'.c6res := by
  rw [hsettles.counted hcounts]
  exact idleEpsilon_pos.trans_le (le_max_right _ _)

theorem c6res_le (hsettles : e.SettlesAt apps e') (hloads : ∀ a ∈ apps, a.IsLoad)
    (hfloor : idleEpsilon ≤ e.c6res) : idleEpsilon ≤ e'.c6res ∧ e'.c6res ≤ e.c6res := by
  rcases hsettles.c6res_cases with ⟨-, hsame⟩ | ⟨-, hcut⟩
  · rw [hsame]
    exact ⟨hfloor, le_rfl⟩
  · rw [hcut]
    exact ⟨le_max_right _ _, max_le (sub_le_self _ (idleLoad_nonneg hloads)) hfloor⟩

theorem c6res_eq_floor (hsettles : e.SettlesAt apps e')
    (hcounts : ∃ a ∈ apps, a.countsTowardIdle = true)
    (hload : e.c6res - idleEpsilon ≤ idleLoad apps) : e'.c6res = idleEpsilon := by
  rw [hsettles.counted hcounts]
  exact max_eq_right (by linarith)

end SettlesAt

end Entry

/-! ## The cache -/

namespace Cache

/-- The cache after placements on a socket one after the other. -/
def placeAll {α : Type} [Scalar α] (c : Cache α) (k : SocketKey) (apps : List (PlacedApp α)) :
    Cache α :=
  apps.foldl (fun c a => c.place k a.profile a.cores a.countsTowardIdle) c

theorem placeAll_append (c : Cache ℚ) (k : SocketKey) (before after : List (PlacedApp ℚ)) :
    c.placeAll k (before ++ after) = (c.placeAll k before).placeAll k after :=
  List.foldl_append

theorem get_placeAll (c : Cache ℚ) (k : SocketKey) (apps : List (PlacedApp ℚ)) :
    (c.placeAll k apps).get k = (c.get k).placeAll apps := by
  induction apps generalizing c with
  | nil => rfl
  | cons a rest ih =>
      have hfirst := get_place c k a.profile a.cores a.countsTowardIdle k
      rw [if_pos rfl] at hfirst
      exact (ih (c.place k a.profile a.cores a.countsTowardIdle)).trans
        (congrArg (Entry.placeAll · rest) hfirst)

/-- In exact arithmetic placements on a socket of which traffic and idle fraction are known
may come in any order.  They leave the throughput alone and add up in the traffic, and if
one of them counts toward idle capacity, the idle fraction is the one of before less all
their shares, or the floor if less than that is left: it is positive, never grows from a
value at the floor or above it, and stands at the floor once the shares have used it up. -/
theorem placeAll_settles {c : Cache ℚ} {k : SocketKey} (hread : 0 ≤ (c.get k).memRead)
    (hwrite : 0 ≤ (c.get k).memWrite) (hknown : Entry.isKnown (c.get k).c6res = true)
    {apps : List (PlacedApp ℚ)} (hloads : ∀ a ∈ apps, a.IsLoad) :
    let e := c.get k
    let e' := (c.placeAll k apps).get k
    (∀ apps', apps.Perm apps' → (c.placeAll k apps').get k = e') ∧
    e.SettlesAt apps e' ∧
    ((∃ a ∈ apps, a.countsTowardIdle = true) →
      0 < e'.c6res ∧ (e.c6res - Entry.idleEpsilon ≤ idleLoad apps →
        e'.c6res = Entry.idleEpsilon)) ∧
    (Entry.idleEpsilon ≤ e.c6res → ∀ before after, apps = before ++ after →
      e'.c6res ≤ ((c.placeAll k before).get k).c6res) := by
  intro e e'
  have hsettles : ∀ apps : List (PlacedApp ℚ), (∀ a ∈ apps, a.IsLoad) →
      e.SettlesAt apps ((c.placeAll k apps).get k) := by
    intro apps hloads
    rw [get_placeAll]
    exact Entry.settlesAt_placeAll hread hwrite hknown hloads
  refine ⟨?_, hsettles apps hloads, ?_, ?_⟩
  · intro apps' hperm
    have hloads' : ∀ a ∈ apps', a.IsLoad := fun a ha => hloads a (hperm.mem_iff.mpr ha)
    exact (hsettles apps' hloads').eq_of_perm (hsettles apps hloads) hperm.symm
  · intro hcounts
    exact ⟨(hsettles apps hloads).c6res_pos hcounts,
      (hsettles apps hloads).c6res_eq_floor hcounts⟩
  · rintro hfloor before after rfl
    obtain ⟨hbefore, hafter⟩ := List.forall_mem_append.mp hloads
    have hmid := hsettles before hbefore
    obtain ⟨hread', hwrite'⟩ := hmid.memory_nonneg hread hwrite hbefore
    have hfloor' := (hmid.c6res_le hbefore hfloor).1
    have hknown' := Entry.isKnown_of_nonneg (Entry.idleEpsilon_nonneg.trans hfloor')
    have hlast := Entry.settlesAt_placeAll hread' hwrite' hknown' hafter
    rw [← get_placeAll, ← placeAll_append] at hlast
    exact (hlast.c6res_le hafter hfloor').2

/-- Three workloads, one of which does not count and one of which names no cores, and the
same in another order. -/
theorem placeAll_settles_bench :
    let k : SocketKey := ⟨"bench", 0⟩
    let c : Cache ℚ := (seeded 500 [k] 0).update k ⟨2, 10, 5, 1 / 2⟩ 0
    let coreless : PlacedApp ℚ := ⟨⟨1, 2, 0, 70, 1⟩, 0, true⟩
    let spread : PlacedApp ℚ := ⟨⟨1, 1, 1, 60, 1⟩, 4, true⟩
    let waiting : PlacedApp ℚ := ⟨⟨1, 0, 3, 0, 1⟩, 4, false⟩
    (c.placeAll k [coreless, spread, waiting]).get k = ⟨2, 13, 9, 1 / 10⟩ ∧
    (c.placeAll k [waiting, spread, coreless]).get k = ⟨2, 13, 9, 1 / 10⟩ := by
  intro k c coreless spread waiting
  have hentry : c.get k = ⟨2, 10, 5, 1 / 2⟩ := by
    rw [get_update, if_pos rfl]
  have hloads : ∀ a ∈ [coreless, spread, waiting], a.IsLoad := by
    simp only [List.forall_mem_cons, List.not_mem_nil, false_imp_iff, implies_true, and_true]
    exact ⟨⟨by norm_num [coreless], by norm_num [coreless], by norm_num [coreless]⟩,
      ⟨by norm_num [spread], by norm_num [spread], by norm_num [spread]⟩,
      ⟨by norm_num [waiting], by norm_num [waiting], by norm_num [waiting]⟩⟩
  have hknown : Entry.isKnown (c.get k).c6res = true :=
    hentry ▸ Entry.isKnown_of_nonneg (by norm_num)
  obtain ⟨horder, hsettles, -, -⟩ := placeAll_settles (k := k) (hentry ▸ by norm_num)
    (hentry ▸ by norm_num) hknown hloads
  have hplaced : (c.placeAll k [coreless, spread, waiting]).get k = ⟨2, 13, 9, 1 / 10⟩ := by
    rw [get_placeAll, hentry]
    decide +kernel
  refine ⟨hplaced, (horder [waiting, spread, coreless] ?_).trans hplaced⟩
  exact (List.reverse_perm [coreless, spread, waiting]).symm

end Cache

end SocketRanking
