import Mathlib.Data.List.Basic
import SocketRanking.Cache.Sweeper
import SocketRanking.Proofs.Number.Comparison

/-!
# The cache seen through its entries

`Cache.get` is what every reader of the cache sees.  This module says what each
operation does to it and to the timer, so that nothing below opens the map in
which the entries are kept.  `Cache.record` enters the measurements of one
scoring call one after the other.
-/

namespace SocketRanking

variable {α : Type}

/-! ## Entries -/

namespace Entry

variable [Scalar α]

/-- What placements on its socket may make of an entry. -/
inductive LeadsTo (e : Entry α) : Entry α → Prop
  | refl : LeadsTo e e
  | place {e' : Entry α} (profile : AppProfile α) (cores : Nat) (countsTowardIdle : Bool) :
      LeadsTo e e' → LeadsTo e (e'.place profile cores countsTowardIdle)

section Lawful

variable [LawfulScalar α]

@[simp] theorem isKnown_sentinel : isKnown (sentinel : α) = false := by
  simp only [isKnown, sentinel, Bool.not_eq_false']
  exact LawfulScalar.beq_self_of_lt LawfulScalar.minusOne_lt_floor

/-- What is kept at the floor or above is never taken for the sentinel. -/
@[simp] theorem isKnown_atLeast (x : α) :
    isKnown (Scalar.atLeast idleEpsilon x) = true := by
  have hfloor : (sentinel : α) < idleEpsilon := LawfulScalar.minusOne_lt_floor
  simp only [isKnown, Bool.not_eq_true']
  by_contra hmark
  rw [Bool.not_eq_false] at hmark
  by_cases hx : (idleEpsilon : α) < x
  · rw [Scalar.atLeast, if_pos hx] at hmark
    exact LawfulScalar.lt_asymm hfloor (LawfulScalar.lt_of_lt_of_beq hx hmark)
  · rw [Scalar.atLeast, if_neg hx] at hmark
    have hself := LawfulScalar.lt_of_lt_of_beq hfloor hmark
    exact LawfulScalar.lt_asymm hself hself

@[simp] theorem idle?_unknown : (unknown : Entry α).idle? = none := by
  simp [idle?, unknown]

/-- A placement leaves a socket of which nothing is known unknown. -/
@[simp] theorem place_unknown (profile : AppProfile α) (cores : Nat)
    (countsTowardIdle : Bool) :
    (unknown : Entry α).place profile cores countsTowardIdle = unknown := by
  simp [place, raise, unknown]

theorem idle?_measured (p : Performance α) (x : α) :
    (measured p (Scalar.atLeast idleEpsilon x)).idle? =
      some (Scalar.atLeast idleEpsilon x) := by
  simp [idle?, measured]

/-- A placement neither reveals nor hides the idle fraction. -/
theorem isSome_idle?_place (e : Entry α) (profile : AppProfile α) (cores : Nat)
    (countsTowardIdle : Bool) :
    (e.place profile cores countsTowardIdle).idle?.isSome = e.idle?.isSome := by
  by_cases hknown : isKnown e.c6res = true <;>
    cases countsTowardIdle <;> simp [idle?, place, hknown]

/-- Placements neither reveal nor hide the idle fraction. -/
theorem isSome_idle?_of_leadsTo {e e' : Entry α} (hplaced : e.LeadsTo e') :
    e'.idle?.isSome = e.idle?.isSome := by
  induction hplaced with
  | refl => rfl
  | place profile cores countsTowardIdle _ ih =>
      exact (isSome_idle?_place _ profile cores countsTowardIdle).trans ih

end Lawful

theorem LeadsTo.trans {e e' e'' : Entry α} (hfirst : e.LeadsTo e')
    (hsecond : e'.LeadsTo e'') : e.LeadsTo e'' := by
  induction hsecond with
  | refl => exact hfirst
  | place profile cores countsTowardIdle _ ih =>
      exact ih.place profile cores countsTowardIdle

theorem isSome_idle? (e : Entry α) : e.idle?.isSome = isKnown e.c6res := by
  cases hknown : isKnown e.c6res <;> simp [idle?, hknown]

theorem idle?_eq_some_iff {e : Entry α} {x : α} :
    e.idle? = some x ↔ isKnown e.c6res = true ∧ e.c6res = x := by
  cases hknown : isKnown e.c6res <;> simp [idle?, hknown]

/-- A fresh entry holds an idle fraction. -/
theorem idle?_eq_some_of_isFresh {e : Entry α} (hfresh : e.isFresh = true) :
    e.idle? = some e.c6res := by
  simp only [isFresh, Bool.and_eq_true] at hfresh
  rw [idle?, if_pos hfresh.2]

end Entry

namespace Cache

/-! ## The timer and the measurements of a call -/

theorem isExpired_iff {c : Cache α} {now : Nat} :
    c.isExpired now = true ↔ c.ttl ≤ now - c.refreshedAt := by
  simp [isExpired]

/-- Enters measurements one after the other, all at the same time. -/
def record (c : Cache α) (now : Nat) (writes : List (SocketKey × Entry α)) : Cache α :=
  writes.foldl (fun c write => c.update write.1 write.2 now) c

@[simp] theorem record_nil (c : Cache α) (now : Nat) : c.record now [] = c :=
  rfl

@[simp] theorem record_cons (c : Cache α) (now : Nat) (k : SocketKey) (e : Entry α)
    (writes : List (SocketKey × Entry α)) :
    c.record now ((k, e) :: writes) = (c.update k e now).record now writes :=
  rfl

@[simp] theorem ttl_record (c : Cache α) (now : Nat)
    (writes : List (SocketKey × Entry α)) : (c.record now writes).ttl = c.ttl := by
  induction writes generalizing c with
  | nil => rfl
  | cons _ _ ih => exact ih _

theorem refreshedAt_record (c : Cache α) (now : Nat)
    (writes : List (SocketKey × Entry α)) :
    (c.record now writes).refreshedAt = if writes = [] then c.refreshedAt else now := by
  induction writes generalizing c with
  | nil => rfl
  | cons write rest ih =>
      obtain ⟨k, e⟩ := write
      rw [record_cons, ih, if_neg (List.cons_ne_nil _ _)]
      split <;> rfl

variable [Scalar α]

@[simp] theorem ttl_invalidateIfExpired (c : Cache α) (now : Nat) :
    (c.invalidateIfExpired now).ttl = c.ttl := by
  unfold invalidateIfExpired
  split <;> rfl

/-! ## What readers see -/

theorem get_seeded (ttl : Nat) (keys : List SocketKey) (now : Nat) (k : SocketKey) :
    (seeded ttl keys now : Cache α).get k = .unknown := by
  suffices h : ∀ map : Std.TreeMap SocketKey (Entry α), map.getD k .unknown = .unknown →
      (keys.foldl (fun map k => map.insert k .unknown) map).getD k .unknown = .unknown from
    h ∅ Std.TreeMap.getD_emptyc
  induction keys with
  | nil => exact fun _ hmap => hmap
  | cons first rest ih =>
      intro map hmap
      refine ih _ ?_
      rw [Std.TreeMap.getD_insert]
      split
      · rfl
      · exact hmap

theorem get_update (c : Cache α) (k : SocketKey) (e : Entry α) (now : Nat)
    (k' : SocketKey) :
    (c.update k e now).get k' = if k = k' then e else c.get k' := by
  simp [get, update, Std.TreeMap.getD_insert, Std.LawfulEqCmp.compare_eq_iff_eq]

@[simp] theorem get_clean (c : Cache α) (k : SocketKey) : c.clean.get k = .unknown := by
  rw [get, clean, Std.TreeMap.getD_map]
  cases c.entries[k]? <;> rfl

@[simp] theorem get_sweep (c : Cache α) (now : Nat) (k : SocketKey) :
    (c.sweep now).get k = .unknown :=
  get_clean c k

/-- Nothing is known of any socket. -/
def IsBlank (c : Cache α) : Prop :=
  ∀ k, c.get k = .unknown

theorem isBlank_seeded (ttl : Nat) (keys : List SocketKey) (now : Nat) :
    (seeded ttl keys now : Cache α).IsBlank :=
  get_seeded ttl keys now

theorem isBlank_clean (c : Cache α) : c.clean.IsBlank :=
  get_clean c

theorem get_place [LawfulScalar α] (c : Cache α) (k : SocketKey)
    (profile : AppProfile α) (cores : Nat) (countsTowardIdle : Bool) (k' : SocketKey) :
    (c.place k profile cores countsTowardIdle).get k' =
      if k = k' then (c.get k').place profile cores countsTowardIdle
      else c.get k' := by
  simp only [get, place, Std.TreeMap.getD_modify, Std.LawfulEqCmp.compare_eq_iff_eq]
  split
  next hk =>
    subst hk
    rw [Std.TreeMap.getD_eq_getD_getElem?]
    cases c.entries[k]? with
    | some e => rfl
    | none => exact (Entry.place_unknown profile cores countsTowardIdle).symm
  next => rfl

/-- A placement changes entries as placements do. -/
theorem leadsTo_get_place [LawfulScalar α] (c : Cache α) (k : SocketKey)
    (profile : AppProfile α) (cores : Nat) (countsTowardIdle : Bool) (k' : SocketKey) :
    (c.get k').LeadsTo ((c.place k profile cores countsTowardIdle).get k') := by
  rw [get_place]
  split
  · exact Entry.LeadsTo.refl.place profile cores countsTowardIdle
  · exact .refl

omit [Scalar α] in
theorem getElem?_record_of_notMem {c : Cache α} {writes : List (SocketKey × Entry α)}
    {k : SocketKey} (hk : k ∉ writes.map Prod.fst) (now : Nat) :
    (c.record now writes).entries[k]? = c.entries[k]? := by
  induction writes generalizing c with
  | nil => rfl
  | cons write rest ih =>
      obtain ⟨k', e⟩ := write
      rw [List.map_cons, List.mem_cons, not_or] at hk
      rw [record_cons, ih hk.2, update, Std.TreeMap.getElem?_insert,
        if_neg (by simpa [Std.LawfulEqCmp.compare_eq_iff_eq] using Ne.symm hk.1)]

theorem get_record_of_notMem {c : Cache α} {writes : List (SocketKey × Entry α)}
    {k : SocketKey} (hk : k ∉ writes.map Prod.fst) (now : Nat) :
    (c.record now writes).get k = c.get k := by
  rw [get, get, Std.TreeMap.getD_eq_getD_getElem?, Std.TreeMap.getD_eq_getD_getElem?,
    getElem?_record_of_notMem hk]

theorem get_record_of_mem {c : Cache α} {writes : List (SocketKey × Entry α)}
    (hkeys : (writes.map Prod.fst).Nodup) {k : SocketKey} {e : Entry α}
    (hwrite : (k, e) ∈ writes) (now : Nat) :
    (c.record now writes).get k = e := by
  induction writes generalizing c with
  | nil => cases hwrite
  | cons write rest ih =>
      obtain ⟨k', e'⟩ := write
      rw [List.map_cons, List.nodup_cons] at hkeys
      rw [record_cons]
      rcases List.mem_cons.mp hwrite with hfirst | hrest
      · obtain ⟨rfl, rfl⟩ := Prod.mk.inj hfirst
        rw [get_record_of_notMem hkeys.1, get_update, if_pos rfl]
      · exact ih hkeys.2 hrest

theorem get_record_congr {c c' : Cache α} (hget : ∀ k, c.get k = c'.get k) (now : Nat)
    (writes : List (SocketKey × Entry α)) (k : SocketKey) :
    (c.record now writes).get k = (c'.record now writes).get k := by
  induction writes generalizing c c' with
  | nil => exact hget k
  | cons write rest ih =>
      obtain ⟨k', e⟩ := write
      refine ih fun k => ?_
      rw [get_update, get_update, hget]

theorem get_invalidateIfExpired (c : Cache α) (now : Nat) (k : SocketKey) :
    (c.invalidateIfExpired now).get k =
      if c.isExpired now = true then .unknown else c.get k := by
  unfold invalidateIfExpired
  split <;> simp

theorem entries_invalidateIfExpired (c : Cache α) (now : Nat) :
    (c.invalidateIfExpired now).entries =
      if c.ttl ≤ now - c.refreshedAt then c.entries.map fun _ _ => .unknown
      else c.entries := by
  simp only [invalidateIfExpired, isExpired_iff]
  split <;> rfl

theorem isBlank_invalidateIfExpired {c : Cache α} {now : Nat}
    (hexpired : c.isExpired now = true) : (c.invalidateIfExpired now).IsBlank := by
  intro k
  rw [get_invalidateIfExpired, if_pos hexpired]

theorem IsBlank.invalidateIfExpired {c : Cache α} (hblank : c.IsBlank) (now : Nat) :
    (c.invalidateIfExpired now).IsBlank := by
  intro k
  rw [get_invalidateIfExpired, hblank, ite_self]

/-- A cache that holds for some time is not expired after the expiry check, nor
after measurements at that time. -/
theorem isExpired_record_invalidateIfExpired {c : Cache α} (hholds : 0 < c.ttl) (now : Nat)
    (writes : List (SocketKey × Entry α)) :
    ((c.invalidateIfExpired now).record now writes).isExpired now = false := by
  refine Bool.eq_false_of_not_eq_true fun hexpired => ?_
  rw [isExpired_iff, ttl_record, ttl_invalidateIfExpired, refreshedAt_record] at hexpired
  split at hexpired
  · unfold invalidateIfExpired at hexpired
    split at hexpired
    next hnow =>
      simp only [sweep] at hexpired
      omega
    next hnow => exact hnow (isExpired_iff.mpr hexpired)
  · omega

/-! ## The sweeper -/

theorem sweepUntil_of_lt {c : Cache α} {now stop : Nat} (hwake : stop < c.nextWake now)
    (count : Nat) : c.sweepUntil now stop count = (c, count) := by
  rw [sweepUntil, if_neg (Nat.not_le.mpr hwake)]

@[simp] theorem ttl_sweepUntil (c : Cache α) (now stop count : Nat) :
    (c.sweepUntil now stop count).1.ttl = c.ttl := by
  fun_induction sweepUntil c now stop count with
  | case1 => assumption
  | case2 => rfl
  | case3 => rfl

/-- A sweeper that wakes in time leaves nothing known. -/
theorem isBlank_sweepUntil {c : Cache α} {now stop : Nat} (hwake : c.nextWake now ≤ stop)
    (count : Nat) : (c.sweepUntil now stop count).1.IsBlank := by
  intro k
  suffices h : (c.sweepUntil now stop count).1.get k = .unknown ∨
      (stop < c.nextWake now ∧ (c.sweepUntil now stop count).1 = c) by
    exact h.resolve_right fun hsleep => Nat.not_le.mpr hsleep.1 hwake
  clear hwake
  fun_induction sweepUntil c now stop count with
  | case1 c now count hwake hholds ih =>
      rcases ih with hunknown | ⟨-, hsame⟩
      · exact Or.inl hunknown
      · exact Or.inl (by rw [hsame, get_sweep])
  | case2 c now count hwake hholds => exact Or.inl (get_sweep c stop k)
  | case3 c now count hwake => exact Or.inr ⟨Nat.not_le.mp hwake, rfl⟩

theorem le_count_sweepUntil (c : Cache α) (now stop count : Nat) :
    count ≤ (c.sweepUntil now stop count).2 := by
  fun_induction sweepUntil c now stop count with
  | case1 c now count hwake hholds ih => exact Nat.le_of_succ_le ih
  | case2 c now count hwake hholds => exact Nat.le_succ count
  | case3 c now count hwake => exact le_rfl

/-- A sweeper that makes no sweep leaves the cache as it is. -/
theorem sweepUntil_of_count_eq {c : Cache α} {now stop count : Nat}
    (hcount : (c.sweepUntil now stop count).2 = count) :
    (c.sweepUntil now stop count).1 = c := by
  rw [sweepUntil] at hcount ⊢
  split at hcount
  · split at hcount
    · have hmore := le_count_sweepUntil (c.sweep (c.nextWake now)) (c.nextWake now) stop
        (count + 1)
      omega
    · exact absurd hcount (Nat.succ_ne_self count)
  · next hwake => rw [if_neg hwake]

/-- The sweeper acts by a time if and only if the cache counts as expired at that
time: both take the deadline itself for expired. -/
theorem sweepUntil_pos_iff {c : Cache α} (hholds : 0 < c.ttl) {now stop : Nat}
    (hstop : now ≤ stop) : 0 < (c.sweepUntil now stop 0).2 ↔ c.isExpired stop = true := by
  have hexpired : c.isExpired stop = true ↔ c.nextWake now ≤ stop := by
    rw [isExpired_iff, nextWake, deadline]
    omega
  rw [hexpired]
  by_cases hwake : c.nextWake now ≤ stop
  · rw [sweepUntil, if_pos hwake, if_pos hholds]
    exact iff_of_true (le_count_sweepUntil _ _ _ 1) hwake
  · rw [sweepUntil_of_lt (Nat.not_le.mp hwake)]
    exact iff_of_false (lt_irrefl 0) hwake

end Cache

end SocketRanking
