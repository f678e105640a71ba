import SocketRanking.Proofs.Cache.View

/-!
# The content of the cache

Two caches are alike when they bind the same sockets to the same entries and
share their timer, whatever the shape of the maps in which they keep the entries.
Operations on alike caches give alike caches, and measurements of different
sockets may be entered in any order.
-/

namespace SocketRanking.Cache

variable {α : Type}

/-- The same entries under the same timer. -/
structure Alike (c c' : Cache α) : Prop where
  entries : c.entries.Equiv c'.entries
  refreshedAt : c.refreshedAt = c'.refreshedAt
  ttl : c.ttl = c'.ttl

variable {c c' c'' : Cache α}

theorem Alike.refl (c : Cache α) : c.Alike c :=
  ⟨.rfl, rfl, rfl⟩

theorem Alike.trans (hfirst : c.Alike c') (hsecond : c'.Alike c'') : c.Alike c'' :=
  ⟨hfirst.entries.trans hsecond.entries, hfirst.refreshedAt.trans hsecond.refreshedAt,
    hfirst.ttl.trans hsecond.ttl⟩

theorem Alike.update (halike : c.Alike c') (k : SocketKey) (e : Entry α) (now : Nat) :
    (c.update k e now).Alike (c'.update k e now) :=
  ⟨halike.entries.insert k e, rfl, halike.ttl⟩

theorem Alike.record (halike : c.Alike c') (now : Nat)
    (writes : List (SocketKey × Entry α)) :
    (c.record now writes).Alike (c'.record now writes) := by
  induction writes generalizing c c' with
  | nil => exact halike
  | cons write rest ih => exact ih (halike.update write.1 write.2 now)

theorem update_comm (c : Cache α) {k k' : SocketKey} (hk : k ≠ k') (e e' : Entry α)
    (now : Nat) :
    ((c.update k e now).update k' e' now).Alike ((c.update k' e' now).update k e now) := by
  refine ⟨.of_forall_constGet?_eq fun key => ?_, rfl, rfl⟩
  simp only [Cache.update, Std.TreeMap.getElem?_insert, Std.LawfulEqCmp.compare_eq_iff_eq]
  by_cases hkey : k = key
  · have hkey' : k' ≠ key := fun h => hk (hkey.trans h.symm)
    simp [hkey, hkey']
  · simp [hkey]

/-- Measurements of different sockets may be entered in any order. -/
theorem record_perm {writes writes' : List (SocketKey × Entry α)}
    (hperm : writes.Perm writes') (hkeys : (writes.map Prod.fst).Nodup) (c : Cache α)
    (now : Nat) : (c.record now writes).Alike (c.record now writes') := by
  induction hperm generalizing c with
  | nil => exact .refl c
  | cons write _ ih =>
      obtain ⟨-, hrest⟩ := List.nodup_cons.mp hkeys
      exact ih hrest (c.update write.1 write.2 now)
  | swap first second rest =>
      obtain ⟨hfirst, -⟩ := List.nodup_cons.mp hkeys
      have hapart : second.1 ≠ first.1 := fun h => hfirst (h ▸ List.mem_cons_self)
      exact (c.update_comm hapart second.2 first.2 now).record now rest
  | trans hone _ ihone ihtwo =>
      exact (ihone hkeys c).trans (ihtwo ((hone.map Prod.fst).nodup_iff.mp hkeys) c)

variable [Scalar α]

theorem Alike.get (halike : c.Alike c') (k : SocketKey) : c.get k = c'.get k :=
  halike.entries.getD_eq

theorem Alike.invalidateIfExpired (halike : c.Alike c') (now : Nat) :
    (c.invalidateIfExpired now).Alike (c'.invalidateIfExpired now) := by
  have hexpired : c.isExpired now = c'.isExpired now := by
    rw [isExpired, isExpired, halike.refreshedAt, halike.ttl]
  unfold Cache.invalidateIfExpired
  rw [hexpired]
  split
  · exact ⟨halike.entries.map _, rfl, halike.ttl⟩
  · exact halike

/-- Alike caches show the same lines. -/
theorem Alike.snapshot (halike : c.Alike c') : c.snapshot = c'.snapshot := by
  rw [Cache.snapshot, Cache.snapshot, halike.entries.toList_eq]

end SocketRanking.Cache
