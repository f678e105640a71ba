import SocketRanking.Proofs.Cache.View

/-!
# The sockets that a cache knows

A cache knows the sockets that it was seeded with and those that were measured since.
Placements, sweeps and the background sweeper work on the entries that are there, and
neither enter a socket nor drop one.  The snapshot lists what the cache knows, sorted.
-/

namespace SocketRanking.Cache

variable {α : Type}

/-! ## What operations do to the known sockets -/

theorem mem_entries_update (c : Cache α) (k : SocketKey) (e : Entry α) (now : ℕ)
    (k' : SocketKey) : k' ∈ (c.update k e now).entries ↔ k' = k ∨ k' ∈ c.entries := by
  rw [update, Std.TreeMap.mem_insert, Std.LawfulEqCmp.compare_eq_iff_eq, eq_comm]

theorem mem_entries_record (c : Cache α) (now : ℕ) (writes : List (SocketKey × Entry α))
    (k : SocketKey) :
    k ∈ (c.record now writes).entries ↔ k ∈ writes.map Prod.fst ∨ k ∈ c.entries := by
  induction writes generalizing c with
  | nil => simp
  | cons write rest ih =>
      obtain ⟨k', e⟩ := write
      rw [record_cons, ih, mem_entries_update, List.map_cons, List.mem_cons, or_left_comm,
        or_assoc]

variable [Scalar α]

theorem mem_entries_seeded (ttl : ℕ) (keys : List SocketKey) (now : ℕ) (k : SocketKey) :
    k ∈ (seeded ttl keys now : Cache α).entries ↔ k ∈ keys := by
  suffices hinsert : ∀ map : Std.TreeMap SocketKey (Entry α),
      k ∈ keys.foldl (fun map k => map.insert k .unknown) map ↔ k ∈ keys ∨ k ∈ map by
    have hempty : k ∉ (∅ : Std.TreeMap SocketKey (Entry α)) := Std.TreeMap.not_mem_emptyc
    exact (hinsert ∅).trans (or_iff_left hempty)
  induction keys with
  | nil => simp
  | cons first rest ih =>
      intro map
      rw [List.foldl_cons, ih, Std.TreeMap.mem_insert, Std.LawfulEqCmp.compare_eq_iff_eq,
        List.mem_cons]
      constructor
      · rintro (hrest | rfl | hmap)
        · exact Or.inl (Or.inr hrest)
        · exact Or.inl (Or.inl rfl)
        · exact Or.inr hmap
      · rintro ((rfl | hrest) | hmap)
        · exact Or.inr (Or.inl rfl)
        · exact Or.inl hrest
        · exact Or.inr (Or.inr hmap)

theorem mem_entries_place (c : Cache α) (k : SocketKey) (profile : AppProfile α) (cores : ℕ)
    (countsTowardIdle : Bool) (k' : SocketKey) :
    k' ∈ (c.place k profile cores countsTowardIdle).entries ↔ k' ∈ c.entries :=
  Std.TreeMap.mem_modify

theorem mem_entries_clean (c : Cache α) (k : SocketKey) :
    k ∈ c.clean.entries ↔ k ∈ c.entries :=
  Std.TreeMap.mem_map

theorem mem_entries_invalidateIfExpired (c : Cache α) (now : ℕ) (k : SocketKey) :
    k ∈ (c.invalidateIfExpired now).entries ↔ k ∈ c.entries := by
  unfold invalidateIfExpired
  split
  · exact mem_entries_clean c k
  · exact Iff.rfl

theorem mem_entries_sweepUntil (c : Cache α) (now stop count : ℕ) (k : SocketKey) :
    k ∈ (c.sweepUntil now stop count).1.entries ↔ k ∈ c.entries := by
  fun_induction sweepUntil c now stop count with
  | case1 c now count hwake hholds ih => exact ih.trans (mem_entries_clean c k)
  | case2 c now count hwake hholds => exact mem_entries_clean c k
  | case3 c now count hwake => exact Iff.rfl

/-! ## The snapshot -/

theorem compare_eq_lt_iff {a b : SocketKey} :
    compare a b = .lt ↔ a.node < b.node ∨ a.node = b.node ∧ a.socket < b.socket := by
  change (compare a.node b.node).then (compare a.socket b.socket) = .lt ↔ _
  have hnode : compare a.node b.node = .lt ↔ a.node < b.node := compareOfLessAndEq_eq_lt
  rw [Ordering.then_eq_lt, hnode, Std.compare_eq_lt, Std.LawfulEqCmp.compare_eq_iff_eq]

theorem map_key_snapshot (c : Cache α) : c.snapshot.map (·.key) = c.entries.keys := by
  rw [snapshot, List.map_map, ← Std.TreeMap.map_fst_toList_eq_keys]
  rfl

/-- A cache that knows just the sockets of a sorted list has this list for its snapshot. -/
theorem map_key_snapshot_eq {c : Cache α} {keys : List SocketKey}
    (hsorted : keys.Pairwise fun a b => compare a b = .lt)
    (hkeys : ∀ k, k ∈ c.entries ↔ k ∈ keys) : c.snapshot.map (·.key) = keys := by
  rw [map_key_snapshot]
  have hordered : c.entries.keys.Pairwise fun a b => compare a b = .lt :=
    Std.TreeMap.ordered_keys
  have hapart : ∀ a b : SocketKey, compare a b = .lt → a ≠ b := by
    rintro a b hlt rfl
    have hself : compare a a = .eq := Std.ReflCmp.compare_self
    cases hself.symm.trans hlt
  have hperm : c.entries.keys.Perm keys := by
    rw [List.perm_ext_iff_of_nodup (hordered.imp (hapart _ _)) (hsorted.imp (hapart _ _))]
    intro k
    rw [Std.TreeMap.mem_keys, hkeys]
  refine hperm.eq_of_pairwise ?_ hordered hsorted
  intro a b _ _ hab hba
  exact absurd hba (Std.OrientedCmp.not_lt_of_lt hab)

end SocketRanking.Cache
