import SocketRanking.Config.Layer
import SocketRanking.Proofs.Json.Decoding
import SocketRanking.Proofs.Text.LowerCase

/-!
# Keys as they are written

The keys of a configuration are turned into lower case when they are entered.  Here the entries
of one table of a layer are also put together with their keys as they are written, `written`,
and compared with the entries that the configuration has: its keys are the lower cases of the
written ones, and an entry whose key shares its lower case with no other is the written one.
-/

namespace SocketRanking

namespace Json

variable {β : Type} {key : String} {v : β} {entries : List (String × β)}

theorem lookup_cons_eq_ite (k : String) :
    ((key, v) :: entries).lookup k = if k = key then some v else entries.lookup k := by
  rw [List.lookup_cons]
  by_cases hk : k = key
  · simp [hk]
  · rw [if_neg hk, beq_false_of_ne hk]

theorem lookup_map_snd {γ : Type} (f : β → γ) (k : String) :
    (entries.map fun entry => (entry.1, f entry.2)).lookup k = (entries.lookup k).map f := by
  induction entries with
  | nil => rfl
  | cons first rest ih =>
      rw [List.map_cons, lookup_cons_eq_ite, lookup_cons_eq_ite, ih]
      split <;> rfl

theorem lookup_insert (k : String) :
    (insert key v entries).lookup k = if k = key then some v else entries.lookup k := by
  induction entries with
  | nil => exact lookup_cons_eq_ite k
  | cons first rest ih =>
      obtain ⟨k', v'⟩ := first
      rw [insert]
      split
      next => exact lookup_cons_eq_ite k
      next heq =>
        obtain rfl := Std.LawfulEqCmp.eq_of_compare heq
        rw [lookup_cons_eq_ite, lookup_cons_eq_ite]
        by_cases hk : k = key <;> simp [hk]
      next hgt =>
        have hne : key ≠ k' := by
          rintro rfl
          cases Std.ReflCmp.compare_self.symm.trans hgt
        rw [lookup_cons_eq_ite, lookup_cons_eq_ite, ih]
        by_cases hk : k = key
        · simp [hk, hne]
        · simp [hk]

theorem isSome_lookup_iff {k : String} :
    (entries.lookup k).isSome = true ↔ k ∈ entries.map Prod.fst := by
  induction entries with
  | nil => simp
  | cons first rest ih =>
      rw [lookup_cons_eq_ite, List.map_cons, List.mem_cons]
      by_cases hk : k = first.1 <;> simp [hk, ih]

theorem mem_of_mem_insert {entry : String × β} (hentry : entry ∈ insert key v entries) :
    entry = (key, v) ∨ entry ∈ entries := by
  induction entries with
  | nil => exact Or.inl (List.mem_singleton.mp hentry)
  | cons first rest ih =>
      rw [insert] at hentry
      split at hentry
      next => exact List.mem_cons.mp hentry
      next => exact (List.mem_cons.mp hentry).imp_right (List.mem_cons_of_mem _)
      next =>
        rcases List.mem_cons.mp hentry with rfl | hlater
        · exact Or.inr List.mem_cons_self
        · exact (ih hlater).imp_right (List.mem_cons_of_mem _)

theorem keysAscend_insert (hentries : KeysAscend entries) : KeysAscend (insert key v entries) := by
  induction entries with
  | nil => exact List.pairwise_singleton _ _
  | cons first rest ih =>
      obtain ⟨k', v'⟩ := first
      obtain ⟨hfirst, hrest⟩ := List.pairwise_cons.mp hentries
      rw [insert]
      split
      next hlt =>
        have hbefore : key < k' := compareOfLessAndEq_eq_lt.mp hlt
        refine List.pairwise_cons.mpr ⟨List.forall_mem_cons.mpr ⟨hbefore, ?_⟩, hentries⟩
        exact fun entry hentry => hbefore.trans (hfirst entry hentry)
      next heq =>
        obtain rfl := Std.LawfulEqCmp.eq_of_compare heq
        exact List.pairwise_cons.mpr ⟨hfirst, hrest⟩
      next hgt =>
        have hcompare : compare k' key = .lt := Std.OrientedCmp.lt_of_gt hgt
        have hafter : k' < key := compareOfLessAndEq_eq_lt.mp hcompare
        refine List.pairwise_cons.mpr ⟨fun entry hentry => ?_, ih hrest⟩
        rcases mem_of_mem_insert hentry with rfl | hold
        · exact hafter
        · exact hfirst entry hold

end Json

namespace Config

namespace Table

/-- The table with a new value under a key, made of the one that was there. -/
def change (key : String) (make : Option Value → Value) (entries : Table) : Table :=
  Json.insert key (make (entries.lookup key)) entries

theorem lookup_change (key k : String) (make : Option Value → Value) (entries : Table) :
    (change key make entries).lookup k =
      if k = key then some (make (entries.lookup key)) else entries.lookup k :=
  Json.lookup_insert k

end Table

/-- What entering a value under a key makes of the value that was there. -/
def merging (v : Value) (old : Option Value) : Value :=
  (old.getD (.table [])).combine v

/-- What entering a value at the end of a path makes of the value at its beginning. -/
def deepening (steps : List Step) (v : Value) (old : Option Value) : Value :=
  Path.update (·.combine v) (Path.lowerSteps steps) (old.getD .null)

namespace Value

/-- The entries of the table with this name. -/
def entriesAt (name : String) (root : Value) : Table :=
  ((root.entries.lookup name).getD (.table [])).entries

theorem enter_eq (name : String) (root v : Value) :
    enter name root v = table (Table.change (Text.lowercase name) (merging v) root.entries) := by
  cases v <;> rfl

theorem entries_enterAll (target : Value) (incoming : Table) :
    (enterAll target incoming).entries =
      incoming.foldl (fun entries (k, v) => Table.change (Text.lowercase k) (merging v) entries)
        target.entries := by
  induction incoming generalizing target with
  | nil => rw [enterAll, List.foldl_nil]
  | cons first rest ih =>
      obtain ⟨k, v⟩ := first
      rw [enterAll, ih, enter_eq, List.foldl_cons, entries]

end Value

/-! ## The written entries -/

namespace Layer

/-- What entering a value at a path does to the entries of the table `name` whose keys stay as
they are written: it enters a table, or one entry at the end of a longer path, or it puts
something else in the place of the table. -/
def writeAt (name : String) (path : Path) (v : Value) (entries : Table) : Table :=
  if Text.lowercase path.root = name then
    match path.steps, v with
    | [], .table incoming =>
      incoming.foldl (fun entries (k, v) => Table.change k (merging v) entries) entries
    | [], _ => []
    | .child k :: steps, v => Table.change k (deepening steps v) entries
    | .position _ :: _, _ => []
  else entries

/-- The entries of the table `name` that a layer has, with their keys as they are written. -/
def written (name : String) (layer : Layer) : Table :=
  layer.foldl (fun entries (key, v) => writeAt name (Path.ofKey key) v entries) []

end Layer

/-- Entries as they are written beside those with the lower cases of their keys. -/
structure IsFolded (written folded : Table) : Prop where
  keysAscend : KeysAscend folded
  isSome_iff : ∀ k, (folded.lookup k).isSome = true ↔
    ∃ w, (written.lookup w).isSome = true ∧ Text.lowercase w = k
  lookup_eq : ∀ w, (∀ w', (written.lookup w').isSome = true →
    Text.lowercase w' = Text.lowercase w → w' = w) →
    folded.lookup (Text.lowercase w) = written.lookup w

namespace IsFolded

theorem nil : IsFolded [] [] where
  keysAscend := List.Pairwise.nil
  isSome_iff k := by simp
  lookup_eq w _ := rfl

variable {written folded : Table}

theorem change (hfolded : IsFolded written folded) (w : String) (make : Option Value → Value) :
    IsFolded (Table.change w make written) (Table.change (Text.lowercase w) make folded) where
  keysAscend := Json.keysAscend_insert hfolded.keysAscend
  isSome_iff k := by
    rw [Table.lookup_change]
    constructor
    · intro hk
      split at hk
      next heq => exact ⟨w, by rw [Table.lookup_change, if_pos rfl]; rfl, heq.symm⟩
      next =>
        obtain ⟨w', hw', rfl⟩ := (hfolded.isSome_iff k).mp hk
        refine ⟨w', ?_, rfl⟩
        rw [Table.lookup_change]
        split
        · rfl
        · exact hw'
    · rintro ⟨w', hw', rfl⟩
      split
      next => rfl
      next hne =>
        rw [Table.lookup_change, if_neg fun heq => hne (congrArg _ heq)] at hw'
        exact (hfolded.isSome_iff _).mpr ⟨w', hw', rfl⟩
  lookup_eq w' hapart := by
    -- what is apart from the keys after the change was apart from those before
    have hbefore : ∀ u, (written.lookup u).isSome = true →
        Text.lowercase u = Text.lowercase w' → u = w' := by
      intro u hu
      refine hapart u ?_
      rw [Table.lookup_change]
      split
      · rfl
      · exact hu
    rw [Table.lookup_change, Table.lookup_change]
    by_cases hlower : Text.lowercase w' = Text.lowercase w
    · have hw : w = w' := hapart w (by rw [Table.lookup_change, if_pos rfl]; rfl) hlower.symm
      rw [if_pos hlower, if_pos hw.symm, ← hlower, hfolded.lookup_eq w' hbefore, hw]
    · rw [if_neg hlower, if_neg fun heq => hlower (congrArg _ heq), hfolded.lookup_eq w' hbefore]

theorem changeAll (hfolded : IsFolded written folded) (incoming : Table) :
    IsFolded
      (incoming.foldl (fun entries (k, v) => Table.change k (merging v) entries) written)
      (incoming.foldl (fun entries (k, v) => Table.change (Text.lowercase k) (merging v) entries)
        folded) := by
  induction incoming generalizing written folded with
  | nil => exact hfolded
  | cons first rest ih => exact ih (hfolded.change first.1 (merging first.2))

end IsFolded

/-! ## The configuration of a layer -/

namespace Value

theorem entriesAt_table_change (name key : String) (make : Option Value → Value) (t : Table) :
    (table (Table.change key make t)).entriesAt name =
      if name = key then (make (t.lookup key)).entries else (table t).entriesAt name := by
  rw [entriesAt, entriesAt, entries, entries, Table.lookup_change]
  split <;> rfl

theorem entries_getD_null (old : Option Value) :
    (old.getD .null).entries = (old.getD (.table [])).entries := by
  cases old <;> rfl

theorem entries_merging_table (incoming : Table) (old : Option Value) :
    (merging (.table incoming) old).entries =
      incoming.foldl (fun entries (k, v) => Table.change (Text.lowercase k) (merging v) entries)
        (old.getD (.table [])).entries :=
  entries_enterAll _ incoming

theorem entries_deepening_child (k : String) (steps : List Step) (v : Value)
    (old : Option Value) :
    (deepening (.child k :: steps) v old).entries =
      Table.change (Text.lowercase k) (deepening steps v) (old.getD (.table [])).entries := by
  rw [← entries_getD_null]
  rfl

end Value

namespace Path

theorem set_eq_table (p : Path) (v : Value) (t : Table) :
    p.set v (.table t) = .table (Table.change (Text.lowercase p.root)
      (if p.steps = [] then merging v else deepening p.steps v) t) := by
  obtain ⟨root, steps⟩ := p
  rw [set]
  cases steps with
  | nil => exact Value.enter_eq root (.table t) v
  | cons step rest => rfl

end Path

namespace Layer

/-- A value that is entered does the same to the entries of a table with and without their keys
as they are written. -/
theorem isFolded_writeAt {name : String} {entries t : Table}
    (hfolded : IsFolded entries ((Value.table t).entriesAt name)) (path : Path) (v : Value) :
    IsFolded (writeAt name path v entries) ((path.set v (.table t)).entriesAt name) := by
  rw [Path.set_eq_table, Value.entriesAt_table_change]
  obtain ⟨root, steps⟩ := path
  unfold writeAt
  dsimp only
  by_cases hname : Text.lowercase root = name
  · rw [if_pos hname, if_pos hname.symm, hname]
    cases steps with
    | nil =>
        rw [if_pos rfl]
        cases v with
        | table incoming =>
            rw [Value.entries_merging_table]
            exact hfolded.changeAll incoming
        | _ => exact IsFolded.nil
    | cons step rest =>
        rw [if_neg (List.cons_ne_nil step rest)]
        cases step with
        | child k =>
            rw [Value.entries_deepening_child]
            exact hfolded.change k (deepening rest v)
        | position index => exact IsFolded.nil
  · rw [if_neg hname, if_neg (Ne.symm hname)]
    exact hfolded

theorem isFolded_enterInto {name : String} {entries : Table} (layer : Layer) {t : Table}
    (hfolded : IsFolded entries ((Value.table t).entriesAt name)) :
    ∃ t', layer.enterInto (.table t) = .table t' ∧
      IsFolded
        (layer.foldl (fun entries (key, v) => writeAt name (Path.ofKey key) v entries) entries)
        ((Value.table t').entriesAt name) := by
  induction layer generalizing entries t with
  | nil => exact ⟨t, rfl, hfolded⟩
  | cons first rest ih =>
      obtain ⟨key, v⟩ := first
      have hentered := isFolded_writeAt hfolded (Path.ofKey key) v
      rw [Path.set_eq_table] at hentered
      obtain ⟨t', htable, hlater⟩ := ih hentered
      refine ⟨t', ?_, hlater⟩
      rw [← htable, ← Path.set_eq_table]
      rfl

/-- The entries of a table of the configuration are those that its layer has, with their keys in
lower case. -/
theorem isFolded_build (name : String) (layer : Layer) :
    ∃ t, build [layer] = .table t ∧
      IsFolded (layer.written name) ((Value.table t).entriesAt name) :=
  isFolded_enterInto layer IsFolded.nil

end Layer

end Config

end SocketRanking
