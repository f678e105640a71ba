import Mathlib.Data.List.DropRight
import SocketRanking.Proofs.Cache.Keys

/-!
# The history behind a cache

`Logged` is a cache with its clock and the record of all that was done to it.  What the
cache holds can be read off this record: the entry of a socket is what the placements
there have made of its last measurement, if nothing made the cache unknown since; the
timer runs from the latest measurement or sweep; and the snapshot lists the sockets
that were seeded or measured.  Nothing else that is done to a cache, not even to another
socket, has a part in this.
-/

namespace SocketRanking.Cache

variable {α : Type}

/-- What can be done to a cache. Time passes between operations. -/
inductive Operation (α : Type) where
  | update (k : SocketKey) (p : Performance α) (idle : α)
  | place (k : SocketKey) (profile : AppProfile α) (cores : ℕ) (countsTowardIdle : Bool)
  | clean
  | invalidateIfExpired
  | get (k : SocketKey)
  | snapshot
  | advance (millis : ℕ)
  deriving DecidableEq

/-- What an operation answers. -/
inductive Reply (α : Type) where
  | done
  /-- Whether the socket of a placement has an entry. -/
  | placed (found : Bool)
  /-- Whether the cache was swept. -/
  | swept (happened : Bool)
  | entry (e : Entry α) (fresh : Bool)
  | rows (lines : List (CachedSocket α))
  deriving DecidableEq

/-- An operation that was carried out, with its time and its answer. -/
structure Access (α : Type) where
  time : ℕ
  operation : Operation α
  reply : Reply α
  deriving DecidableEq

/-- A cache, its clock, and what was done to it so far. -/
structure Logged (α : Type) where
  cache : Cache α
  now : ℕ
  log : List (Access α)

/-! ## Reading a history -/

namespace Access

/-- Whether the cache was made unknown. -/
def resets (a : Access α) : Bool :=
  match a.operation, a.reply with
  | .clean, _ => true
  | .invalidateIfExpired, .swept happened => happened
  | _, _ => false

/-- Whether the timer was restarted. -/
def refreshes (a : Access α) : Bool :=
  match a.operation, a.reply with
  | .update .., _ => true
  | .invalidateIfExpired, .swept happened => happened
  | _, _ => false

/-- Whether the socket was measured. -/
def measures (k : SocketKey) (a : Access α) : Bool :=
  match a.operation with
  | .update k' .. => k' = k
  | _ => false

/-- Whether the entry of the socket may have changed: the cache was made unknown, or the
socket was measured, or a workload was placed there. -/
def concerns (k : SocketKey) (a : Access α) : Bool :=
  match a.operation with
  | .update k' .. => k' = k
  | .place k' .. => k' = k
  | _ => a.resets

end Access

/-- What was done since the cache was last made unknown. -/
def sinceReset (log : List (Access α)) : List (Access α) :=
  log.rtakeWhile fun a => !a.resets

/-- When the timer was last restarted, for a cache that was made at a time. -/
def latestRefresh (created : ℕ) (log : List (Access α)) : ℕ :=
  (log.filter Access.refreshes).foldl (fun latest a => max latest a.time) created

variable [Scalar α]

/-- An entry after a placement.  Known traffic grows by that of the profile, and a known idle
fraction drops, if the workload counts, by the share of the cores that it keeps busy, down to
a floor; what holds minus one is not known, and stays. -/
def placed (e : Entry α) (profile : AppProfile α) (cores : ℕ) (countsTowardIdle : Bool) :
    Entry α :=
  let busy : α := (100.0 - profile.c6res) / (100.0 * Scalar.ofCount (max cores 1))
  { ipc := e.ipc
    memRead := if e.memRead == -1.0 then e.memRead else e.memRead + profile.memRead
    memWrite := if e.memWrite == -1.0 then e.memWrite else e.memWrite + profile.memWrite
    c6res :=
      if countsTowardIdle && !(e.c6res == -1.0) then
        if 1e-8 < e.c6res - busy then e.c6res - busy else 1e-8
      else e.c6res }

/-- Folds a placement on the socket into its entry. -/
def Access.placeOn (k : SocketKey) (e : Entry α) (a : Access α) : Entry α :=
  match a.operation with
  | .place k' profile cores countsTowardIdle =>
    if k' = k then placed e profile cores countsTowardIdle else e
  | _ => e

namespace Logged

/-- A new cache, of which nothing is recorded yet. -/
def start (ttl : ℕ) (keys : List SocketKey) (created : ℕ) : Logged α :=
  { cache := .seeded ttl keys created, now := created, log := [] }

/-- What an operation answers now. -/
def reply (l : Logged α) : Operation α → Reply α
  | .place k .. => .placed (l.cache.contains k)
  | .invalidateIfExpired => .swept (l.cache.isExpired l.now)
  | .get k => .entry (l.cache.get k) (l.cache.get k).isFresh
  | .snapshot => .rows l.cache.snapshot
  | .update .. | .clean | .advance _ => .done

/-- What an operation makes of the cache. -/
def cacheAfter (l : Logged α) : Operation α → Cache α
  | .update k p idle => l.cache.update k (.measured p idle) l.now
  | .place k profile cores countsTowardIdle => l.cache.place k profile cores countsTowardIdle
  | .clean => l.cache.clean
  | .invalidateIfExpired => l.cache.invalidateIfExpired l.now
  | .get _ | .snapshot | .advance _ => l.cache

/-- What an operation makes of the clock. -/
def nowAfter (l : Logged α) : Operation α → ℕ
  | .advance millis => l.now + millis
  | _ => l.now

/-- Carries an operation out and records it. -/
def perform (l : Logged α) (op : Operation α) : Logged α :=
  { cache := l.cacheAfter op
    now := l.nowAfter op
    log := l.log ++ [{ time := l.now, operation := op, reply := l.reply op }] }

/-- Carries operations out one after the other. -/
def run (l : Logged α) (ops : List (Operation α)) : Logged α :=
  ops.foldl perform l

end Logged

/-! ## The entry of a socket -/

theorem raise_eq (x amount : α) :
    Entry.raise x amount = if x == -1.0 then x else x + amount := by
  unfold Entry.raise Entry.isKnown Entry.sentinel
  cases x == -1.0 <;> rfl

theorem place_eq_placed (e : Entry α) (profile : AppProfile α) (cores : ℕ)
    (countsTowardIdle : Bool) :
    e.place profile cores countsTowardIdle = placed e profile cores countsTowardIdle := by
  rw [Entry.place, raise_eq, raise_eq]
  rfl

namespace Access

/-- What became of the entry of a socket. -/
def actOn (k : SocketKey) (e : Entry α) (a : Access α) : Entry α :=
  if a.resets then .unknown
  else
    match a.operation with
    | .update k' p idle => if k' = k then ⟨p.ipc, p.memRead, p.memWrite, idle⟩ else e
    | _ => a.placeOn k e

/-- What an operation that concerns a socket makes of its entry. -/
def effect (e : Entry α) : Operation α → Entry α
  | .update _ p idle => ⟨p.ipc, p.memRead, p.memWrite, idle⟩
  | .place _ profile cores countsTowardIdle => placed e profile cores countsTowardIdle
  | _ => .unknown

variable {k : SocketKey} {e : Entry α} {a : Access α}

theorem actOn_of_resets (hresets : a.resets = true) : a.actOn k e = .unknown :=
  if_pos hresets

theorem actOn_of_not_measures (hresets : a.resets = false) (hmeasures : a.measures k = false) :
    a.actOn k e = a.placeOn k e := by
  rw [actOn, hresets, if_neg Bool.false_ne_true]
  split
  next k' p idle hop =>
    rw [measures, hop] at hmeasures
    rw [placeOn, hop, if_neg (of_decide_eq_false hmeasures)]
  next => rfl

theorem actOn_of_not_concerns (hconcerns : a.concerns k = false) : a.actOn k e = e := by
  obtain ⟨t, op, r⟩ := a
  cases op with
  | update k' p idle => exact if_neg (of_decide_eq_false hconcerns)
  | place k' profile cores countsTowardIdle => exact if_neg (of_decide_eq_false hconcerns)
  | clean => cases hconcerns
  | invalidateIfExpired =>
      have hresets : Access.resets ⟨t, .invalidateIfExpired, r⟩ = false := hconcerns
      rw [actOn, hresets]
      rfl
  | get k' | snapshot | advance millis => rfl

theorem actOn_of_concerns (hconcerns : a.concerns k = true) :
    a.actOn k e = effect e a.operation := by
  obtain ⟨t, op, r⟩ := a
  cases op with
  | update k' p idle => exact if_pos (of_decide_eq_true hconcerns)
  | place k' profile cores countsTowardIdle => exact if_pos (of_decide_eq_true hconcerns)
  | clean => rfl
  | invalidateIfExpired => exact actOn_of_resets hconcerns
  | get k' | snapshot | advance millis => cases hconcerns

end Access

/-- The entry of a socket that a history leaves. -/
def entryAfter (k : SocketKey) (log : List (Access α)) : Entry α :=
  log.foldl (Access.actOn k) .unknown

theorem entryAfter_concat (k : SocketKey) (log : List (Access α)) (a : Access α) :
    entryAfter k (log ++ [a]) = a.actOn k (entryAfter k log) := by
  rw [entryAfter, List.foldl_concat]
  rfl

omit [Scalar α] in
theorem resets_of_mem_sinceReset {log : List (Access α)} {a : Access α}
    (ha : a ∈ sinceReset log) : a.resets = false := by
  have hkept := List.mem_rtakeWhile_imp ha
  rwa [Bool.not_eq_true'] at hkept

/-- What was done before the cache was last made unknown has no part in its entries. -/
theorem entryAfter_sinceReset (k : SocketKey) (log : List (Access α)) :
    entryAfter k (sinceReset log) = entryAfter k log := by
  -- from the end of the record, where a reset cuts all that came before it
  induction log using List.reverseRecOn with
  | nil => rfl
  | append_singleton log a ih =>
      rw [entryAfter_concat, sinceReset]
      cases hresets : a.resets with
      | true =>
          rw [List.rtakeWhile_concat_neg _ _ _ (by simp [hresets]),
            Access.actOn_of_resets hresets]
          rfl
      | false =>
          rw [List.rtakeWhile_concat_pos _ _ _ (by simp [hresets]), entryAfter_concat]
          exact congrArg (a.actOn k) ih

/-- Between resets and measurements only placements on the socket count. -/
theorem foldl_actOn_of_not_measures {k : SocketKey} {log : List (Access α)}
    (hresets : ∀ a ∈ log, a.resets = false) (hmeasures : ∀ a ∈ log, a.measures k = false)
    (e : Entry α) : log.foldl (Access.actOn k) e = log.foldl (Access.placeOn k) e := by
  induction log generalizing e with
  | nil => rfl
  | cons a rest ih =>
      obtain ⟨hreset, hresets⟩ := List.forall_mem_cons.mp hresets
      obtain ⟨hmeasure, hmeasures⟩ := List.forall_mem_cons.mp hmeasures
      rw [List.foldl_cons, List.foldl_cons, Access.actOn_of_not_measures hreset hmeasure]
      exact ih hresets hmeasures _

theorem foldl_placeOn_unknown [LawfulScalar α] (k : SocketKey) (log : List (Access α)) :
    log.foldl (Access.placeOn k) .unknown = .unknown := by
  induction log with
  | nil => rfl
  | cons a rest ih =>
      have hfirst : a.placeOn k .unknown = .unknown := by
        unfold Access.placeOn
        split
        · split
          · rw [← place_eq_placed, Entry.place_unknown]
          · rfl
        · rfl
      rw [List.foldl_cons, hfirst, ih]

theorem entryAfter_of_unmeasured [LawfulScalar α] {k : SocketKey} {log : List (Access α)}
    (hmeasures : ∀ a ∈ sinceReset log, a.measures k = false) :
    entryAfter k log = .unknown := by
  rw [← entryAfter_sinceReset, entryAfter,
    foldl_actOn_of_not_measures (fun _ => resets_of_mem_sinceReset) hmeasures]
  exact foldl_placeOn_unknown k _

theorem entryAfter_of_measured {k : SocketKey} {p : Performance α} {idle : α}
    {log before after : List (Access α)} {t : ℕ} {r : Reply α}
    (hlog : sinceReset log = before ++ ⟨t, .update k p idle, r⟩ :: after)
    (hmeasures : ∀ a ∈ after, a.measures k = false) :
    entryAfter k log =
      after.foldl (Access.placeOn k) ⟨p.ipc, p.memRead, p.memWrite, idle⟩ := by
  have hresets : ∀ a ∈ after, a.resets = false := by
    intro a ha
    have hmem : a ∈ sinceReset log := by
      rw [hlog]
      exact List.mem_append_right before (List.mem_cons_of_mem _ ha)
    exact resets_of_mem_sinceReset hmem
  have hmeasured : ∀ e, Access.actOn k e ⟨t, .update k p idle, r⟩ =
      ⟨p.ipc, p.memRead, p.memWrite, idle⟩ := fun _ => if_pos rfl
  rw [← entryAfter_sinceReset, hlog, entryAfter, List.foldl_append, List.foldl_cons, hmeasured,
    foldl_actOn_of_not_measures hresets hmeasures]

/-- Only what concerns a socket has a part in its entry. -/
theorem entryAfter_filter (k : SocketKey) (log : List (Access α)) :
    entryAfter k log =
      ((log.filter (·.concerns k)).map (·.operation)).foldl Access.effect .unknown := by
  induction log using List.reverseRecOn with
  | nil => rfl
  | append_singleton log a ih =>
      rw [entryAfter_concat, List.filter_append, List.map_append, List.foldl_append, ← ih]
      cases hconcerns : a.concerns k with
      | true =>
          rw [Access.actOn_of_concerns hconcerns, List.filter_singleton, hconcerns]
          rfl
      | false =>
          rw [Access.actOn_of_not_concerns hconcerns, List.filter_singleton, hconcerns]
          rfl

/-! ## The record explains the cache -/

namespace Logged

/-- What the record says of the cache: its entries, its timer and the sockets that it
holds. -/
structure IsExplained (ttl created : ℕ) (keys : List SocketKey) (l : Logged α) : Prop where
  entry : ∀ k, l.cache.get k = entryAfter k l.log
  refreshed : l.cache.refreshedAt = latestRefresh created l.log
  refreshed_le : l.cache.refreshedAt ≤ l.now
  ttl : l.cache.ttl = ttl
  keys : ∀ k, k ∈ l.cache.entries ↔ k ∈ keys ∨ ∃ a ∈ l.log, a.measures k = true

variable {ttl created : ℕ} {keys : List SocketKey} {l : Logged α}

theorem isExplained_start (ttl created : ℕ) (keys : List SocketKey) :
    IsExplained ttl created keys (start ttl keys created : Logged α) where
  entry := get_seeded ttl keys created
  refreshed := rfl
  refreshed_le := le_rfl
  ttl := rfl
  keys k := by
    rw [start, mem_entries_seeded]
    simp

theorem get_cacheAfter [LawfulScalar α] (l : Logged α) (op : Operation α) (k : SocketKey) :
    (l.cacheAfter op).get k = Access.actOn k (l.cache.get k) ⟨l.now, op, l.reply op⟩ := by
  cases op with
  | update k' p idle => exact get_update l.cache k' _ l.now k
  | place k' profile cores countsTowardIdle =>
      refine (get_place l.cache k' profile cores countsTowardIdle k).trans ?_
      rw [place_eq_placed]
      rfl
  | clean => exact get_clean l.cache k
  | invalidateIfExpired => exact get_invalidateIfExpired l.cache l.now k
  | get k' | snapshot | advance millis => rfl

theorem refreshedAt_invalidateIfExpired (c : Cache α) (now : ℕ) :
    (c.invalidateIfExpired now).refreshedAt =
      if c.isExpired now then now else c.refreshedAt := by
  unfold invalidateIfExpired
  split <;> rfl

theorem refreshedAt_cacheAfter (l : Logged α) (op : Operation α) :
    (l.cacheAfter op).refreshedAt =
      if Access.refreshes ⟨l.now, op, l.reply op⟩ then l.now else l.cache.refreshedAt := by
  cases op with
  | invalidateIfExpired => exact refreshedAt_invalidateIfExpired l.cache l.now
  | update k p idle | place k profile cores countsTowardIdle | clean | get k | snapshot
  | advance millis => rfl

theorem ttl_cacheAfter (l : Logged α) (op : Operation α) :
    (l.cacheAfter op).ttl = l.cache.ttl := by
  cases op with
  | invalidateIfExpired => exact ttl_invalidateIfExpired l.cache l.now
  | update k p idle | place k profile cores countsTowardIdle | clean | get k | snapshot
  | advance millis => rfl

theorem mem_entries_cacheAfter (l : Logged α) (op : Operation α) (k : SocketKey) :
    k ∈ (l.cacheAfter op).entries ↔
      k ∈ l.cache.entries ∨ Access.measures k ⟨l.now, op, l.reply op⟩ = true := by
  cases op with
  | update k' p idle =>
      change k ∈ (l.cache.update k' _ l.now).entries ↔ _ ∨ decide (k' = k) = true
      rw [mem_entries_update, decide_eq_true_iff, or_comm, eq_comm]
  | place k' profile cores countsTowardIdle =>
      exact (mem_entries_place ..).trans (or_iff_left Bool.false_ne_true).symm
  | clean => exact (mem_entries_clean ..).trans (or_iff_left Bool.false_ne_true).symm
  | invalidateIfExpired =>
      exact (mem_entries_invalidateIfExpired ..).trans (or_iff_left Bool.false_ne_true).symm
  | get k' | snapshot | advance millis => exact (or_iff_left Bool.false_ne_true).symm

omit [Scalar α] in
theorem latestRefresh_concat (created : ℕ) (log : List (Access α)) (a : Access α) :
    latestRefresh created (log ++ [a]) =
      if a.refreshes then max (latestRefresh created log) a.time
      else latestRefresh created log := by
  rw [latestRefresh, List.filter_append, List.filter_singleton]
  cases a.refreshes with
  | true => exact List.foldl_concat _ _ _ _
  | false =>
      rw [cond_false, List.append_nil]
      rfl

/-- Every operation keeps the record explaining the cache. -/
theorem IsExplained.perform [LawfulScalar α] (hl : l.IsExplained ttl created keys)
    (op : Operation α) : (l.perform op).IsExplained ttl created keys := by
  have hclock : l.now ≤ l.nowAfter op := by
    unfold nowAfter
    split
    · exact Nat.le_add_right _ _
    · exact le_rfl
  constructor
  · intro k
    change (l.cacheAfter op).get k = entryAfter k (l.log ++ [_])
    rw [get_cacheAfter, entryAfter_concat, hl.entry]
  · change (l.cacheAfter op).refreshedAt = latestRefresh created (l.log ++ [_])
    rw [refreshedAt_cacheAfter, latestRefresh_concat, ← hl.refreshed,
      max_eq_right hl.refreshed_le]
  · change (l.cacheAfter op).refreshedAt ≤ l.nowAfter op
    rw [refreshedAt_cacheAfter]
    split
    · exact hclock
    · exact hl.refreshed_le.trans hclock
  · exact (ttl_cacheAfter l op).trans hl.ttl
  · intro k
    change k ∈ (l.cacheAfter op).entries ↔ k ∈ keys ∨ ∃ a ∈ l.log ++ [_], a.measures k = true
    rw [mem_entries_cacheAfter, hl.keys, or_assoc]
    simp only [List.mem_append, List.mem_singleton, or_and_right, exists_or, exists_eq_left]

theorem IsExplained.run [LawfulScalar α] (hl : l.IsExplained ttl created keys)
    (ops : List (Operation α)) : (l.run ops).IsExplained ttl created keys := by
  induction ops generalizing l with
  | nil => exact hl
  | cons op rest ih => exact ih (hl.perform op)

theorem isExplained_run [LawfulScalar α] (ttl created : ℕ) (keys : List SocketKey)
    (ops : List (Operation α)) :
    ((start ttl keys created).run ops).IsExplained ttl created keys :=
  (isExplained_start ttl created keys).run ops

theorem operations_run (l : Logged α) (ops : List (Operation α)) :
    (l.run ops).log.map (·.operation) = l.log.map (·.operation) ++ ops := by
  induction ops generalizing l with
  | nil => exact (List.append_nil _).symm
  | cons op rest ih =>
      have hfirst : (l.perform op).log.map (·.operation) = l.log.map (·.operation) ++ [op] :=
        List.map_append
      exact (ih (l.perform op)).trans (by rw [hfirst, List.append_assoc]; rfl)

end Logged

/-! ## The snapshot -/

theorem of_mem_snapshot {c : Cache α} {row : CachedSocket α} (hrow : row ∈ c.snapshot) :
    row.entry = c.get row.key ∧ row.fresh = (c.get row.key).isFresh := by
  obtain ⟨⟨k, e⟩, hmem, rfl⟩ := List.mem_map.mp hrow
  have hentry : c.entries[k]? = some e := Std.TreeMap.mem_toList_iff_getElem?_eq_some.mp hmem
  have hget : c.get k = e := by
    rw [get, Std.TreeMap.getD_eq_getD_getElem?, hentry]
    rfl
  rw [hget]
  exact ⟨rfl, rfl⟩

theorem isFresh_eq (e : Entry α) :
    e.isFresh =
      !(e.ipc == -1.0 || e.memRead == -1.0 || e.memWrite == -1.0 || e.c6res == -1.0) := by
  simp only [Entry.isFresh, Entry.isKnown, Entry.sentinel, Bool.not_or]

namespace Logged

/-- Whatever is done to a new cache, the entry of a socket is unknown if the socket was not
measured since the cache was last made unknown, and else what the later placements there
made of the last measurement; nothing that concerns other sockets has a part in it.  The
timer has run out when the latest measurement or sweep, or the making of the cache, is as
long ago as the cache holds.  The snapshot lists the sockets that were seeded or measured,
each once and in order, with the entries that readers get. -/
theorem run_refines_history [LawfulScalar α] (ttl created : ℕ) (keys : List SocketKey)
    (ops : List (Operation α)) :
    let l := (start ttl keys created).run ops
    l.log.map (·.operation) = ops ∧
    (∀ k, (∀ a ∈ sinceReset l.log, a.measures k = false) →
      l.reply (.get k) = .entry ⟨-1.0, -1.0, -1.0, -1.0⟩ false) ∧
    (∀ k p idle before after time reply,
      sinceReset l.log = before ++ ⟨time, .update k p idle, reply⟩ :: after →
      (∀ a ∈ after, a.measures k = false) →
      let e : Entry α := after.foldl (Access.placeOn k) ⟨p.ipc, p.memRead, p.memWrite, idle⟩
      l.reply (.get k) = .entry e
        (!(e.ipc == -1.0 || e.memRead == -1.0 || e.memWrite == -1.0 || e.c6res == -1.0))) ∧
    (∀ (k : SocketKey) (ttl' created' : ℕ) (keys' : List SocketKey) (ops' : List (Operation α)),
      let l' := (start ttl' keys' created').run ops'
      (l.log.filter (·.concerns k)).map (·.operation) =
        (l'.log.filter (·.concerns k)).map (·.operation) →
      l.reply (.get k) = l'.reply (.get k)) ∧
    l.reply .invalidateIfExpired =
      .swept (decide (ttl ≤ l.now - latestRefresh created l.log)) ∧
    ∃ rows, l.reply .snapshot = .rows rows ∧
      (rows.map (·.key)).Pairwise
        (fun a b => a.node < b.node ∨ a.node = b.node ∧ a.socket < b.socket) ∧
      (∀ k, k ∈ rows.map (·.key) ↔ k ∈ keys ∨ ∃ a ∈ l.log, a.measures k = true) ∧
      ∀ row ∈ rows, l.reply (.get row.key) = .entry row.entry row.fresh := by
  intro l
  have hl : l.IsExplained ttl created keys := isExplained_run ttl created keys ops
  refine ⟨operations_run _ ops, ?_, ?_, ?_, ?_, l.cache.snapshot, rfl, ?_, ?_, ?_⟩
  · intro k hmeasures
    have hunknown : (Entry.unknown : Entry α).isFresh = false := by
      simp [Entry.isFresh, Entry.unknown]
    rw [reply, hl.entry, entryAfter_of_unmeasured hmeasures, hunknown]
    rfl
  · intro k p idle before after time r hlog hmeasures
    rw [reply, hl.entry, entryAfter_of_measured hlog hmeasures, isFresh_eq]
  · intro k ttl' created' keys' ops' l' hsame
    have hl' : l'.IsExplained ttl' created' keys' := isExplained_run ttl' created' keys' ops'
    rw [reply, reply, hl.entry, hl'.entry, entryAfter_filter, hsame, ← entryAfter_filter]
  · rw [reply, isExpired, hl.ttl, hl.refreshed]
  · rw [map_key_snapshot]
    exact Std.TreeMap.ordered_keys.imp compare_eq_lt_iff.mp
  · intro k
    rw [map_key_snapshot, Std.TreeMap.mem_keys]
    exact hl.keys k
  · intro row hrow
    obtain ⟨hentry, hfresh⟩ := of_mem_snapshot hrow
    rw [reply, hentry, hfresh]

/-- A socket is measured, then another one, and a workload is placed on the first. -/
theorem run_refines_history_bench :
    let first : SocketKey := ⟨"bench", 0⟩
    let p : Performance Float := ⟨2, 1, 1⟩
    let profile : AppProfile Float := ⟨1.5225, 0.3221, 0.1532, 0.1215, 378⟩
    let l := (start 500 [first] 0).run
      [.update first ⟨1, 1, 1⟩ 0.5, .advance 500, .invalidateIfExpired, .update first p 0.5,
        .advance 400, .update ⟨"bench", 1⟩ p 0.5, .clean, .update first p 0.25, .advance 200,
        .place first profile 2 true]
    l.reply (.get first) = .entry ⟨2, 1 + 0.3221, 1 + 0.1532, 1e-8⟩ true ∧
      l.reply .invalidateIfExpired = .swept false := by
  intro first p profile l
  obtain ⟨-, -, hmeasured, -, hexpired, -⟩ := run_refines_history 500 0 [first]
    [.update first ⟨1, 1, 1⟩ 0.5, .advance 500, .invalidateIfExpired, .update first p 0.5,
      .advance 400, .update ⟨"bench", 1⟩ p 0.5, .clean, .update first p 0.25, .advance 200,
      .place first profile 2 true]
  constructor
  · have hplaced := hmeasured first p 0.25 [] [⟨900, .advance 200, .done⟩,
      ⟨1100, .place first profile 2 true, .placed true⟩] 900 .done (by decide +kernel)
      (by decide)
    exact hplaced.trans (by decide +kernel)
  · rw [hexpired]
    decide +kernel

end Logged

end SocketRanking.Cache
