import SocketRanking.Proofs.Scoring.Outcome
import SocketRanking.Proofs.Service.CacheFrame

/-!
# What holds of every entry along a run

Entries become unknown when the cache is swept, scoring writes what its visits have
learned, and placements are folded into entries.  So a property of entries that the
unknown entry has, that visits teach and that the placements of a run keep holds of
every entry along the run.  The property may depend on the socket whose entry it is;
`all_run` is the case in which it does not.
-/

namespace SocketRanking

variable {σ α : Type} [Scalar α] {P : Entry α → Prop} {Q : SocketKey → Entry α → Prop}

/-! ## The cache -/

namespace Cache

/-- Every entry has the property. -/
def All (c : Cache α) (P : Entry α → Prop) : Prop :=
  ∀ k, P (c.get k)

/-- Every entry has the property of its socket. -/
def AllAt (c : Cache α) (Q : SocketKey → Entry α → Prop) : Prop :=
  ∀ k, Q k (c.get k)

variable {c : Cache α}

theorem IsBlank.allAt (hblank : c.IsBlank) (hunknown : ∀ k, Q k .unknown) : c.AllAt Q := by
  intro k
  rw [hblank k]
  exact hunknown k

theorem IsBlank.all (hblank : c.IsBlank) (hunknown : P .unknown) : c.All P :=
  hblank.allAt fun _ => hunknown

theorem AllAt.update {k : SocketKey} {e : Entry α} (hall : c.AllAt Q) (he : Q k e)
    (now : Nat) : (c.update k e now).AllAt Q := by
  intro k'
  rw [get_update]
  split
  next hk => exact hk ▸ he
  next => exact hall k'

theorem AllAt.record {writes : List (SocketKey × Entry α)} (hall : c.AllAt Q)
    (hwrites : ∀ write ∈ writes, Q write.1 write.2) (now : Nat) :
    (c.record now writes).AllAt Q := by
  induction writes generalizing c with
  | nil => exact hall
  | cons write rest ih =>
      obtain ⟨hwrite, hrest⟩ := List.forall_mem_cons.mp hwrites
      exact ih (hall.update hwrite now) hrest

theorem AllAt.invalidateIfExpired (hall : c.AllAt Q) (hunknown : ∀ k, Q k .unknown)
    (now : Nat) : (c.invalidateIfExpired now).AllAt Q := by
  intro k
  rw [get_invalidateIfExpired]
  split
  · exact hunknown k
  · exact hall k

theorem All.invalidateIfExpired (hall : c.All P) (hunknown : P .unknown) (now : Nat) :
    (c.invalidateIfExpired now).All P :=
  AllAt.invalidateIfExpired hall (fun _ => hunknown) now

end Cache

/-! ## Steps -/

namespace Deployment

/-- With this content of the store, every entry that the visit of a socket writes has the
property. -/
def Teaches (d : Deployment σ α) (store : σ) (P : Entry α → Prop) : Prop :=
  ∀ (name : String) (n : Node), d.topology.requireNode name = .ok n →
    ∀ socket ∈ n.sockets, ∀ entry e : Entry α,
      (Visit.run d.settings (d.source store) n.uuid socket entry).learned = some e → P e

/-- With this content of the store, every entry that the visit of a socket writes has the
property of the socket. -/
def TeachesAt (d : Deployment σ α) (store : σ) (Q : SocketKey → Entry α → Prop) : Prop :=
  ∀ (name : String) (n : Node), d.topology.requireNode name = .ok n →
    ∀ socket ∈ n.sockets, ∀ entry e : Entry α,
      (Visit.run d.settings (d.source store) n.uuid socket entry).learned = some e →
        Q (n.key socket) e

variable {d : Deployment σ α}

theorem Teaches.imp {Q : Entry α → Prop} {store : σ} (hteaches : d.Teaches store P)
    (himp : ∀ e, P e → Q e) : d.Teaches store Q :=
  fun name n hn socket hsocket entry e hlearned =>
    himp e (hteaches name n hn socket hsocket entry e hlearned)

omit [Scalar α] in
/-- The lookups one by one. -/
theorem resolve_eq_lookups (d : Deployment σ α) (p : Placement) :
    d.resolve p =
      match d.topology.node? p.node with
      | none => .error (.unknownNode p.node)
      | some n =>
        match n.socket? p.socket with
        | none => .error (.unknownSocket p.node p.socket)
        | some socket =>
          match d.catalog[p.profile]? with
          | none => .error (.unknownProfile p.profile)
          | some profile => .ok (n, socket, profile) := by
  unfold resolve Topology.requireNode Catalog.require
  cases d.topology.node? p.node with
  | none => rfl
  | some n =>
      simp only [bind, Except.bind]
      cases n.socket? p.socket with
      | none => rfl
      | some socket => cases d.catalog[p.profile]? <;> rfl

omit [Scalar α] in
theorem of_resolve_eq_ok {p : Placement} {n : Node} {socket : Socket}
    {profile : AppProfile α} (hresolve : d.resolve p = .ok (n, socket, profile)) :
    d.topology.requireNode p.node = .ok n ∧ n.socket? p.socket = some socket ∧
      d.catalog[p.profile]? = some profile := by
  rw [resolve_eq_lookups] at hresolve
  split at hresolve
  next => cases hresolve
  next n' hnode =>
    split at hresolve
    next => cases hresolve
    next socket' hsocket =>
      split at hresolve
      next => cases hresolve
      next profile' hprofile =>
        obtain ⟨rfl, rfl, rfl⟩ := Except.ok.inj hresolve
        exact ⟨Topology.requireNode_eq_ok_iff.mpr hnode, hsocket, hprofile⟩

/-- A step leaves an entry alone, or folds a placement into it. -/
theorem placedOn_cases (d : Deployment σ α) (k : SocketKey) (e : Entry α) (step : Step σ α) :
    d.placedOn k e step = e ∨
      ∃ p n socket profile, step = .recordPlacement p ∧
        d.resolve p = .ok (n, socket, profile) ∧
        d.placedOn k e step = e.place profile socket.coreCount p.countsTowardIdle := by
  unfold placedOn
  split
  next p =>
    split
    next => exact Or.inl rfl
    next n socket profile hresolve =>
      split
      · exact Or.inr ⟨p, n, socket, profile, rfl, hresolve, rfl⟩
      · exact Or.inl rfl
  next => exact Or.inl rfl

end Deployment

namespace Basis

variable {d : Deployment σ α} {b : Basis σ α}

theorem allAt_score (hunknown : ∀ k, Q k .unknown) (hteaches : d.TeachesAt b.store Q)
    (hall : b.cache.AllAt Q) (name : String) : (b.score d name).2.cache.AllAt Q := by
  unfold score
  cases hn : d.topology.requireNode name with
  | error e => exact hall
  | ok n =>
      refine (hall.invalidateIfExpired hunknown b.now).record ?_ b.now
      intro write hwrite
      obtain ⟨socket, v, hzip, hkey, hlearned⟩ := Visit.exists_of_mem_writes hwrite
      obtain ⟨hsocket, rfl⟩ := Visit.mem_zip_throughCrash hzip
      rw [hkey]
      exact hteaches name n hn socket hsocket _ write.2 hlearned

theorem all_score (hunknown : P .unknown) (hteaches : d.Teaches b.store P)
    (hall : b.cache.All P) (name : String) : (b.score d name).2.cache.All P :=
  allAt_score (Q := fun _ => P) (fun _ => hunknown) hteaches hall name

theorem store_score (d : Deployment σ α) (b : Basis σ α) (name : String) :
    (b.score d name).2.store = b.store := by
  unfold score
  cases d.topology.requireNode name <;> rfl

theorem allAt_scoreAll (hunknown : ∀ k, Q k .unknown) (hteaches : d.TeachesAt b.store Q)
    (hall : b.cache.AllAt Q) (hosts : List String) :
    (b.scoreAll d hosts).2.cache.AllAt Q := by
  induction hosts generalizing b with
  | nil => exact hall
  | cons host rest ih =>
      refine ih ?_ (allAt_score hunknown hteaches hall host)
      rw [store_score]
      exact hteaches

theorem allAt_advance (hunknown : ∀ k, Q k .unknown) (hall : b.cache.AllAt Q)
    (millis : Nat) : (b.advance millis).cache.AllAt Q := by
  rcases b.advance_cases millis with hsame | ⟨cache, hswept, hblank, -⟩
  · rw [hsame]
    exact hall
  · rw [hswept]
    exact hblank.allAt hunknown

theorem get_place [LawfulScalar α] (d : Deployment σ α) (b : Basis σ α) (p : Placement)
    (k : SocketKey) :
    (b.place d p).cache.get k = d.placedOn k (b.cache.get k) (.recordPlacement p) := by
  simp only [place, Deployment.placedOn]
  rcases d.resolve p with e | ⟨n, socket, profile⟩
  · rfl
  · exact b.cache.get_place (n.key socket) profile _ _ k

/-- What holds of every entry still does after a step. -/
theorem allAt_step [LawfulScalar α] (hunknown : ∀ k, Q k .unknown)
    (hteaches : d.TeachesAt b.store Q) {step : Step σ α} (hstep : step.isDirectWrite = false)
    (hplaced : ∀ k, Q k (b.cache.get k) → Q k (d.placedOn k (b.cache.get k) step))
    (hall : b.cache.AllAt Q) : (b.step d step).cache.AllAt Q := by
  cases step with
  | score name => exact allAt_score hunknown hteaches hall name
  | prioritize workload hosts => exact allAt_scoreAll hunknown hteaches hall hosts
  | recordPlacement p =>
      intro k
      rw [Basis.step, get_place]
      exact hplaced k (hall k)
  | flushCache => exact b.cache.isBlank_clean.allAt hunknown
  | updateCache k p idle => cases hstep
  | advance millis => exact allAt_advance hunknown hall millis
  | startSweeper => exact allAt_advance (b := { b with sweeping := true }) hunknown hall 0
  | idleCapacity name | showCache | stopSweeper | setReady ready | showHealth
  | changeStore change => exact hall

end Basis

/-! ## Runs -/

namespace Deployment

variable {d : Deployment σ α}

/-- What the unknown entry has, the store teaches all along and placements keep holds of
every entry after a run. -/
theorem allAt_run [LawfulScalar α] (hconsistent : d.topology.IsConsistent)
    (hunknown : ∀ k, Q k .unknown) {steps : List (Step σ α)}
    (hsteps : ∀ step ∈ steps, step.isDirectWrite = false) {s : State σ α}
    (hplaced : ∀ i step, steps[i]? = some step → ∀ k,
      let e := (d.run s (steps.take i)).2.cache.get k
      Q k e → Q k (d.placedOn k e step))
    (hteaches : ∀ i, d.TeachesAt (d.run s (steps.take i)).2.store Q)
    (hall : s.cache.AllAt Q) : (d.run s steps).2.cache.AllAt Q := by
  induction steps generalizing s with
  | nil => exact hall
  | cons step rest ih =>
      obtain ⟨hstep, hrest⟩ := List.forall_mem_cons.mp hsteps
      have hstepped : (s.basis.step d step).cache.AllAt Q :=
        Basis.allAt_step hunknown (hteaches 0) hstep (hplaced 0 step rfl) hall
      rw [← basis_step hconsistent] at hstepped
      exact ih hrest (fun i step' => hplaced (i + 1) step') (fun i => hteaches (i + 1)) hstepped

theorem all_run [LawfulScalar α] (hconsistent : d.topology.IsConsistent)
    (hunknown : P .unknown) {steps : List (Step σ α)}
    (hsteps : ∀ step ∈ steps, step.isDirectWrite = false) {s : State σ α}
    (hplaced : ∀ i step, steps[i]? = some step → ∀ k,
      let e := (d.run s (steps.take i)).2.cache.get k
      P e → P (d.placedOn k e step))
    (hteaches : ∀ i, d.Teaches (d.run s (steps.take i)).2.store P) (hall : s.cache.All P) :
    (d.run s steps).2.cache.All P :=
  allAt_run (Q := fun _ => P) hconsistent (fun _ => hunknown) hsteps hplaced hteaches hall

end Deployment

end SocketRanking
