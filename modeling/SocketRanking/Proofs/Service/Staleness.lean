import Mathlib.Data.List.Perm.Subperm
import SocketRanking.Proofs.Scoring.Replay
import SocketRanking.Proofs.Service.Run

/-!
# Bounded staleness

Every measurement restarts the one timer that all sockets share, so an entry may
outlive the time for which the cache holds: the measurements of other sockets
keep it alive.  They cannot do so without bound.  Between two sweeps each socket
is written at most once, because only a socket of which no idle fraction is known
is written at all, and each call checks the timer before it uses an entry.

The argument is carried by `Accounts`, which lists the visits that wrote the
known entries, latest first, each less than one holding time before the next.
-/

namespace SocketRanking

variable {σ α : Type}

/-- A visit that a scoring call made, with its time and its socket. -/
structure TimedVisit (α : Type) where
  now : Nat
  key : SocketKey
  /-- The entry of the socket that the visit was made from. -/
  entry : Entry α
  visit : Visit α

namespace TimedVisit

/-- The last visit of a history that wrote the entry of a socket. -/
def lastWrite? (k : SocketKey) (history : List (TimedVisit α)) : Option (TimedVisit α) :=
  (history.filter fun v => v.key = k && v.visit.learned.isSome).getLast?

theorem lastWrite?_concat (k : SocketKey) (history : List (TimedVisit α))
    (v : TimedVisit α) :
    lastWrite? k (history ++ [v]) =
      if v.key = k ∧ v.visit.learned.isSome = true then some v
      else lastWrite? k history := by
  by_cases hwrite : v.key = k ∧ v.visit.learned.isSome = true
  · simp [lastWrite?, List.filter_append, hwrite.1, hwrite.2]
  · have hskip : (v.key = k && v.visit.learned.isSome) = false := by
      simpa using hwrite
    simp [lastWrite?, List.filter_append, hskip, hwrite]

variable [Scalar α]

/-- The entry that a visit was made from was written less than `bound` before, by the
last visit that wrote the entry of this socket, and only placements have changed it
since. -/
def IsTimely (bound : Nat) (before : List (TimedVisit α)) (v : TimedVisit α) : Prop :=
  ∃ w e, lastWrite? v.key before = some w ∧ w.visit.learned = some e ∧
    e.LeadsTo v.entry ∧ w.now ≤ v.now ∧ v.now - w.now < bound

/-- Every visit of a history that used an entry did so in time. -/
def AreTimely (bound : Nat) (history : List (TimedVisit α)) : Prop :=
  ∀ before v after, history = before ++ v :: after → v.visit.UsesEntry →
    v.IsTimely bound before

theorem AreTimely.concat {bound : Nat} {history : List (TimedVisit α)}
    (htimely : AreTimely bound history) {v : TimedVisit α}
    (hv : v.visit.UsesEntry → v.IsTimely bound history) :
    AreTimely bound (history ++ [v]) := by
  intro before u after hsplit huses
  rcases List.eq_nil_or_concat after with rfl | ⟨after', last, rfl⟩
  · obtain ⟨rfl, hlast⟩ := List.append_inj' hsplit rfl
    obtain rfl : v = u := List.singleton_injective hlast
    exact hv huses
  · have hsplit' : history ++ [v] = (before ++ u :: after') ++ [last] := by
      simpa using hsplit
    exact htimely before u after' (List.append_inj' hsplit' rfl).1 huses

end TimedVisit

open TimedVisit

variable [Scalar α]

/-! ## The visits of a run -/

namespace Deployment

/-- The visits of sockets from a state, given what came of each. -/
def timed (n : Node) (s : State σ α) (sockets : List Socket) (visits : List (Visit α)) :
    List (TimedVisit α) :=
  (sockets.zip visits).map fun (socket, visit) =>
    { now := s.now, key := n.key socket, entry := s.cache.get (n.key socket), visit }

/-- The visits of a call that scores a node. -/
def timedVisits (d : Deployment σ α) (name : String) (s : State σ α) : List (TimedVisit α) :=
  match d.topology.requireNode name with
  | .error _ => []
  | .ok n => timed n (expire s) n.sockets (d.visitAll n n.sockets (expire s)).1

/-- The visits of the calls that score hosts one after the other. -/
def timedVisitsOver (d : Deployment σ α) : List String → State σ α → List (TimedVisit α)
  | [], _ => []
  | host :: rest, s => d.timedVisits host s ++ d.timedVisitsOver rest (d.tally [host] s).2

def stepVisits (d : Deployment σ α) (s : State σ α) : Step σ α → List (TimedVisit α)
  | .score name => d.timedVisits name s
  | .prioritize _ hosts => d.timedVisitsOver hosts s
  | _ => []

/-- The visits of a run. -/
def history (d : Deployment σ α) : State σ α → List (Step σ α) → List (TimedVisit α)
  | _, [] => []
  | s, step :: rest => d.stepVisits s step ++ d.history (d.step s step).2 rest

end Deployment

/-! ## Accounts of the known entries -/

/-- How the known entries came about: `fresh` lists the visits that wrote them,
latest first. -/
structure Accounts (d : Deployment σ α) (ttl : Nat) (b : Basis σ α)
    (history fresh : List (TimedVisit α)) : Prop where
  ttl_eq : b.cache.ttl = ttl
  nodup_keys : (fresh.map key).Nodup
  key_mem : ∀ w ∈ fresh, w.key ∈ d.topology.socketKeys
  isSome_idle?_iff : ∀ k, (b.cache.get k).idle?.isSome = true ↔ k ∈ fresh.map key
  lastWrite?_eq : ∀ w ∈ fresh, lastWrite? w.key history = some w
  leadsTo : ∀ w ∈ fresh, ∃ e, w.visit.learned = some e ∧ e.LeadsTo (b.cache.get w.key)
  le_now : ∀ w ∈ fresh, w.now ≤ b.now
  /-- From each write to the next less than the holding time has passed. -/
  refreshedAt_le : ∀ i w, fresh[i]? = some w →
    b.cache.refreshedAt ≤ w.now + i * (ttl - 1)

namespace Accounts

variable {d : Deployment σ α} {ttl : Nat} {b b' : Basis σ α}
  {history fresh : List (TimedVisit α)}

theorem of_isBlank [LawfulScalar α] (httl : b.cache.ttl = ttl) (hblank : b.cache.IsBlank)
    (history : List (TimedVisit α)) : Accounts d ttl b history [] where
  ttl_eq := httl
  nodup_keys := List.nodup_nil
  key_mem := by simp
  isSome_idle?_iff k := by simp [hblank k]
  lastWrite?_eq := by simp
  leadsTo := by simp
  le_now := by simp
  refreshedAt_le := by simp

/-- Accounts stay right when time passes and workloads are placed. -/
theorem of_leadsTo [LawfulScalar α] (haccounts : Accounts d ttl b history fresh)
    (httl : b'.cache.ttl = b.cache.ttl)
    (hrefreshed : b'.cache.refreshedAt = b.cache.refreshedAt) (hnow : b.now ≤ b'.now)
    (hentries : ∀ k, (b.cache.get k).LeadsTo (b'.cache.get k)) :
    Accounts d ttl b' history fresh where
  ttl_eq := httl.trans haccounts.ttl_eq
  nodup_keys := haccounts.nodup_keys
  key_mem := haccounts.key_mem
  isSome_idle?_iff k := by
    rw [Entry.isSome_idle?_of_leadsTo (hentries k), haccounts.isSome_idle?_iff]
  lastWrite?_eq := haccounts.lastWrite?_eq
  leadsTo w hw := by
    obtain ⟨e, hlearned, hplaced⟩ := haccounts.leadsTo w hw
    exact ⟨e, hlearned, hplaced.trans (hentries w.key)⟩
  le_now w hw := (haccounts.le_now w hw).trans hnow
  refreshedAt_le i w hw := hrefreshed ▸ haccounts.refreshedAt_le i w hw

/-- A visit that writes nothing leaves the accounts as they are. -/
theorem concat_of_learned_none (haccounts : Accounts d ttl b history fresh)
    {v : TimedVisit α} (hlearned : v.visit.learned = none) :
    Accounts d ttl b (history ++ [v]) fresh where
  ttl_eq := haccounts.ttl_eq
  nodup_keys := haccounts.nodup_keys
  key_mem := haccounts.key_mem
  isSome_idle?_iff := haccounts.isSome_idle?_iff
  lastWrite?_eq w hw := by
    rw [lastWrite?_concat, if_neg (by simp [hlearned])]
    exact haccounts.lastWrite?_eq w hw
  leadsTo := haccounts.leadsTo
  le_now := haccounts.le_now
  refreshedAt_le := haccounts.refreshedAt_le

/-- A visit that writes an entry that was not known goes to the front of the
accounts. -/
theorem concat_of_learned_some (haccounts : Accounts d ttl b history fresh)
    {v : TimedVisit α} {e : Entry α} (hlearned : v.visit.learned = some e)
    (hnow : v.now = b.now) (hkey : v.key ∈ d.topology.socketKeys)
    (hunknown : (b.cache.get v.key).idle? = none) (hknown : e.idle?.isSome = true)
    (htimer : fresh = [] ∨ b.now ≤ b.cache.refreshedAt + (ttl - 1)) :
    Accounts d ttl (b.enter [(v.key, e)]) (history ++ [v]) (v :: fresh) := by
  have hapart : v.key ∉ fresh.map key := by
    intro hmem
    have hsome := (haccounts.isSome_idle?_iff v.key).mpr hmem
    rw [hunknown] at hsome
    cases hsome
  have hother : ∀ w ∈ fresh, v.key ≠ w.key :=
    fun w hw hk => hapart (hk ▸ List.mem_map_of_mem hw)
  refine ⟨haccounts.ttl_eq, List.nodup_cons.mpr ⟨hapart, haccounts.nodup_keys⟩,
    ?_, ?_, ?_, ?_, ?_, ?_⟩
  · exact List.forall_mem_cons.mpr ⟨hkey, haccounts.key_mem⟩
  · intro k
    change ((b.cache.update v.key e b.now).get k).idle?.isSome = true ↔ _
    rw [Cache.get_update, List.map_cons, List.mem_cons]
    by_cases hk : v.key = k
    · simp [hk, hknown]
    · rw [if_neg hk, haccounts.isSome_idle?_iff]
      simp [Ne.symm hk]
  · refine List.forall_mem_cons.mpr ⟨?_, fun w hw => ?_⟩
    · rw [lastWrite?_concat, if_pos ⟨rfl, by simp [hlearned]⟩]
    · rw [lastWrite?_concat, if_neg (fun hboth => hother w hw hboth.1)]
      exact haccounts.lastWrite?_eq w hw
  · change ∀ w ∈ v :: fresh, ∃ e', w.visit.learned = some e' ∧
      e'.LeadsTo ((b.cache.update v.key e b.now).get w.key)
    refine List.forall_mem_cons.mpr ⟨⟨e, hlearned, ?_⟩, fun w hw => ?_⟩
    · rw [Cache.get_update, if_pos rfl]
      exact .refl
    · rw [Cache.get_update, if_neg (hother w hw)]
      exact haccounts.leadsTo w hw
  · exact List.forall_mem_cons.mpr ⟨hnow.le, haccounts.le_now⟩
  · intro i w hw
    change b.now ≤ w.now + i * (ttl - 1)
    cases i with
    | zero =>
        obtain rfl : v = w := by simpa using hw
        omega
    | succ i =>
        rw [List.getElem?_cons_succ] at hw
        have hspaced := haccounts.refreshedAt_le i w hw
        rcases htimer with rfl | htimer
        · cases hw
        · rw [Nat.succ_mul]
          omega

/-- While the timer runs, no known entry is older than one holding time for each
socket. -/
theorem age_lt (haccounts : Accounts d ttl b history fresh)
    (hrunning : b.cache.isExpired b.now = false) {w : TimedVisit α} (hw : w ∈ fresh) :
    b.now - w.now < d.topology.socketKeys.length * ttl := by
  obtain ⟨i, hi, rfl⟩ := List.mem_iff_getElem.mp hw
  have hcount : fresh.length ≤ d.topology.socketKeys.length := by
    have hsubset : fresh.map key ⊆ d.topology.socketKeys := by
      intro k hk
      obtain ⟨w, hw, rfl⟩ := List.mem_map.mp hk
      exact haccounts.key_mem w hw
    simpa using (List.subperm_of_subset haccounts.nodup_keys hsubset).length_le
  have hspaced := haccounts.refreshedAt_le i fresh[i] (List.getElem?_eq_getElem hi)
  have hholds : b.now - b.cache.refreshedAt < ttl := by
    rw [← haccounts.ttl_eq]
    exact Nat.not_le.mp fun hexpired => by simp [Cache.isExpired_iff.mpr hexpired] at hrunning
  calc b.now - fresh[i].now ≤ (i + 1) * (ttl - 1) := by
        rw [Nat.succ_mul]
        omega
    _ ≤ d.topology.socketKeys.length * (ttl - 1) := Nat.mul_le_mul_right _ (by omega)
    _ < d.topology.socketKeys.length * ttl := Nat.mul_lt_mul_of_pos_left (by omega) (by omega)

end Accounts

/-! ## Scoring calls -/

namespace Deployment

variable [LawfulScalar α] {d : Deployment σ α} {ttl : Nat}

/-- A visit keeps the accounts and the entries of other sockets, and the timer runs on
or is restarted. -/
theorem recordVisit_accounts {n : Node} {socket : Socket}
    (hkey : n.key socket ∈ d.topology.socketKeys) {s : State σ α}
    {history fresh : List (TimedVisit α)} (haccounts : Accounts d ttl s.basis history fresh)
    (htimer : fresh = [] ∨ s.now ≤ s.cache.refreshedAt + (ttl - 1)) {v : TimedVisit α}
    (hv : v = ⟨s.now, n.key socket, s.cache.get (n.key socket), d.visit n socket s⟩)
    {s' : State σ α} (hs' : s' = d.recordVisit (n.key socket) (d.visit n socket s) s) :
    (s'.now = s.now ∧ ∀ k, n.key socket ≠ k → s'.cache.get k = s.cache.get k) ∧
      ∃ fresh', Accounts d ttl s'.basis (history ++ [v]) fresh' ∧
        (fresh' = [] ∨ s'.now ≤ s'.cache.refreshedAt + (ttl - 1)) ∧
        ∀ w ∈ fresh', w.key ≠ n.key socket → w ∈ fresh := by
  have hbasis := basis_recordVisit d n socket (d.visit n socket s) s
  rw [← hs'] at hbasis
  have hnow : s'.now = s.now := congrArg Basis.now hbasis
  have hvisit : v.visit = d.visit n socket s := by rw [hv]
  cases hlearned : (d.visit n socket s).learned with
  | none =>
      have hsame : s'.basis = s.basis := by rwa [hlearned] at hbasis
      have hcache : s'.cache = s.cache := congrArg Basis.cache hsame
      refine ⟨⟨hnow, fun k _ => by rw [hcache]⟩, fresh, ?_, by rwa [hnow, hcache],
        fun w hw _ => hw⟩
      rw [hsame]
      exact haccounts.concat_of_learned_none (hvisit ▸ hlearned)
  | some e =>
      have hentered : s'.basis = s.basis.enter [(n.key socket, e)] := by
        rwa [hlearned] at hbasis
      have hcache : s'.cache = s.cache.update (n.key socket) e s.now :=
        congrArg Basis.cache hentered
      have hrefreshed : s'.cache.refreshedAt = s.now := congrArg Cache.refreshedAt hcache
      obtain ⟨hunknown, base, p, idle, rfl, hmeasures, -⟩ :=
        Visit.exists_measures_of_learned hlearned
      obtain ⟨pooled, -, rfl⟩ := hmeasures.idle
      have hknown : (Entry.measured p (Scalar.atLeast Entry.idleEpsilon pooled)).idle?.isSome =
          true := by
        rw [Entry.idle?_measured, Option.isSome_some]
      have hvkey : v.key = n.key socket := by rw [hv]
      refine ⟨⟨hnow, fun k hk => by rw [hcache, Cache.get_update, if_neg hk]⟩,
        v :: fresh, ?_, Or.inr (by omega), ?_⟩
      · rw [hentered, ← hvkey]
        refine haccounts.concat_of_learned_some (hvisit ▸ hlearned) (by rw [hv]; rfl) ?_ ?_
          hknown htimer
        · rwa [hvkey]
        · rwa [hvkey]
      · intro w hw hother
        rcases List.mem_cons.mp hw with rfl | hw
        · exact absurd hvkey hother
        · exact hw

omit [LawfulScalar α] in
theorem timed_congr {n : Node} {s s' : State σ α} (hnow : s'.now = s.now)
    {sockets : List Socket}
    (hentry : ∀ socket ∈ sockets, s'.cache.get (n.key socket) = s.cache.get (n.key socket))
    (visits : List (Visit α)) : timed n s' sockets visits = timed n s sockets visits := by
  refine List.map_congr_left fun visited hmem => ?_
  have hsocket := (List.of_mem_zip (show (visited.1, visited.2) ∈ _ from hmem)).1
  simp only [hnow, hentry _ hsocket]

/-- The visits of a call keep the accounts, and use no entry that is older than
the entries of their sockets were when the call began. -/
theorem visitAll_accounts {bound : Nat} {n : Node} {sockets : List Socket}
    (hsockets : (sockets.map Socket.id).Nodup)
    (hkeys : ∀ socket ∈ sockets, n.key socket ∈ d.topology.socketKeys)
    {s : State σ α} {history fresh : List (TimedVisit α)}
    (haccounts : Accounts d ttl s.basis history fresh)
    (hrecent : ∀ w ∈ fresh, ∀ socket ∈ sockets, w.key = n.key socket →
      s.now - w.now < bound)
    (htimer : fresh = [] ∨ s.now ≤ s.cache.refreshedAt + (ttl - 1))
    (htimely : AreTimely bound history) :
    (∃ fresh', Accounts d ttl (d.visitAll n sockets s).2.basis
        (history ++ timed n s sockets (d.visitAll n sockets s).1) fresh') ∧
      AreTimely bound (history ++ timed n s sockets (d.visitAll n sockets s).1) := by
  induction sockets generalizing s history fresh with
  | nil =>
      have htimed : history ++ timed n s [] (d.visitAll n [] s).1 = history :=
        List.append_nil history
      rw [htimed]
      exact ⟨⟨fresh, haccounts⟩, htimely⟩
  | cons socket rest ih =>
      obtain ⟨hapart, hrest⟩ := List.nodup_cons.mp hsockets
      obtain ⟨hkey, hrestKeys⟩ := List.forall_mem_cons.mp hkeys
      have hothers : ∀ other ∈ rest, n.key socket ≠ n.key other := by
        intro other hother hsame
        exact hapart (Node.key_eq_key.mp hsame ▸ List.mem_map_of_mem hother)
      set visit := d.visit n socket s with hvisit
      set s' := d.recordVisit (n.key socket) visit s with hs'
      set v : TimedVisit α := ⟨s.now, n.key socket, s.cache.get (n.key socket), visit⟩ with hv
      have htimely' : AreTimely bound (history ++ [v]) := by
        refine htimely.concat fun huses => ?_
        have hknown := (haccounts.isSome_idle?_iff (n.key socket)).mp
          (Visit.isSome_idle?_of_usesEntry huses)
        obtain ⟨w, hw, hwkey⟩ := List.mem_map.mp hknown
        obtain ⟨e, hlearned, hplaced⟩ := haccounts.leadsTo w hw
        rw [hwkey] at hplaced
        refine ⟨w, e, ?_, hlearned, hplaced, haccounts.le_now w hw,
          hrecent w hw socket List.mem_cons_self hwkey⟩
        change lastWrite? (n.key socket) history = some w
        rw [← hwkey]
        exact haccounts.lastWrite?_eq w hw
      obtain ⟨⟨hnow, hentries⟩, fresh', haccounts', htimer', hfresh⟩ :=
        recordVisit_accounts hkey haccounts htimer hv hs'
      have hrecent' : ∀ w ∈ fresh', ∀ other ∈ rest, w.key = n.key other →
          s'.now - w.now < bound := by
        intro w hw other hother hwkey
        have hne : w.key ≠ n.key socket := fun hsame =>
          hothers other hother (hsame.symm.trans hwkey)
        rw [hnow]
        exact hrecent w (hfresh w hw hne) other (List.mem_cons_of_mem _ hother) hwkey
      rw [visitAll_cons, ← hvisit]
      dsimp only
      rw [← hs']
      split
      · have htimed : timed n s (socket :: rest) [visit] = [v] := by
          simp [timed, hv]
        rw [htimed]
        exact ⟨⟨fresh', haccounts'⟩, htimely'⟩
      · have htimed : history ++ timed n s (socket :: rest) (visit :: (d.visitAll n rest s').1) =
            (history ++ [v]) ++ timed n s' rest (d.visitAll n rest s').1 := by
          rw [timed_congr hnow (fun other hother => hentries _ (hothers other hother)),
            List.append_assoc]
          rfl
        rw [htimed]
        exact ih hrest hrestKeys haccounts' hrecent' htimer' htimely'

end Deployment

/-! ## Runs -/

/-- The known entries are accounted for, and all uses of entries were timely. -/
def Basis.IsAccounted (d : Deployment σ α) (ttl : Nat) (b : Basis σ α)
    (history : List (TimedVisit α)) : Prop :=
  (∃ fresh, Accounts d ttl b history fresh) ∧
    AreTimely (d.topology.socketKeys.length * ttl) history

namespace Basis.IsAccounted

variable {d : Deployment σ α} {ttl : Nat} {b b' : Basis σ α} {history : List (TimedVisit α)}

theorem of_isBlank [LawfulScalar α] (haccounted : b.IsAccounted d ttl history)
    (httl : b'.cache.ttl = b.cache.ttl) (hblank : b'.cache.IsBlank) :
    b'.IsAccounted d ttl history := by
  obtain ⟨⟨fresh, haccounts⟩, htimely⟩ := haccounted
  exact ⟨⟨[], .of_isBlank (httl.trans haccounts.ttl_eq) hblank history⟩, htimely⟩

variable [LawfulScalar α]

theorem of_leadsTo (haccounted : b.IsAccounted d ttl history)
    (httl : b'.cache.ttl = b.cache.ttl)
    (hrefreshed : b'.cache.refreshedAt = b.cache.refreshedAt) (hnow : b.now ≤ b'.now)
    (hentries : ∀ k, (b.cache.get k).LeadsTo (b'.cache.get k)) :
    b'.IsAccounted d ttl history := by
  obtain ⟨⟨fresh, haccounts⟩, htimely⟩ := haccounted
  exact ⟨⟨fresh, haccounts.of_leadsTo httl hrefreshed hnow hentries⟩, htimely⟩

/-- Accounts stay right when time passes. -/
theorem of_same_cache (haccounted : b.IsAccounted d ttl history)
    (hcache : b'.cache = b.cache) (hnow : b.now ≤ b'.now) : b'.IsAccounted d ttl history :=
  haccounted.of_leadsTo (by rw [hcache]) (by rw [hcache]) hnow fun _ => hcache ▸ .refl

theorem advance (haccounted : b.IsAccounted d ttl history) (millis : Nat) :
    (b.advance millis).IsAccounted d ttl history := by
  rcases b.advance_cases millis with hlater | ⟨cache, hlater, hblank, httl, -⟩
  · rw [hlater]
    exact haccounted.of_same_cache rfl (Nat.le_add_right _ _)
  · rw [hlater]
    exact haccounted.of_isBlank httl hblank

theorem place (haccounted : b.IsAccounted d ttl history) (p : Placement) :
    (b.place d p).IsAccounted d ttl history := by
  unfold Basis.place
  rcases d.resolve p with e | ⟨n, socket, profile⟩
  · exact haccounted
  · exact haccounted.of_leadsTo rfl rfl le_rfl (Cache.leadsTo_get_place _ _ _ _ _)

end Basis.IsAccounted

namespace Deployment

variable [LawfulScalar α] {d : Deployment σ α} {ttl : Nat}

/-- Entries that are too old are gone after the expiry check, and otherwise the timer
still runs. -/
theorem expire_accounts {s : State σ α} {history fresh : List (TimedVisit α)}
    (haccounts : Accounts d ttl s.basis history fresh) :
    ∃ fresh', Accounts d ttl (expire s).basis history fresh' ∧
      (∀ w ∈ fresh', (expire s).now - w.now < d.topology.socketKeys.length * ttl) ∧
      (fresh' = [] ∨ (expire s).now ≤ (expire s).cache.refreshedAt + (ttl - 1)) := by
  by_cases hexpired : s.cache.isExpired s.now = true
  · refine ⟨[], ?_, by simp, Or.inl rfl⟩
    rw [basis_expire]
    exact .of_isBlank ((Cache.ttl_invalidateIfExpired _ _).trans haccounts.ttl_eq)
      (Cache.isBlank_invalidateIfExpired hexpired) history
  · have hsame : expire s = s := if_neg hexpired
    have hrunning : s.basis.cache.isExpired s.basis.now = false :=
      Bool.eq_false_of_not_eq_true hexpired
    rw [hsame]
    refine ⟨fresh, haccounts, fun w hw => haccounts.age_lt hrunning hw, Or.inr ?_⟩
    have hholds := mt Cache.isExpired_iff.mpr hexpired
    have httl : s.cache.ttl = ttl := haccounts.ttl_eq
    omega

theorem scoreNode_isAccounted (hconsistent : d.topology.IsConsistent) (name : String)
    {s : State σ α} {history : List (TimedVisit α)}
    (haccounted : s.basis.IsAccounted d ttl history) :
    (d.scoreNode name s).2.basis.IsAccounted d ttl (history ++ d.timedVisits name s) := by
  obtain ⟨⟨fresh, haccounts⟩, htimely⟩ := haccounted
  cases hrequire : d.topology.requireNode name with
  | error e =>
      rw [timedVisits, scoreNode, hrequire]
      exact ⟨⟨fresh, by simpa using haccounts⟩, by simpa using htimely⟩
  | ok n =>
      have hn := Topology.requireNode_eq_ok_iff.mp hrequire
      have hvisited : (d.scoreNode name s).2.basis =
          (d.visitAll n n.sockets (expire s)).2.basis := by
        unfold scoreNode
        simp only [hrequire]
        cases crash? (d.visitAll n n.sockets (expire s)).1 with
        | some text => rfl
        | none => cases outage? (d.visitAll n n.sockets (expire s)).1 <;> rfl
      obtain ⟨fresh', haccounts', hrecent, htimer⟩ := expire_accounts haccounts
      rw [hvisited, timedVisits, hrequire]
      exact visitAll_accounts (hconsistent.nodup_sockets hn)
        (fun socket hsocket => Topology.mem_socketKeys hn hsocket) haccounts'
        (fun w hw _ _ _ => hrecent w hw) htimer htimely

theorem tally_isAccounted (hconsistent : d.topology.IsConsistent) (hosts : List String)
    {s : State σ α} {history : List (TimedVisit α)}
    (haccounted : s.basis.IsAccounted d ttl history) :
    (d.tally hosts s).2.basis.IsAccounted d ttl (history ++ d.timedVisitsOver hosts s) := by
  induction hosts generalizing s history with
  | nil => simpa [tally, timedVisitsOver] using haccounted
  | cons host rest ih =>
      have hfirst : (d.tally [host] s).2.basis = (d.scoreNode host s).2.basis := by
        unfold tally
        rcases d.scoreNode host s with ⟨trouble | r, s'⟩ <;> rfl
      have hrest : (d.tally (host :: rest) s).2 = (d.tally rest (d.tally [host] s).2).2 := by
        simp only [tally]
        rcases d.scoreNode host s with ⟨trouble | r, s'⟩ <;> rfl
      rw [hrest, timedVisitsOver, ← List.append_assoc]
      refine ih ?_
      rw [hfirst]
      exact scoreNode_isAccounted hconsistent host haccounted

/-- A step that does not write into the cache directly keeps the accounts. -/
theorem step_isAccounted (hconsistent : d.topology.IsConsistent) {s : State σ α}
    {history : List (TimedVisit α)} (haccounted : s.basis.IsAccounted d ttl history)
    {step : Step σ α} (hstep : step.isDirectWrite = false) :
    (d.step s step).2.basis.IsAccounted d ttl (history ++ d.stepVisits s step) := by
  have hquiet : ∀ {b : Basis σ α}, b.IsAccounted d ttl history →
      b.IsAccounted d ttl (history ++ []) := by
    intro b hb
    rwa [List.append_nil]
  cases step with
  | score name =>
      rw [basis_step_score]
      exact scoreNode_isAccounted hconsistent name haccounted
  | prioritize workload hosts => exact tally_isAccounted hconsistent hosts haccounted
  | updateCache k p idle => cases hstep
  | recordPlacement p =>
      rw [basis_step hconsistent]
      exact hquiet (haccounted.place p)
  | flushCache => exact hquiet (haccounted.of_isBlank rfl (Cache.isBlank_clean s.cache))
  | advance millis =>
      rw [basis_step hconsistent]
      exact hquiet (haccounted.advance millis)
  | startSweeper =>
      rw [basis_step hconsistent]
      have hstarted : ({ s.basis with sweeping := true } : Basis σ α).IsAccounted d ttl history :=
        haccounted.of_same_cache rfl le_rfl
      exact hquiet (hstarted.advance 0)
  | stopSweeper => exact hquiet (haccounted.of_same_cache rfl le_rfl)
  | changeStore change => exact hquiet (haccounted.of_same_cache rfl le_rfl)
  | idleCapacity name | showCache | setReady ready | showHealth =>
      rw [basis_step hconsistent]
      exact hquiet haccounted

theorem run_isAccounted (hconsistent : d.topology.IsConsistent) {steps : List (Step σ α)}
    (hsteps : ∀ step ∈ steps, step.isDirectWrite = false) {s : State σ α}
    {history : List (TimedVisit α)} (haccounted : s.basis.IsAccounted d ttl history) :
    (d.run s steps).2.basis.IsAccounted d ttl (history ++ d.history s steps) := by
  induction steps generalizing s history with
  | nil => simpa [run, Deployment.history] using haccounted
  | cons step rest ih =>
      obtain ⟨hstep, hrest⟩ := List.forall_mem_cons.mp hsteps
      rw [run, Deployment.history, ← List.append_assoc]
      exact ih hrest (step_isAccounted hconsistent haccounted hstep)

/-- An entry that a scoring call uses was measured less than one holding time for
each socket of the topology before, however often the timer was restarted: the last
visit that wrote it did so then, and only placements have changed it since. -/
theorem used_entry_age_lt {file : TopologyFile α} (d : Deployment σ α)
    (haccepted : Topology.ofFile file = .ok d.topology) (ttl : Nat) (threshold : UInt32)
    (store : σ) {steps : List (Step σ α)}
    (hsteps : ∀ step ∈ steps, step.isDirectWrite = false)
    {before after : List (TimedVisit α)} {v : TimedVisit α}
    (hvisit : d.history (d.start ttl threshold store) steps = before ++ v :: after)
    (huses : v.visit.UsesEntry) :
    ∃ w e, lastWrite? v.key before = some w ∧ w.visit.learned = some e ∧
      e.LeadsTo v.entry ∧ w.now ≤ v.now ∧
      v.now - w.now < d.topology.socketKeys.length * ttl := by
  have hblank : (d.start ttl threshold store).basis.cache.IsBlank :=
    Cache.isBlank_seeded ttl d.topology.socketKeys 0
  have hstart : (d.start ttl threshold store).basis.IsAccounted d ttl [] :=
    ⟨⟨[], .of_isBlank rfl hblank []⟩, fun before v after hsplit => by simp at hsplit⟩
  have hrun := run_isAccounted (Topology.isConsistent_of_ofFile haccepted) hsteps hstart
  rw [List.nil_append] at hrun
  exact hrun.2 before v after hvisit huses

/-- A node that is scored again before the cache expires is served from it. -/
theorem used_entry_age_lt_bench :
    ∃ before v after,
      bench.history (bench.start 500 3 .steady) [.score "bench", .advance 300, .score "bench"] =
        before ++ v :: after ∧
      v.visit.UsesEntry ∧
      ∃ w e, lastWrite? v.key before = some w ∧ w.visit.learned = some e ∧
        e.LeadsTo v.entry ∧ w.now ≤ v.now ∧ v.now - w.now < 2 * 500 := by
  set steps : List (Step Source Float) := [.score "bench", .advance 300, .score "bench"]
    with hsteps
  have hservice : ∀ step ∈ steps, step.isDirectWrite = false := by
    simp [hsteps, Step.isDirectWrite]
  have hserved : (bench.history (bench.start 500 3 .steady) steps)[2]?.map (·.visit.served) =
      some true := by
    rw [start_bench]
    decide +kernel
  obtain ⟨v, hv, huses⟩ := Option.map_eq_some_iff.mp hserved
  obtain ⟨hlength, rfl⟩ := List.getElem?_eq_some_iff.mp hv
  have hsplit := (List.take_append_drop 2
    (bench.history (bench.start 500 3 .steady) steps)).symm
  rw [List.drop_eq_getElem_cons hlength] at hsplit
  have hrecent := used_entry_age_lt bench Topology.ofFile_benchFile 500 3 .steady hservice
    hsplit (Or.inl huses)
  have hcount : bench.topology.socketKeys.length = 2 :=
    congrArg List.length Topology.socketKeys_bench
  rw [hcount] at hrecent
  exact ⟨_, _, _, hsplit, Or.inl huses, hrecent⟩

end Deployment

end SocketRanking
