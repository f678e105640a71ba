import SocketRanking.Proofs.Scoring.Replay
import SocketRanking.Proofs.Service.Run

/-!
# Refreshed caches

A basis is a refresh of an earlier one when each of its cache entries is the
earlier one, or one that a visit made from the earlier one would have written
back.  Scoring from a refresh comes to the same outcome as scoring from the
earlier basis, and leads to another refresh of it.  So it does not matter which
sockets have been scored before, as long as nothing but scoring has touched the
cache.
-/

namespace SocketRanking

variable {σ α : Type} [Scalar α]

/-! ## Outcomes of calls -/

namespace Trouble

def crashText? : Trouble → Option String
  | failed _ => none
  | crashed text => some text

/-- The failure, if the store did not break down. -/
def failure? : Trouble → Option Failure
  | failed e => some e
  | crashed _ => none

end Trouble

namespace Visit

def trouble? (v : Visit α) : Option Trouble :=
  match v.outcome with
  | .error trouble => some trouble
  | .ok _ => none

/-- Visits that end in the same troubles one by one. -/
def SameTroubles (visits visits' : List (Visit α)) : Prop :=
  visits.map trouble? = visits'.map trouble?

/-- Visits that come to the same outcomes one by one. -/
def SameOutcomes (visits visits' : List (Visit α)) : Prop :=
  List.Forall₂ (fun v v' => v.outcome = v'.outcome) visits visits'

omit [Scalar α] in
theorem SameOutcomes.sameTroubles {visits visits' : List (Visit α)}
    (hsame : SameOutcomes visits visits') : SameTroubles visits visits' := by
  induction hsame with
  | nil => rfl
  | cons hv _ ih =>
      unfold SameTroubles at ih ⊢
      rw [List.map_cons, List.map_cons, trouble?, trouble?, hv, ih]

omit [Scalar α] in
theorem SameOutcomes.throughCrash {visits visits' : List (Visit α)}
    (hsame : SameOutcomes visits visits') :
    SameOutcomes (throughCrash visits) (throughCrash visits') := by
  induction hsame with
  | nil => exact .nil
  | cons hv _ ih =>
      rw [Visit.throughCrash, Visit.throughCrash, hv]
      split
      · exact .cons hv .nil
      · exact .cons hv ih

omit [Scalar α] in
theorem throughCrash_cons (v : Visit α) (rest : List (Visit α)) :
    throughCrash (v :: rest) =
      if v.trouble?.any (·.crashText?.isSome) then [v] else v :: throughCrash rest := by
  rw [throughCrash, trouble?]
  rcases v.outcome with (failure | text) | score <;> rfl

omit [Scalar α] in
theorem SameTroubles.throughCrash {visits visits' : List (Visit α)}
    (hsame : SameTroubles visits visits') :
    SameTroubles (throughCrash visits) (throughCrash visits') := by
  unfold SameTroubles at hsame ⊢
  induction visits generalizing visits' with
  | nil =>
      obtain rfl := List.map_eq_nil_iff.mp hsame.symm
      rfl
  | cons v rest ih =>
      cases visits' with
      | nil => cases hsame
      | cons v' rest' =>
          obtain ⟨hv, hrest⟩ := List.cons.inj hsame
          rw [throughCrash_cons, throughCrash_cons, hv]
          split
          · rw [List.map_singleton, List.map_singleton, hv]
          · rw [List.map_cons, List.map_cons, hv, ih hrest]

omit [Scalar α] in
/-- What is made of sockets by visits is a visit of each. -/
theorem mem_zip_throughCrash {f : Socket → Visit α} {sockets : List Socket}
    {socket : Socket} {v : Visit α}
    (hmem : (socket, v) ∈ sockets.zip (throughCrash (sockets.map f))) :
    socket ∈ sockets ∧ v = f socket := by
  induction sockets with
  | nil => cases hmem
  | cons first rest ih =>
      rw [List.map_cons, throughCrash] at hmem
      split at hmem
      · obtain ⟨rfl, rfl⟩ : socket = first ∧ v = f first := by simpa using hmem
        exact ⟨List.mem_cons_self, rfl⟩
      · rcases List.mem_cons.mp hmem with hfirst | hrest
        · obtain ⟨rfl, rfl⟩ := Prod.mk.inj hfirst
          exact ⟨List.mem_cons_self, rfl⟩
        · exact ⟨List.mem_cons_of_mem _ (ih hrest).1, (ih hrest).2⟩

end Visit

namespace Deployment

variable {visits visits' : List (Visit α)}

theorem breakdown_congr (hsame : Visit.SameOutcomes visits visits') (sockets : List Socket) :
    breakdown sockets visits = breakdown sockets visits' := by
  induction hsame generalizing sockets with
  | nil => rfl
  | cons hv _ ih =>
      cases sockets with
      | nil => rfl
      | cons socket rest => rw [breakdown, breakdown, hv, ih rest]

omit [Scalar α] in
theorem crash?_congr (hsame : Visit.SameTroubles visits visits') :
    crash? visits = crash? visits' := by
  have hcrash : ∀ visits : List (Visit α), crash? visits =
      (visits.map Visit.trouble?).findSome? (·.bind Trouble.crashText?) := by
    intro visits
    rw [crash?, List.findSome?_map]
    congr
    funext v
    rw [Function.comp_apply, Visit.trouble?]
    rcases v.outcome with (failure | text) | score <;> rfl
  rw [hcrash, hcrash, hsame]

omit [Scalar α] in
theorem outage?_congr (hsame : Visit.SameTroubles visits visits') :
    outage? visits = outage? visits' := by
  have hfailures : ∀ visits : List (Visit α), storeFailures visits =
      (visits.map Visit.trouble?).filterMap fun trouble? =>
        (trouble?.bind Trouble.failure?).filter Failure.isTelemetry := by
    intro visits
    rw [storeFailures, List.filterMap_map]
    congr
    funext v
    rw [Function.comp_apply, Visit.trouble?, Visit.failure?]
    rcases v.outcome with (failure | text) | score <;> rfl
  have hlength : visits.length = visits'.length := by
    simpa using congrArg List.length hsame
  rw [outage?, outage?, hfailures, hfailures, hsame, hlength]

/-- The outcome of a call depends on the outcomes of its visits alone. -/
theorem conclude_congr (d : Deployment σ α) (n : Node)
    (hsame : Visit.SameOutcomes visits visits') :
    d.conclude n visits = d.conclude n visits' := by
  rw [conclude, conclude, crash?_congr hsame.sameTroubles, outage?_congr hsame.sameTroubles,
    breakdown_congr hsame]

end Deployment

/-! ## Refreshes -/

namespace Basis

/-- Every entry is as it was, or as a visit from there would have left it. -/
structure IsRefreshOf (d : Deployment σ α) (b₀ b : Basis σ α) : Prop where
  store : b.store = b₀.store
  entry {name : String} {n : Node} (hn : d.topology.node? name = some n)
    {socket : Socket} (hsocket : socket ∈ n.sockets) :
    b.cache.get (n.key socket) = b₀.cache.get (n.key socket) ∨
      (b₀.visit d n socket).learned = some (b.cache.get (n.key socket))

variable {d : Deployment σ α} {b₀ b : Basis σ α}

theorem IsRefreshOf.refl (d : Deployment σ α) (b : Basis σ α) : b.IsRefreshOf d b :=
  ⟨rfl, fun _ _ _ => Or.inl rfl⟩

theorem IsRefreshOf.outcome_visit (hrefresh : b₀.IsRefreshOf d b) {name : String}
    {n : Node} (hn : d.topology.node? name = some n) {socket : Socket}
    (hsocket : socket ∈ n.sockets) :
    (b.visit d n socket).outcome = (b₀.visit d n socket).outcome := by
  rw [visit, hrefresh.store]
  rcases hrefresh.entry hn hsocket with hsame | hlearned
  · rw [hsame, visit]
  · exact Visit.outcome_run_of_learned hlearned

theorem IsRefreshOf.learned_visit (hrefresh : b₀.IsRefreshOf d b) {name : String}
    {n : Node} (hn : d.topology.node? name = some n) {socket : Socket}
    (hsocket : socket ∈ n.sockets) {e : Entry α}
    (hlearned : (b.visit d n socket).learned = some e) :
    (b₀.visit d n socket).learned = some e := by
  rw [visit, hrefresh.store] at hlearned
  rcases hrefresh.entry hn hsocket with hsame | hbefore
  · rwa [hsame] at hlearned
  · rw [hbefore, Visit.learned_run_of_learned hbefore hlearned]

/-- The outcome of scoring a node from the cache as it is. -/
def outcome (d : Deployment σ α) (b : Basis σ α) (name : String) :
    Except Trouble (ScoringResult α) :=
  match d.topology.requireNode name with
  | .error e => .error (.failed e)
  | .ok n => d.conclude n (b.visits d n)

theorem score_outcome (d : Deployment σ α) (b : Basis σ α) (name : String) :
    (b.score d name).1 = b.expire.outcome d name := by
  unfold score outcome
  cases d.topology.requireNode name <;> rfl

/-- A refresh scores nodes like the earlier basis. -/
theorem IsRefreshOf.outcome (hrefresh : b₀.IsRefreshOf d b) (name : String) :
    b.outcome d name = b₀.outcome d name := by
  unfold Basis.outcome
  cases hn : d.topology.requireNode name with
  | error e => rfl
  | ok n =>
      refine d.conclude_congr n (Visit.SameOutcomes.throughCrash ?_)
      refine List.forall₂_map_left_iff.mpr (List.forall₂_map_right_iff.mpr ?_)
      exact List.forall₂_same.mpr fun socket hsocket =>
        hrefresh.outcome_visit (Topology.requireNode_eq_ok_iff.mp hn) hsocket

theorem isRefreshOf_of_isBlank (hstore : b.store = b₀.store) (hblank₀ : b₀.cache.IsBlank)
    (hblank : b.cache.IsBlank) : b₀.IsRefreshOf d b :=
  ⟨hstore, fun _ _ _ => Or.inl ((hblank _).trans (hblank₀ _).symm)⟩

/-- When nothing was known before, a sweep makes another refresh. -/
theorem IsRefreshOf.expire (hrefresh : b₀.IsRefreshOf d b) (hblank₀ : b₀.cache.IsBlank) :
    b₀.IsRefreshOf d b.expire := by
  by_cases hexpired : b.cache.isExpired b.now = true
  · exact isRefreshOf_of_isBlank hrefresh.store hblank₀
      (Cache.isBlank_invalidateIfExpired hexpired)
  · have hsame : b.expire = b := by
      rw [Basis.expire, Cache.invalidateIfExpired, if_neg hexpired]
    rwa [hsame]

/-- What a call from a refresh writes back makes another refresh. -/
theorem IsRefreshOf.enter_writes (hconsistent : d.topology.IsConsistent)
    (hrefresh : b₀.IsRefreshOf d b) {name : String} {n : Node}
    (hn : d.topology.node? name = some n) :
    b₀.IsRefreshOf d (b.enter (Visit.writes n n.sockets (b.visits d n))) := by
  refine ⟨hrefresh.store, ?_⟩
  intro name' n' hn' socket' hsocket'
  set writes := Visit.writes n n.sockets (b.visits d n) with hwrites
  have hkeys : (writes.map Prod.fst).Nodup :=
    Visit.nodup_keys_writes (hconsistent.nodup_sockets hn) _
  by_cases hwritten : n'.key socket' ∈ writes.map Prod.fst
  · obtain ⟨⟨k, e⟩, hwrite, rfl⟩ := List.mem_map.mp hwritten
    obtain ⟨socket, v, hzip, hkey, hlearned⟩ := Visit.exists_of_mem_writes hwrite
    obtain ⟨hsocket, rfl⟩ := Visit.mem_zip_throughCrash hzip
    obtain ⟨rfl, rfl⟩ := hconsistent.key_inj hn' hn hsocket' hsocket hkey
    right
    rw [enter, Cache.get_record_of_mem hkeys hwrite]
    exact hrefresh.learned_visit hn hsocket hlearned
  · rw [enter, Cache.get_record_of_notMem hwritten]
    exact hrefresh.entry hn' hsocket'

/-- A call whose cache is a refresh after the expiry check leaves a refresh,
unless its node is unknown and the cache is not looked at. -/
theorem IsRefreshOf.score (hconsistent : d.topology.IsConsistent)
    (hrefresh : b₀.IsRefreshOf d b.expire) (name : String) :
    (b.score d name).2 = b ∨ b₀.IsRefreshOf d (b.score d name).2 := by
  unfold Basis.score
  cases hn : d.topology.requireNode name with
  | error e => exact Or.inl rfl
  | ok n =>
      exact Or.inr (hrefresh.enter_writes hconsistent (Topology.requireNode_eq_ok_iff.mp hn))

end Basis

end SocketRanking
