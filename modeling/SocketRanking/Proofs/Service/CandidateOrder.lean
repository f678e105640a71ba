import SocketRanking.Proofs.Cache.Content
import SocketRanking.Proofs.Service.Refresh

/-!
# The order of the candidates

Candidates of a ranking share the cache, its timer and the store, so scoring one
host may sweep the cache or fill it before the next one is scored.  Still neither
the ranking nor, unless the cache holds for no time at all, the content of the
cache afterwards depends on their order.

Calls for different nodes commute, because they read and write different keys and
the cache cannot expire between them.  The outcome for a host is settled by the
cache after the first expiry check, because every later cache is a refresh of
that one.  And the order in which hosts are listed ties only identical rows.
-/

namespace SocketRanking

variable {σ α : Type} [Scalar α]

/-! ## Calls for different nodes commute -/

namespace Basis

/-- The same state with alike caches. -/
structure Alike (a b : Basis σ α) : Prop where
  cache : a.cache.Alike b.cache
  store : a.store = b.store
  now : a.now = b.now
  sweeping : a.sweeping = b.sweeping

variable {d : Deployment σ α} {a b : Basis σ α}

omit [Scalar α] in
theorem Alike.refl (b : Basis σ α) : b.Alike b :=
  ⟨.refl b.cache, rfl, rfl, rfl⟩

omit [Scalar α] in
theorem Alike.trans {a b c : Basis σ α} (hfirst : a.Alike b) (hsecond : b.Alike c) :
    a.Alike c :=
  ⟨hfirst.cache.trans hsecond.cache, hfirst.store.trans hsecond.store,
    hfirst.now.trans hsecond.now, hfirst.sweeping.trans hsecond.sweeping⟩

theorem Alike.expire (halike : a.Alike b) : a.expire.Alike b.expire where
  cache := by
    simp only [Basis.expire, halike.now]
    exact halike.cache.invalidateIfExpired b.now
  store := halike.store
  now := halike.now
  sweeping := halike.sweeping

/-- Alike states visit sockets alike. -/
theorem Alike.visit (halike : a.Alike b) (d : Deployment σ α) (n : Node) :
    a.visit d n = b.visit d n := by
  funext socket
  rw [Basis.visit, Basis.visit, halike.store, halike.cache.get]

omit [Scalar α] in
theorem Alike.enter (halike : a.Alike b) (writes : List (SocketKey × Entry α)) :
    (a.enter writes).Alike (b.enter writes) where
  cache := by
    simp only [Basis.enter, halike.now]
    exact halike.cache.record b.now writes
  store := halike.store
  now := halike.now
  sweeping := halike.sweeping

omit [Scalar α] in
/-- What was learned of different sockets may be entered in any order. -/
theorem enter_perm (b : Basis σ α) {writes writes' : List (SocketKey × Entry α)}
    (hperm : writes.Perm writes') (hkeys : (writes.map Prod.fst).Nodup) :
    (b.enter writes).Alike (b.enter writes') :=
  ⟨Cache.record_perm hperm hkeys b.cache b.now, rfl, rfl, rfl⟩

theorem Alike.score (halike : a.Alike b) (name : String) :
    (a.score d name).2.Alike (b.score d name).2 := by
  unfold Basis.score
  cases d.topology.requireNode name with
  | error e => exact halike
  | ok n =>
      have hvisits : a.expire.visits d n = b.expire.visits d n := by
        rw [visits, visits, halike.expire.visit]
      dsimp only
      rw [hvisits]
      exact halike.expire.enter _

theorem Alike.scoreAll (halike : a.Alike b) (hosts : List String) :
    (a.scoreAll d hosts).2.Alike (b.scoreAll d hosts).2 := by
  induction hosts generalizing a b with
  | nil => exact halike
  | cons host rest ih => exact ih (halike.score host)

theorem ttl_score (d : Deployment σ α) (b : Basis σ α) (name : String) :
    (b.score d name).2.cache.ttl = b.cache.ttl := by
  unfold score
  cases d.topology.requireNode name with
  | error e => rfl
  | ok n => simp [enter, expire]

/-- A cache that holds for some time does not expire while the clock stands still. -/
theorem expire_enter_expire (hholds : 0 < b.cache.ttl)
    (writes : List (SocketKey × Entry α)) :
    (b.expire.enter writes).expire = b.expire.enter writes := by
  have hrunning := Cache.isExpired_record_invalidateIfExpired hholds b.now writes
  have hsame : (b.expire.enter writes).cache.invalidateIfExpired b.now =
      (b.expire.enter writes).cache :=
    if_neg (by simpa [enter, expire] using hrunning)
  exact congrArg (fun cache => { b.expire.enter writes with cache }) hsame

/-- Calls for two nodes, one after the other, write what each of them would write
alone. -/
theorem score_score (hholds : 0 < b.cache.ttl) {name name' : String} {n n' : Node}
    (hn : d.topology.requireNode name = .ok n)
    (hn' : d.topology.requireNode name' = .ok n') (hapart : n.name ≠ n'.name) :
    ((b.score d name).2.score d name').2 =
      b.expire.enter (Visit.writes n n.sockets (b.expire.visits d n) ++
        Visit.writes n' n'.sockets (b.expire.visits d n')) := by
  have hvisits : (b.expire.enter (Visit.writes n n.sockets (b.expire.visits d n))).visits d n' =
      b.expire.visits d n' :=
    visits_enter_writes hapart n.sockets (b.expire.visits d n)
  simp only [score, hn, hn']
  rw [expire_enter_expire hholds, hvisits, ← enter_append]

theorem score_comm (hconsistent : d.topology.IsConsistent) (hholds : 0 < b.cache.ttl)
    {name name' : String} (hne : name ≠ name') :
    ((b.score d name).2.score d name').2.Alike ((b.score d name').2.score d name).2 := by
  cases hrequire : d.topology.requireNode name with
  | error e =>
      have hidle : ∀ b : Basis σ α, (b.score d name).2 = b := fun b => by
        simp [score, hrequire]
      rw [hidle, hidle]
      exact .refl _
  | ok n =>
      cases hrequire' : d.topology.requireNode name' with
      | error e =>
          have hidle : ∀ b : Basis σ α, (b.score d name').2 = b := fun b => by
            simp [score, hrequire']
          rw [hidle, hidle]
          exact .refl _
      | ok n' =>
          have hn := Topology.requireNode_eq_ok_iff.mp hrequire
          have hn' := Topology.requireNode_eq_ok_iff.mp hrequire'
          have hapart : n.name ≠ n'.name := by
            rwa [hconsistent.name_eq hn, hconsistent.name_eq hn']
          rw [score_score hholds hrequire hrequire' hapart,
            score_score hholds hrequire' hrequire hapart.symm]
          refine enter_perm _ List.perm_append_comm ?_
          rw [List.map_append, List.nodup_append]
          refine ⟨Visit.nodup_keys_writes (hconsistent.nodup_sockets hn) _,
            Visit.nodup_keys_writes (hconsistent.nodup_sockets hn') _, ?_⟩
          intro k hk k' hk' hsame
          exact hapart ((Visit.node_eq_of_mem_writes hk).symm.trans
            (hsame ▸ Visit.node_eq_of_mem_writes hk'))

/-- The cache after a ranking does not depend on the order of the hosts. -/
theorem scoreAll_perm (hconsistent : d.topology.IsConsistent) {hosts hosts' : List String}
    (hperm : hosts.Perm hosts') (hholds : 0 < b.cache.ttl) :
    (b.scoreAll d hosts).2.Alike (b.scoreAll d hosts').2 := by
  induction hperm generalizing b with
  | nil => exact .refl b
  | cons host _ ih => exact ih ((ttl_score d b host).symm ▸ hholds)
  | swap first second rest =>
      by_cases hsame : second = first
      · rw [hsame]
        exact .refl _
      · exact (score_comm hconsistent hholds hsame).scoreAll rest
  | trans _ _ ihone ihtwo => exact (ihone hholds).trans (ihtwo hholds)

/-! ## Outcomes are settled by the first expiry check -/

/-- Every host of a ranking comes out as it would from the cache after the first
expiry check. -/
theorem scoreAll_outcomes (hconsistent : d.topology.IsConsistent) (b : Basis σ α)
    (hosts : List String) :
    (b.scoreAll d hosts).1 = hosts.map fun host => (host, b.expire.outcome d host) := by
  have hstart : b.expire.cache.IsBlank ∨ 0 < b.cache.ttl := by
    rcases Nat.eq_zero_or_pos b.cache.ttl with hzero | hholds
    · refine Or.inl (Cache.isBlank_invalidateIfExpired (Cache.isExpired_iff.mpr ?_))
      omega
    · exact Or.inr hholds
  refine (scoreAll_induction (P := fun b' => b.expire.IsRefreshOf d b'.expire ∧
    (b.expire.cache.IsBlank ∨ 0 < b'.cache.ttl)) ?_ hosts ⟨.refl d b.expire, hstart⟩).1
  rintro b' host ⟨hrefresh, hcase⟩
  refine ⟨(score_outcome d b' host).trans (hrefresh.outcome host), ?_, ?_⟩
  · rcases hrefresh.score hconsistent host with hsame | hscored
    · rwa [hsame]
    · rcases hcase with hblank | hholds
      · exact hscored.expire hblank
      · have hstays : (b'.score d host).2.expire = (b'.score d host).2 ∨
            (b'.score d host).2 = b' := by
          unfold Basis.score
          cases d.topology.requireNode host with
          | error e => exact Or.inr rfl
          | ok n => exact Or.inl (expire_enter_expire hholds _)
        rcases hstays with hstays | hsame
        · rwa [hstays]
        · rwa [hsame]
  · rwa [ttl_score]

theorem node_of_outcome (hconsistent : d.topology.IsConsistent) {b : Basis σ α}
    {name : String} {r : ScoringResult α} (hr : b.outcome d name = .ok r) :
    r.node = name := by
  unfold outcome at hr
  cases hn : d.topology.requireNode name with
  | error e =>
      rw [hn] at hr
      cases hr
  | ok n =>
      rw [hn] at hr
      have hname := hconsistent.name_eq (Topology.requireNode_eq_ok_iff.mp hn)
      simp only [Deployment.conclude] at hr
      split at hr
      · cases hr
      · split at hr
        · cases hr
        · obtain rfl := Except.ok.inj hr
          exact hname

end Basis

/-! ## Sorting rows by host -/

/-- A host that is listed several times has that many rows, all alike. -/
theorem filter_filterMap_eq_replicate {β : Type} {row : String → Option β}
    {nameOf : β → String} (hname : ∀ host a, row host = some a → nameOf a = host)
    (hosts : List String) (host : String) :
    (hosts.filterMap row).filter (nameOf · = host) =
      (row host).elim [] (List.replicate (hosts.count host)) := by
  induction hosts with
  | nil => cases row host <;> rfl
  | cons first rest ih =>
      by_cases hfirst : first = host
      · subst hfirst
        cases hrow : row first with
        | none =>
            rw [hrow] at ih
            simpa [hrow] using ih
        | some a =>
            rw [hrow] at ih
            simpa [hrow, hname first a hrow, List.replicate_succ] using ih
      · rw [List.count_cons_of_ne hfirst, ← ih]
        cases hrow : row first with
        | none => simp [hrow]
        | some a => simp [hrow, hname first a hrow, hfirst]

/-- Sorting leaves the rows of a host as they are, since they are all alike. -/
theorem filter_mergeSort_eq {β : Type} {l : List β} {p : β → Bool} {n : Nat} {a? : Option β}
    (hrows : l.filter p = a?.elim [] (List.replicate n)) (le : β → β → Bool) :
    (l.mergeSort le).filter p = a?.elim [] (List.replicate n) := by
  have hperm : ((l.mergeSort le).filter p).Perm (a?.elim [] (List.replicate n)) :=
    hrows ▸ (List.mergeSort_perm l le).filter p
  cases a? with
  | none => exact hperm.eq_nil
  | some a => exact List.perm_replicate.mp hperm

/-- Sorting does not depend on the order of a list when only equal elements tie. -/
theorem mergeSort_eq_of_perm {β : Type} {le : β → β → Bool}
    (htrans : ∀ a b c, le a b = true → le b c = true → le a c = true)
    (htotal : ∀ a b, (le a b || le b a) = true) {l l' : List β} (hperm : l.Perm l')
    (hties : ∀ a ∈ l, ∀ b ∈ l, le a b = true → le b a = true → a = b) :
    l.mergeSort le = l'.mergeSort le := by
  have hsame : (l.mergeSort le).Perm (l'.mergeSort le) :=
    (List.mergeSort_perm l le).trans (hperm.trans (List.mergeSort_perm l' le).symm)
  refine List.Perm.eq_of_pairwise ?_ (List.pairwise_mergeSort htrans htotal l)
    (List.pairwise_mergeSort htrans htotal l') hsame
  intro a b ha hb
  exact hties a (List.mem_mergeSort.mp ha) b
    (hperm.mem_iff.mpr (List.mem_mergeSort.mp hb))

/-- Rows of the same host tie only with themselves. -/
theorem eq_of_mem_filterMap {β : Type} {row : String → Option β} {nameOf : β → String}
    (hname : ∀ host a, row host = some a → nameOf a = host) {hosts : List String} {a b : β}
    (ha : a ∈ hosts.filterMap row) (hb : b ∈ hosts.filterMap row)
    (hsame : nameOf a = nameOf b) : a = b := by
  obtain ⟨host, -, hrow⟩ := List.mem_filterMap.mp ha
  obtain ⟨host', -, hrow'⟩ := List.mem_filterMap.mp hb
  rw [hname host a hrow, hname host' b hrow'] at hsame
  exact Option.some.inj (hrow.symm.trans (hsame ▸ hrow'))

/-! ## Rows of a ranking -/

section Rows

variable (f : String → Except Trouble (ScoringResult α))

def HostPriority.ofOutcome? (host : String) : Option (HostPriority α) :=
  match f host with
  | .ok r => some (.ofResult r)
  | .error _ => none

def HostFailure.ofOutcome? (host : String) : Option HostFailure :=
  match f host with
  | .ok _ => none
  | .error trouble => some (trouble.hostFailure host)

omit [Scalar α] in
theorem Tally.ofOutcomes_map (hosts : List String) :
    Tally.ofOutcomes (hosts.map fun host => (host, f host)) =
      { priorities := hosts.filterMap (HostPriority.ofOutcome? f)
        failures := hosts.filterMap (HostFailure.ofOutcome? f) } := by
  induction hosts with
  | nil => rfl
  | cons host rest ih =>
      rw [List.map_cons]
      cases hf : f host with
      | ok r =>
          simp [Tally.ofOutcomes, ih, hf, HostPriority.ofOutcome?, HostFailure.ofOutcome?]
      | error trouble =>
          simp [Tally.ofOutcomes, ih, hf, HostPriority.ofOutcome?, HostFailure.ofOutcome?]

variable {f}

omit [Scalar α] in
theorem HostPriority.ofOutcome?_eq_some_iff {host : String} {row : HostPriority α} :
    ofOutcome? f host = some row ↔ ∃ r, f host = .ok r ∧ row = .ofResult r := by
  unfold ofOutcome?
  cases f host <;> simp [eq_comm]

omit [Scalar α] in
theorem HostFailure.ofOutcome?_eq_some_iff {host : String} {failure : HostFailure} :
    ofOutcome? f host = some failure ↔ ∃ t, f host = .error t ∧ failure = t.hostFailure host := by
  unfold ofOutcome?
  cases f host <;> simp [eq_comm]

theorem Trouble.host_hostFailure (t : Trouble) (host : String) :
    (t.hostFailure host).host = host := by
  cases t <;> rfl

omit [Scalar α] in
theorem HostPriority.host_of_ofOutcome? (hname : ∀ host r, f host = .ok r → r.node = host)
    (host : String) (row : HostPriority α) (hrow : ofOutcome? f host = some row) :
    row.host = host := by
  obtain ⟨r, hr, rfl⟩ := ofOutcome?_eq_some_iff.mp hrow
  exact hname host r hr

omit [Scalar α] in
theorem HostFailure.host_of_ofOutcome? (host : String) (failure : HostFailure)
    (hfailure : ofOutcome? f host = some failure) : failure.host = host := by
  obtain ⟨t, -, rfl⟩ := ofOutcome?_eq_some_iff.mp hfailure
  exact t.host_hostFailure host

theorem HostFailure.hostLE_trans (a b c : HostFailure) (hab : decide (a.host ≤ b.host) = true)
    (hbc : decide (b.host ≤ c.host) = true) : decide (a.host ≤ c.host) = true :=
  decide_eq_true (String.le_trans (of_decide_eq_true hab) (of_decide_eq_true hbc))

theorem HostFailure.hostLE_total (a b : HostFailure) :
    (decide (a.host ≤ b.host) || decide (b.host ≤ a.host)) = true := by
  simpa using String.le_total a.host b.host

end Rows

namespace PriorityList

section Order

variable [LawfulScalar α]

theorem rankedBefore_iff {a b : HostPriority α} :
    rankedBefore a b = true ↔ Scalar.rankLE b.finalScore a.finalScore = true ∧
      (Scalar.rankLE a.finalScore b.finalScore = true → a.host ≤ b.host) := by
  unfold rankedBefore
  have htotal := LawfulScalar.rankLE_total a.finalScore b.finalScore
  by_cases hab : Scalar.rankLE a.finalScore b.finalScore = true
  · by_cases hba : Scalar.rankLE b.finalScore a.finalScore = true <;> simp [hab, hba]
  · simp [hab, htotal.resolve_left hab]

theorem rankedBefore_trans (a b c : HostPriority α) (hab : rankedBefore a b = true)
    (hbc : rankedBefore b c = true) : rankedBefore a c = true := by
  rw [rankedBefore_iff] at hab hbc ⊢
  refine ⟨LawfulScalar.rankLE_trans hbc.1 hab.1, fun hac => ?_⟩
  have hhosts := hab.2 (LawfulScalar.rankLE_trans hac hbc.1)
  exact String.le_trans hhosts (hbc.2 (LawfulScalar.rankLE_trans hab.1 hac))

theorem rankedBefore_total (a b : HostPriority α) :
    (rankedBefore a b || rankedBefore b a) = true := by
  rw [Bool.or_eq_true, rankedBefore_iff, rankedBefore_iff]
  have htotal := LawfulScalar.rankLE_total a.finalScore b.finalScore
  by_cases hab : Scalar.rankLE a.finalScore b.finalScore = true
  · by_cases hba : Scalar.rankLE b.finalScore a.finalScore = true
    · simpa [hab, hba] using String.le_total a.host b.host
    · exact Or.inr ⟨hab, fun h => absurd h hba⟩
  · exact Or.inl ⟨htotal.resolve_left hab, fun h => absurd h hab⟩

theorem host_eq_of_rankedBefore {a b : HostPriority α} (hab : rankedBefore a b = true)
    (hba : rankedBefore b a = true) : a.host = b.host := by
  rw [rankedBefore_iff] at hab hba
  exact String.le_antisymm (hab.2 hba.1) (hba.2 hab.1)

end Order

/-- The rows of a host: as many as it is listed times, in one of the two lists. -/
def HasRows (list : PriorityList α) (host : String) (count : Nat) : Prop :=
  (∃ row, list.priorities.filter (·.host = host) = List.replicate count row ∧
      list.failures.filter (·.host = host) = []) ∨
    ∃ failure, list.priorities.filter (·.host = host) = [] ∧
      list.failures.filter (·.host = host) = List.replicate count failure

variable {f : String → Except Trouble (ScoringResult α)}

theorem ofTally_perm [LawfulScalar α] (hname : ∀ host r, f host = .ok r → r.node = host)
    {hosts hosts' : List String} (hperm : hosts.Perm hosts') (workload : String) :
    ofTally workload (.ofOutcomes (hosts.map fun host => (host, f host))) =
      ofTally workload (.ofOutcomes (hosts'.map fun host => (host, f host))) := by
  have hpriorities := mergeSort_eq_of_perm rankedBefore_trans rankedBefore_total
    (hperm.filterMap (HostPriority.ofOutcome? f)) fun a ha b hb hab hba =>
      eq_of_mem_filterMap (HostPriority.host_of_ofOutcome? hname) ha hb
        (host_eq_of_rankedBefore hab hba)
  have hfailures : (hosts.filterMap (HostFailure.ofOutcome? f)).mergeSort
        (fun a b => decide (a.host ≤ b.host)) =
      (hosts'.filterMap (HostFailure.ofOutcome? f)).mergeSort
        fun a b => decide (a.host ≤ b.host) := by
    refine mergeSort_eq_of_perm HostFailure.hostLE_trans HostFailure.hostLE_total
      (hperm.filterMap _) fun a ha b hb hab hba => ?_
    exact eq_of_mem_filterMap HostFailure.host_of_ofOutcome? ha hb
      (String.le_antisymm (of_decide_eq_true hab) (of_decide_eq_true hba))
  rw [Tally.ofOutcomes_map, Tally.ofOutcomes_map, ofTally, ofTally, hpriorities, hfailures]

theorem hasRows_ofTally (hname : ∀ host r, f host = .ok r → r.node = host)
    (hosts : List String) (workload host : String) :
    (ofTally workload (.ofOutcomes (hosts.map fun host => (host, f host)))).HasRows host
      (hosts.count host) := by
  have hpriorities := filter_mergeSort_eq (filter_filterMap_eq_replicate
    (HostPriority.host_of_ofOutcome? hname) hosts host) rankedBefore
  have hfailures := filter_mergeSort_eq (filter_filterMap_eq_replicate
    (HostFailure.host_of_ofOutcome? (f := f)) hosts host) fun a b => decide (a.host ≤ b.host)
  rw [Tally.ofOutcomes_map]
  unfold HostPriority.ofOutcome? at hpriorities
  unfold HostFailure.ofOutcome? at hfailures
  cases hf : f host with
  | ok r =>
      rw [hf] at hpriorities hfailures
      exact Or.inl ⟨_, hpriorities, hfailures⟩
  | error trouble =>
      rw [hf] at hpriorities hfailures
      exact Or.inr ⟨_, hpriorities, hfailures⟩

end PriorityList

/-! ## Rankings -/

namespace Deployment

/-- Ranking permuted hosts gives the same list and, unless the cache holds for no
time at all, leaves the same cache; a host has as many rows as it is listed times. -/
theorem prioritize_perm [LawfulScalar α] (d : Deployment σ α) {file : TopologyFile α}
    (haccepted : Topology.ofFile file = .ok d.topology) (workload : Workload)
    {hosts hosts' : List String} (hperm : hosts.Perm hosts') (s : State σ α) :
    (d.prioritize workload hosts s).1 = (d.prioritize workload hosts' s).1 ∧
      (∀ host, (d.prioritize workload hosts s).1.HasRows host (hosts.count host)) ∧
      (0 < s.cache.ttl → (d.prioritize workload hosts s).2.cache.snapshot =
        (d.prioritize workload hosts' s).2.cache.snapshot) := by
  have hconsistent := Topology.isConsistent_of_ofFile haccepted
  have hname : ∀ host r, s.basis.expire.outcome d host = .ok r → r.node = host :=
    fun _ _ hr => Basis.node_of_outcome hconsistent hr
  have hlist : ∀ hosts, (d.prioritize workload hosts s).1 = .ofTally workload.name
      (.ofOutcomes (hosts.map fun host => (host, s.basis.expire.outcome d host))) := by
    intro hosts
    rw [← Basis.scoreAll_outcomes hconsistent, ← (tally_basis hconsistent hosts s).1]
    rfl
  refine ⟨?_, fun host => ?_, fun hholds => ?_⟩
  · rw [hlist, hlist]
    exact PriorityList.ofTally_perm hname hperm workload.name
  · rw [hlist]
    exact PriorityList.hasRows_ofTally hname hosts workload.name host
  · have halike := (Basis.scoreAll_perm hconsistent hperm (b := s.basis) hholds).cache
    rw [← (tally_basis hconsistent hosts s).2, ← (tally_basis hconsistent hosts' s).2] at halike
    exact halike.snapshot

/-- A host that is listed twice, before and after one that is not known. -/
theorem prioritize_perm_bench :
    let s := bench.start 500 3 .steady
    let list := bench.prioritize ⟨"web", none⟩ ["bench", "ghost", "bench"] s
    let list' := bench.prioritize ⟨"web", none⟩ ["ghost", "bench", "bench"] s
    list.1 = list'.1 ∧ list.1.HasRows "bench" 2 ∧
      list.2.cache.snapshot = list'.2.cache.snapshot := by
  have hperm : ["bench", "ghost", "bench"].Perm ["ghost", "bench", "bench"] := by decide
  have hholds : 0 < (bench.start 500 3 .steady).cache.ttl := by decide
  obtain ⟨hlist, hrows, hcache⟩ := prioritize_perm bench Topology.ofFile_benchFile
    ⟨"web", none⟩ hperm (bench.start 500 3 .steady)
  exact ⟨hlist, hrows "bench", hcache hholds⟩

end Deployment

end SocketRanking
