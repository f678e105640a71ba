import SocketRanking.Proofs.Cache.View
import SocketRanking.Proofs.Cluster.Consistency
import SocketRanking.Service.Run

/-!
# What scoring rests on

Answers to scoring depend on the cache, the content of the store and the clock,
and on nothing else in the state: counters, health, queries and journal are
written but never read.  `Basis` is this part of the state, with the sweeper that
acts on it.

On a consistent topology the visits of one call do not disturb each other, so
all of them can be read off the basis at the start of the call:
`Basis.visits` lists them, `Basis.score` makes the outcome of them and enters
what they learned.  `scoreNode_basis` says that the service does
just this.
-/

namespace SocketRanking

variable {σ α : Type}

/-- The part of the state that scoring reads and writes. -/
structure Basis (σ α : Type) where
  cache : Cache α
  store : σ
  now : Nat
  sweeping : Bool

/-- What scoring rests on in a state. -/
def State.basis (s : State σ α) : Basis σ α :=
  { cache := s.cache, store := s.store, now := s.now, sweeping := s.sweeping }

/-! ## Visits of a call -/

namespace Visit

/-- Visits up to the first that breaks down, which is the last one made. -/
def throughCrash : List (Visit α) → List (Visit α)
  | [] => []
  | v :: rest =>
    match v.outcome with
    | .error (.crashed _) => [v]
    | _ => v :: throughCrash rest

/-- What visits of the sockets of a node write back. -/
def writes (n : Node) : List Socket → List (Visit α) → List (SocketKey × Entry α)
  | socket :: sockets, v :: visits =>
    (v.learned.toList.map fun e => (n.key socket, e)) ++ writes n sockets visits
  | _, _ => []

theorem writes_nil (n : Node) (sockets : List Socket) :
    writes n sockets ([] : List (Visit α)) = [] := by
  cases sockets <;> rfl

theorem exists_of_mem_writes {n : Node} {sockets : List Socket} {visits : List (Visit α)}
    {k : SocketKey} {e : Entry α} (hwrite : (k, e) ∈ writes n sockets visits) :
    ∃ socket v, (socket, v) ∈ sockets.zip visits ∧ k = n.key socket ∧
      v.learned = some e := by
  induction sockets generalizing visits with
  | nil => cases hwrite
  | cons socket rest ih =>
      cases visits with
      | nil => cases hwrite
      | cons v visits =>
          rw [writes, List.mem_append, List.mem_map] at hwrite
          rcases hwrite with ⟨e', he', hk⟩ | hrest
          · obtain ⟨rfl, rfl⟩ := Prod.mk.inj hk
            exact ⟨socket, v, List.mem_cons_self, rfl, Option.mem_toList.mp he'⟩
          · obtain ⟨socket', v', hmem, hk, hlearned⟩ := ih hrest
            exact ⟨socket', v', List.mem_cons_of_mem _ hmem, hk, hlearned⟩

/-- What visits of a node write goes under its name. -/
theorem node_eq_of_mem_writes {n : Node} {sockets : List Socket} {visits : List (Visit α)}
    {k : SocketKey} (hk : k ∈ (writes n sockets visits).map Prod.fst) :
    k.node = n.name := by
  obtain ⟨⟨k, e⟩, hwrite, rfl⟩ := List.mem_map.mp hk
  obtain ⟨socket, v, -, rfl, -⟩ := exists_of_mem_writes hwrite
  rfl

/-- Sockets that are numbered apart are written under different keys. -/
theorem nodup_keys_writes {n : Node} {sockets : List Socket}
    (hsockets : (sockets.map Socket.id).Nodup) (visits : List (Visit α)) :
    ((writes n sockets visits).map Prod.fst).Nodup := by
  induction sockets generalizing visits with
  | nil => exact List.nodup_nil
  | cons socket rest ih =>
      cases visits with
      | nil => exact List.nodup_nil
      | cons v visits =>
          obtain ⟨hfirst, hrest⟩ := List.nodup_cons.mp hsockets
          have hapart : n.key socket ∉ (writes n rest visits).map Prod.fst := by
            intro hmem
            obtain ⟨⟨k, e⟩, hwrite, hk⟩ := List.mem_map.mp hmem
            obtain ⟨socket', v', hzip, rfl, -⟩ := exists_of_mem_writes hwrite
            have hid := Node.key_eq_key.mp hk
            exact hfirst (hid ▸ List.mem_map_of_mem (List.of_mem_zip hzip).1)
          rw [writes]
          cases v.learned with
          | none => exact ih hrest visits
          | some e => exact List.nodup_cons.mpr ⟨hapart, ih hrest visits⟩

end Visit

namespace Deployment

/-- A deployment on the topology of one node, whose store is what it contains. -/
def bench : Deployment Source Float :=
  { topology := .bench, settings := {}, catalog := ∅, source := id }

theorem start_bench (ttl : Nat) (threshold : UInt32) (store : Source) :
    bench.start ttl threshold store =
      { cache := .seeded ttl [⟨"bench", 0⟩, ⟨"bench", 1⟩] 0
        health := .tracked threshold (bench.clock 0)
        store } := by
  rw [start, ← Topology.socketKeys_bench]
  rfl

end Deployment

/-- A store in which every socket runs and idles at the same rate. -/
def Source.steady : Source :=
  .constant [{ timestamp := 0, core := none, values :=
    [("c6res", .float 0.5), ("ipc", .int 2), ("mem_read", .int 1), ("mem_write", .int 1)] }]

variable [Scalar α]

namespace Deployment

/-- The outcome of a call whose visits went like this. -/
def conclude (d : Deployment σ α) (n : Node) (visits : List (Visit α)) :
    Except Trouble (ScoringResult α) :=
  match crash? visits with
  | some text => .error (.crashed text)
  | none =>
    match outage? visits with
    | some e => .error (.failed e)
    | none => .ok (d.result n (breakdown n.sockets visits))

end Deployment

namespace Basis

/-- Sweeps the cache if its timer has run out. -/
def expire (b : Basis σ α) : Basis σ α :=
  { b with cache := b.cache.invalidateIfExpired b.now }

/-- Enters what visits have learned. -/
def enter (b : Basis σ α) (writes : List (SocketKey × Entry α)) : Basis σ α :=
  { b with cache := b.cache.record b.now writes }

def visit (d : Deployment σ α) (b : Basis σ α) (n : Node) (socket : Socket) : Visit α :=
  .run d.settings (d.source b.store) n.uuid socket (b.cache.get (n.key socket))

/-- The visits of a call that scores a node. -/
def visits (d : Deployment σ α) (b : Basis σ α) (n : Node) : List (Visit α) :=
  Visit.throughCrash (n.sockets.map (b.visit d n))

def score (d : Deployment σ α) (b : Basis σ α) (name : String) :
    Except Trouble (ScoringResult α) × Basis σ α :=
  match d.topology.requireNode name with
  | .error e => (.error (.failed e), b)
  | .ok n =>
    (d.conclude n (b.expire.visits d n),
      b.expire.enter (Visit.writes n n.sockets (b.expire.visits d n)))

theorem visits_congr {a b : Basis σ α} (hstore : a.store = b.store)
    (hget : ∀ k, a.cache.get k = b.cache.get k) (d : Deployment σ α) (n : Node) :
    a.visits d n = b.visits d n := by
  have hvisit : a.visit d n = b.visit d n := by
    funext socket
    rw [visit, visit, hstore, hget]
  rw [visits, visits, hvisit]

theorem visit_enter_of_notMem (d : Deployment σ α) (b : Basis σ α) {n : Node}
    {socket : Socket} {writes : List (SocketKey × Entry α)}
    (hkey : n.key socket ∉ writes.map Prod.fst) :
    (b.enter writes).visit d n socket = b.visit d n socket := by
  simp only [visit, enter, Cache.get_record_of_notMem hkey]

/-- What is written for one node does not change the visits of another. -/
theorem visits_enter_writes {d : Deployment σ α} {b : Basis σ α} {n n' : Node}
    (hapart : n.name ≠ n'.name) (sockets : List Socket) (visits : List (Visit α)) :
    (b.enter (Visit.writes n sockets visits)).visits d n' = b.visits d n' := by
  have hvisit : (b.enter (Visit.writes n sockets visits)).visit d n' = b.visit d n' := by
    funext socket
    refine visit_enter_of_notMem d b fun hkey => hapart ?_
    exact (Visit.node_eq_of_mem_writes hkey).symm
  rw [Basis.visits, Basis.visits, hvisit]

omit [Scalar α] in
theorem enter_append (b : Basis σ α) (writes later : List (SocketKey × Entry α)) :
    b.enter (writes ++ later) = (b.enter writes).enter later := by
  simp only [enter, Cache.record, List.foldl_append]

end Basis

namespace Deployment

theorem basis_expire (s : State σ α) : (expire s).basis = s.basis.expire := by
  by_cases hexpired : s.cache.isExpired s.now = true
  · simp [expire, Basis.expire, Cache.invalidateIfExpired, State.basis, State.count, hexpired]
  · simp [expire, Basis.expire, Cache.invalidateIfExpired, State.basis, hexpired]

omit [Scalar α] in
theorem basis_recordVisit (d : Deployment σ α) (n : Node) (socket : Socket)
    (v : Visit α) (s : State σ α) :
    (d.recordVisit (n.key socket) v s).basis =
      s.basis.enter (v.learned.toList.map fun e => (n.key socket, e)) := by
  unfold recordVisit
  cases v.learned <;> rfl

theorem visitAll_cons (d : Deployment σ α) (n : Node) (socket : Socket)
    (rest : List Socket) (s : State σ α) :
    d.visitAll n (socket :: rest) s =
      let v := d.visit n socket s
      let s' := d.recordVisit (n.key socket) v s
      match v.outcome with
      | .error (.crashed _) => ([v], s')
      | _ => (v :: (d.visitAll n rest s').1, (d.visitAll n rest s').2) :=
  rfl

/-- The sockets of a node are visited as if each were the only one. -/
theorem visitAll_basis (d : Deployment σ α) (n : Node) {sockets : List Socket}
    (hsockets : (sockets.map Socket.id).Nodup) (s : State σ α) :
    let visits := Visit.throughCrash (sockets.map (s.basis.visit d n))
    (d.visitAll n sockets s).1 = visits ∧
      (d.visitAll n sockets s).2.basis = s.basis.enter (Visit.writes n sockets visits) := by
  induction sockets generalizing s with
  | nil => exact ⟨rfl, rfl⟩
  | cons socket rest ih =>
      obtain ⟨hfirst, hrest⟩ := List.nodup_cons.mp hsockets
      set v := s.basis.visit d n socket with hv
      set writes := v.learned.toList.map fun e => (n.key socket, e) with hwrites
      have hentered : (d.recordVisit (n.key socket) v s).basis = s.basis.enter writes :=
        basis_recordVisit d n socket v s
      -- What the first visit writes is not what the later ones read.
      have hlater : rest.map ((s.basis.enter writes).visit d n) =
          rest.map (s.basis.visit d n) := by
        refine List.map_congr_left fun other hother => ?_
        refine Basis.visit_enter_of_notMem d s.basis fun hmem => hfirst ?_
        obtain ⟨⟨k, e⟩, hwrite, hk⟩ := List.mem_map.mp hmem
        obtain ⟨e', -, hke⟩ := List.mem_map.mp hwrite
        obtain ⟨rfl, -⟩ := Prod.mk.inj hke
        exact Node.key_eq_key.mp hk ▸ List.mem_map_of_mem hother
      obtain ⟨ihvisits, ihbasis⟩ := ih hrest (d.recordVisit (n.key socket) v s)
      rw [hentered, hlater] at ihvisits ihbasis
      have hsame : d.visit n socket s = v := rfl
      rw [visitAll_cons, hsame, List.map_cons, ← hv, Visit.throughCrash]
      dsimp only
      split
      · refine ⟨rfl, ?_⟩
        rw [hentered, Visit.writes, ← hwrites, Visit.writes_nil, List.append_nil]
      · refine ⟨by rw [ihvisits], ?_⟩
        rw [ihbasis, Visit.writes, ← hwrites, Basis.enter_append]

theorem scoreNode_basis {d : Deployment σ α} (hconsistent : d.topology.IsConsistent)
    (name : String) (s : State σ α) :
    (d.scoreNode name s).1 = (s.basis.score d name).1 ∧
      (d.scoreNode name s).2.basis = (s.basis.score d name).2 := by
  unfold scoreNode Basis.score
  cases hn : d.topology.requireNode name with
  | error e => exact ⟨rfl, rfl⟩
  | ok n =>
      have hsockets := hconsistent.nodup_sockets (Topology.requireNode_eq_ok_iff.mp hn)
      obtain ⟨hvisits, hbasis⟩ := visitAll_basis d n hsockets (expire s)
      rw [basis_expire] at hvisits hbasis
      change _ = s.basis.expire.visits d n at hvisits
      change _ = s.basis.expire.enter (Visit.writes n n.sockets (s.basis.expire.visits d n))
        at hbasis
      simp only [conclude, hvisits, ← hbasis]
      cases crash? (s.basis.expire.visits d n) with
      | some text => exact ⟨rfl, rfl⟩
      | none =>
          cases outage? (s.basis.expire.visits d n) with
          | some e => exact ⟨rfl, rfl⟩
          | none => exact ⟨rfl, rfl⟩

end Deployment

end SocketRanking
