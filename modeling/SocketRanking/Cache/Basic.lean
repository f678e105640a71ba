import SocketRanking.Cache.Entry
import SocketRanking.Cluster.Topology

/-!
# The telemetry cache

One entry per socket and a single timer for all of them. Every measurement restarts the timer; when
it runs out, all entries become unknown at once. Times are milliseconds on the clock of the service.
-/

namespace SocketRanking

/-- Entries by socket, when they were last refreshed, and how long they hold. -/
structure Cache (α : Type) where
  entries : Std.TreeMap SocketKey (Entry α)
  refreshedAt : Nat
  ttl : Nat

/-- One line of a snapshot. -/
structure CachedSocket (α : Type) where
  key : SocketKey
  entry : Entry α
  fresh : Bool
  deriving DecidableEq, Repr

namespace Cache

variable {α : Type} [Scalar α]

/-- A cache with every key unknown, its timer started at `now`. -/
def seeded (ttl : Nat) (keys : List SocketKey) (now : Nat) : Cache α :=
  { entries := keys.foldl (fun map k => map.insert k .unknown) ∅, refreshedAt := now, ttl }

/-- The entry of a socket; a socket without one is unknown. -/
def get (c : Cache α) (k : SocketKey) : Entry α :=
  c.entries.getD k .unknown

def contains (c : Cache α) (k : SocketKey) : Bool :=
  c.entries.contains k

/-- Enters a fresh measurement and restarts the timer. -/
def update (c : Cache α) (k : SocketKey) (e : Entry α) (now : Nat) : Cache α :=
  { c with entries := c.entries.insert k e, refreshedAt := now }

/-- Folds a placed workload into the entry of a socket. A socket without an entry is left alone. -/
def place (c : Cache α) (k : SocketKey) (profile : AppProfile α) (cores : Nat)
    (countsTowardIdle : Bool) : Cache α :=
  { c with entries := c.entries.modify k (·.place profile cores countsTowardIdle) }

/-- Makes every entry unknown; the timer runs on. -/
def clean (c : Cache α) : Cache α :=
  { c with entries := c.entries.map fun _ _ => .unknown }

/-- When the timer runs out. -/
def deadline (c : Cache α) : Nat :=
  c.refreshedAt + c.ttl

def isExpired (c : Cache α) (now : Nat) : Bool :=
  c.ttl ≤ now - c.refreshedAt

/-- Makes every entry unknown and restarts the timer. -/
def sweep (c : Cache α) (now : Nat) : Cache α :=
  { c.clean with refreshedAt := now }

/-- Sweeps the cache if its timer has run out. -/
def invalidateIfExpired (c : Cache α) (now : Nat) : Cache α :=
  if c.isExpired now then c.sweep now else c

/-- All entries, sorted by node name and socket number. -/
def snapshot (c : Cache α) : List (CachedSocket α) :=
  c.entries.toList.map fun (key, entry) => { key, entry, fresh := entry.isFresh }

end Cache

end SocketRanking
