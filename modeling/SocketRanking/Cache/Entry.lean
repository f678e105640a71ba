import SocketRanking.Cluster.Profile
import SocketRanking.Failure
import SocketRanking.Number.Scalar

/-!
# Cache entries

The last known metrics of one socket. A field that is not known holds the sentinel, which stands in
the place of a measurement and is told apart from one by its value alone.
-/

namespace SocketRanking

/-- The last known metrics of a socket. -/
structure Entry (α : Type) where
  ipc : α
  memRead : α
  memWrite : α
  c6res : α
  deriving DecidableEq, Repr

namespace Entry

variable {α : Type} [Scalar α]

/-- Marks a field as unknown. -/
def sentinel : α :=
  -1.0

/-- Lower bound of an idle fraction. -/
def idleEpsilon : α :=
  1e-8

/-- The entry of a socket that was never measured. -/
def unknown : Entry α :=
  { ipc := sentinel, memRead := sentinel, memWrite := sentinel, c6res := sentinel }

def isKnown (x : α) : Bool :=
  !(x == sentinel)

def isFresh (e : Entry α) : Bool :=
  isKnown e.ipc && isKnown e.memRead && isKnown e.memWrite && isKnown e.c6res

/-- Throughput and traffic, if all three are known. -/
def performance? (e : Entry α) : Option (Performance α) :=
  if isKnown e.ipc && isKnown e.memRead && isKnown e.memWrite then
    some { ipc := e.ipc, memRead := e.memRead, memWrite := e.memWrite }
  else none

/-- The idle fraction, if it is known. -/
def idle? (e : Entry α) : Option α :=
  if isKnown e.c6res then some e.c6res else none

def measured (p : Performance α) (idle : α) : Entry α :=
  { ipc := p.ipc, memRead := p.memRead, memWrite := p.memWrite, c6res := idle }

/-- A known quantity raised by an amount; an unknown one stays unknown. -/
def raise (x amount : α) : α :=
  if isKnown x then x + amount else x

/-- The share of a socket's cores that a workload with this profile keeps busy. -/
def busyShare (profile : AppProfile α) (cores : Nat) : α :=
  (100.0 - profile.c6res) / (100.0 * Scalar.ofCount (max cores 1))

/-- The entry after a workload was placed on the socket: its traffic is added to known values, and
if the workload counts toward idle capacity, the idle fraction drops by its share, down to the
floor. -/
def place (e : Entry α) (profile : AppProfile α) (cores : Nat) (countsTowardIdle : Bool) :
    Entry α :=
  { e with
    memRead := raise e.memRead profile.memRead
    memWrite := raise e.memWrite profile.memWrite
    c6res :=
      if countsTowardIdle && isKnown e.c6res then
        Scalar.atLeast idleEpsilon (e.c6res - busyShare profile cores)
      else e.c6res }

end Entry

end SocketRanking
