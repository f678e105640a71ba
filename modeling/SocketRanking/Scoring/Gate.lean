import SocketRanking.Number.Scalar

/-!
# Idle gate and winner

A node without a whole idle core on any socket counted so far is no good place for more work: the
gate multiplies the base score of such a socket by its idle fraction. The winner is the first socket
with the strictly highest positive gated score.
-/

namespace SocketRanking

/-- Which sockets are counted before a socket is gated. -/
inductive IdleGate where
  /-- The socket itself and those before it in topology order. -/
  | inOrder
  /-- All sockets of the node. -/
  | deferred
  deriving DecidableEq, Repr, Inhabited

namespace IdleGate

def name : IdleGate → String
  | inOrder => "in_order"
  | deferred => "deferred"

def named : List (String × IdleGate) :=
  [inOrder, deferred].map fun g => (g.name, g)

end IdleGate

/-- The breakdown of a scoring call for one socket. -/
structure SocketScore (α : Type) where
  socket : UInt32
  cores : Nat
  baseScore : α
  /-- The idle fraction; none when it could not be determined. -/
  c6res : Option α
  /-- The score after the idle gate. -/
  gatedScore : α
  eligible : Bool
  deriving DecidableEq, Repr

namespace SocketScore

variable {α : Type} [Scalar α]

/-- The idle fraction expressed in whole cores. -/
def idleCores (s : SocketScore α) : Option α :=
  s.c6res.map (· * Scalar.ofCount s.cores)

/-- Whether an eligible socket has a whole idle core. -/
def hasSpareCore (s : SocketScore α) : Bool :=
  s.eligible && s.idleCores.any (1.0 ≤ ·)

/-- The score after the gate, `spare` telling whether a socket counted so far has an idle core. -/
def gatedBy (spare : Bool) (s : SocketScore α) : α :=
  if s.eligible then
    match s.c6res with
    | some c6 => if spare then s.baseScore else s.baseScore * c6
    | none => s.baseScore
  else 0.0

def gate (spare : Bool) (s : SocketScore α) : SocketScore α :=
  { s with gatedScore := s.gatedBy spare }

end SocketScore

namespace IdleGate

variable {α : Type} [Scalar α]

/-- Gates the sockets in order; `spare` tells whether one before them has an idle core. -/
def applyInOrder : Bool → List (SocketScore α) → List (SocketScore α)
  | _, [] => []
  | spare, s :: rest =>
    let spare := spare || s.hasSpareCore
    s.gate spare :: applyInOrder spare rest

def apply (mode : IdleGate) (sockets : List (SocketScore α)) : List (SocketScore α) :=
  match mode with
  | inOrder => applyInOrder false sockets
  | deferred => sockets.map (·.gate (sockets.any (·.hasSpareCore)))

end IdleGate

/-- The first socket with the strictly highest gated score above `highest`, else `best`. -/
def leader {α : Type} [Scalar α] (highest : α) (best : Option (SocketScore α)) :
    List (SocketScore α) → Option (SocketScore α)
  | [] => best
  | s :: rest =>
    if highest < s.gatedScore then leader s.gatedScore (some s) rest else leader highest best rest

/-- The first socket with the strictly highest positive gated score. -/
def winner? {α : Type} [Scalar α] (sockets : List (SocketScore α)) : Option (SocketScore α) :=
  leader 0.0 none sockets

end SocketRanking
