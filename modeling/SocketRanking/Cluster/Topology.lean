import SocketRanking.Failure
import SocketRanking.Number.Scalar
import Std.Data.TreeMap

/-!
# Topology

The hardware of the cluster: nodes with their sockets and cores, and classes of machines whose
scores are weighted alike. A topology is built from a description and refuses one that contradicts
itself; it does not change afterwards.
-/

namespace SocketRanking

structure SocketKey where
  node : String
  socket : UInt32
  deriving DecidableEq, Repr

namespace SocketKey

/-- By node name, then by socket number. -/
instance : Ord SocketKey :=
  ⟨compareLex (compareOn SocketKey.node) (compareOn SocketKey.socket)⟩

instance : Std.TransOrd SocketKey :=
  inferInstanceAs
    (Std.TransCmp (compareLex (compareOn SocketKey.node) (compareOn SocketKey.socket)))

instance : Std.LawfulEqOrd SocketKey where
  compare_self := Std.ReflCmp.compare_self
  eq_of_compare {a b} h := by
    obtain ⟨hn, hs⟩ := Ordering.then_eq_eq.1 h
    cases a; cases b
    simp_all [compareOn]

def text (k : SocketKey) : String :=
  k.node ++ "/" ++ toString k.socket

end SocketKey

/-- A physical package and the cores on it, in topology order. -/
structure Socket where
  id : UInt32
  cores : List UInt32
  deriving DecidableEq, Repr

def Socket.coreCount (s : Socket) : Nat :=
  s.cores.length

/-- A machine that can take workloads. -/
structure Node where
  name : String
  /-- The identity of the hardware, under which telemetry and classes are found. -/
  uuid : String
  threadsPerCore : UInt32 := 1
  maxGhz : Float := 0.0
  l1dCacheKb : UInt32 := 0
  l1iCacheKb : UInt32 := 0
  l2CacheKb : UInt32 := 0
  l3CacheKb : UInt32 := 0
  sockets : List Socket
  deriving DecidableEq

namespace Node

def socket? (n : Node) (id : UInt32) : Option Socket :=
  n.sockets.find? (·.id = id)

def coreCount (n : Node) : Nat :=
  n.sockets.foldl (fun count s => count + s.coreCount) 0

end Node

/-- How the scores of a family of machines are weighted. -/
structure HardwareClass (α : Type) where
  uuid : String
  interconnect : α × α
  maxFrequencyGhz : α
  deriving DecidableEq, Repr

namespace HardwareClass

variable {α : Type} [Scalar α]

/-- The weight of a class; machines of no class are neutral. -/
def factor : Option (HardwareClass α) → α
  | some c => c.interconnect.1 * c.interconnect.2 * c.maxFrequencyGhz
  | none => 1.0

def adjust (score : α) (c : Option (HardwareClass α)) : α :=
  score * factor c

end HardwareClass

/-- A class as a description lists it, with any number of interconnect factors. -/
structure ClassEntry (α : Type) where
  uuid : String
  interconnect : List α
  maxFrequencyGhz : α
  deriving DecidableEq, Repr

structure TopologyFile (α : Type) where
  nodes : List Node := []
  classes : List (ClassEntry α) := []

/-- The hardware of the cluster, nodes by name and classes by hardware identity. -/
structure Topology (α : Type) where
  nodes : Std.TreeMap String Node := ∅
  classes : Std.TreeMap String (HardwareClass α) := ∅

namespace Topology

variable {α : Type}

/-- The class of an entry, which needs exactly two interconnect factors. -/
def classOf (entry : ClassEntry α) : Except Failure (HardwareClass α) :=
  match entry.interconnect with
  | [a, b] =>
    .ok { uuid := entry.uuid, interconnect := (a, b), maxFrequencyGhz := entry.maxFrequencyGhz }
  | factors => .error (.unreadableConfiguration
      ("hardware class " ++ entry.uuid ++ " needs exactly two interconnect factors, got " ++
        toString factors.length))

/-- The classes of all entries, up to the first that is refused. -/
def classesOf : List (ClassEntry α) → Except Failure (List (HardwareClass α))
  | [] => .ok []
  | entry :: rest => do
    let c ← classOf entry
    let cs ← classesOf rest
    return c :: cs

/-- The first socket number that a list holds twice: the one whose repetition comes first. -/
def repeatedSocket? : List UInt32 → List Socket → Option UInt32
  | _, [] => none
  | seen, s :: rest =>
    if seen.contains s.id then some s.id else repeatedSocket? (s.id :: seen) rest

/-- Enters a node, which needs a socket, no socket twice and a name of its own. -/
def addNode (nodes : Std.TreeMap String Node) (n : Node) :
    Except Failure (Std.TreeMap String Node) :=
  if n.sockets.isEmpty then
    .error (.unreadableConfiguration ("node " ++ n.name ++ " has no sockets"))
  else
    match repeatedSocket? [] n.sockets with
    | some id => .error (.unreadableConfiguration
        ("node " ++ n.name ++ " declares socket " ++ toString id ++ " twice"))
    | none =>
      if nodes.contains n.name then
        .error (.unreadableConfiguration ("node " ++ n.name ++ " declared twice"))
      else .ok (nodes.insert n.name n)

/-- Enters nodes in order, up to the first that is refused. -/
def addNodes : Std.TreeMap String Node → List Node → Except Failure (Std.TreeMap String Node)
  | nodes, [] => .ok nodes
  | nodes, n :: rest => do addNodes (← addNode nodes n) rest

/-- Enters classes in order; of several with one identity the last counts. -/
def addClasses (classes : List (HardwareClass α)) : Std.TreeMap String (HardwareClass α) :=
  classes.foldl (fun map c => map.insert c.uuid c) ∅

/-- The topology of a consistent description. -/
def ofFile (file : TopologyFile α) : Except Failure (Topology α) := do
  let classes ← classesOf file.classes
  let nodes ← addNodes ∅ file.nodes
  return { nodes, classes := addClasses classes }

def node? (t : Topology α) (name : String) : Option Node :=
  t.nodes[name]?

/-- The node with this name, or the failure that names it. -/
def requireNode (t : Topology α) (name : String) : Except Failure Node :=
  match t.node? name with
  | some n => .ok n
  | none => .error (.unknownNode name)

def classOf? (t : Topology α) (n : Node) : Option (HardwareClass α) :=
  t.classes[n.uuid]?

def nodeCount (t : Topology α) : Nat :=
  t.nodes.size

/-- Every socket of every node, sorted by node name and socket number. -/
def socketKeys (t : Topology α) : List SocketKey :=
  let keys := t.nodes.values.flatMap fun n =>
    n.sockets.map fun s => { node := n.name, socket := s.id }
  keys.mergeSort fun a b => (compare a b).isLE

end Topology

end SocketRanking
