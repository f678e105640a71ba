/-!
# JSON values

`Json` is what a text says, read in order: integers and other numbers are kept apart, and an object
lists its members as they were written, repetitions included. `Json.canonical` is the value that
such an object denotes: the last of several equal keys counts, and keys are sorted.

A text that stops being JSON still has a beginning. The value read from it holds a `Fault` at the
place where the reading stopped, so that whoever decodes the value meets the faults of the text and
the faults of the data in the order in which they were written.
-/

namespace SocketRanking

/-- Why a place in a text has no value. -/
inductive Fault where
  /-- Well formed, but no value: a number out of range, half of a surrogate pair, nesting that is
  too deep. It does no harm in a place that nobody reads. -/
  | unreadable
  /-- The text stops being JSON here. -/
  | broken
  deriving DecidableEq, Repr

inductive Json where
  | null
  | bool (value : Bool)
  | int (value : Int)
  | float (value : Float)
  | string (value : String)
  | array (items : List Json)
  | object (members : List (String × Json))
  | fault (kind : Fault)
  deriving Inhabited

namespace Json

def nat (n : Nat) : Json :=
  .int n

def uint32 (n : UInt32) : Json :=
  .nat n.toNat

/-- A quantity as a value; what is not finite has no value. -/
def number (x : Float) : Json :=
  if x.isFinite then .float x else .null

def option {α : Type} (encode : α → Json) : Option α → Json
  | some a => encode a
  | none => .null

def list {α : Type} (encode : α → Json) (items : List α) : Json :=
  .array (items.map encode)

/-- The member for an optional part, left out when there is none. -/
def member? {α : Type} (key : String) (encode : α → Json) : Option α → List (String × Json)
  | some a => [(key, encode a)]
  | none => []

/-- The last member with this key. -/
def find? (key : String) (members : List (String × Json)) : Option Json :=
  match members with
  | [] => none
  | (k, v) :: rest =>
    match find? key rest with
    | some w => some w
    | none => if k = key then some v else none

/-- Enters a member in sorted order, in place of one with the same key. -/
def insert {α : Type} (key : String) (value : α) : List (String × α) → List (String × α)
  | [] => [(key, value)]
  | (k, v) :: rest =>
    match compare key k with
    | .lt => (key, value) :: (k, v) :: rest
    | .eq => (key, value) :: rest
    | .gt => (k, v) :: insert key value rest

mutual
/-- Whether the text stopped being JSON inside this value. -/
def hasBroken : Json → Bool
  | .fault .broken => true
  | .array items => anyBroken items
  | .object members => anyBrokenMember members
  | _ => false

/-- Whether the text stopped being JSON inside one of these values. -/
def anyBroken : List Json → Bool
  | [] => false
  | v :: rest => v.hasBroken || anyBroken rest

/-- Whether the text stopped being JSON inside one of these members. -/
def anyBrokenMember : List (String × Json) → Bool
  | [] => false
  | (_, v) :: rest => v.hasBroken || anyBrokenMember rest
end

mutual
def fault? : Json → Option Fault
  | .fault kind => some kind
  | .array items => faultIn? items
  | .object members => faultInMember? members
  | _ => none

def faultIn? : List Json → Option Fault
  | [] => none
  | v :: rest => v.fault? <|> faultIn? rest

def faultInMember? : List (String × Json) → Option Fault
  | [] => none
  | (_, v) :: rest => v.fault? <|> faultInMember? rest
end

mutual
/-- The value with the members of every object sorted by key, the last of equal keys alone. -/
def canonical : Json → Json
  | .array items => .array (canonicalItems items)
  | .object members => .object (canonicalMembers members [])
  | v => v

def canonicalItems : List Json → List Json
  | [] => []
  | v :: rest => v.canonical :: canonicalItems rest

/-- Enters the canonical members one after the other. -/
def canonicalMembers : List (String × Json) → List (String × Json) → List (String × Json)
  | [], sorted => sorted
  | (k, v) :: rest, sorted => canonicalMembers rest (insert k v.canonical sorted)
end

end Json

end SocketRanking
