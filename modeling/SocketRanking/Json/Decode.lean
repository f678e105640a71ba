import SocketRanking.Json.Basic
import SocketRanking.Number.Power

/-!
# Decoding JSON values

A decoder turns a value into a domain type or says what is wrong with it: the text (`malformed`) or
the data (`mismatch`). Records come as objects, whose unknown members are ignored and whose known
members may stand once, or as arrays with the parts in order. Of several faults in a record the one
that was written first counts, and a missing part is noticed last.
-/

namespace SocketRanking

/-- What is wrong with a value. -/
inductive DecodeFault where
  /-- The text is not JSON. -/
  | malformed
  /-- The value has another shape than the type asks for. -/
  | mismatch
  deriving DecidableEq, Repr

/-- Turns values into `α`. -/
abbrev Decoder (α : Type) := Json → Except DecodeFault α

namespace Decoder

/-- Refuses a value that has not the shape asked for. -/
def refuse {α : Type} : Decoder α
  | .fault _ => .error .malformed
  | _ => .error .mismatch

def bool : Decoder Bool
  | .bool b => .ok b
  | v => refuse v

/-- A text. -/
def string : Decoder String
  | .string s => .ok s
  | v => refuse v

/-- A count: an integer that is not negative. -/
def nat : Decoder Nat
  | .int n => if 0 ≤ n then .ok n.toNat else .error .mismatch
  | v => refuse v

/-- An integer of 32 bits without sign. -/
def uint32 : Decoder UInt32
  | .int n => if Number.fitsUnsigned 32 n then .ok (UInt32.ofNat n.toNat) else .error .mismatch
  | v => refuse v

/-- An integer of 64 bits with sign. -/
def int64 : Decoder Int64
  | .int n => if Number.fitsSigned 64 n then .ok (Int64.ofInt n) else .error .mismatch
  | v => refuse v

/-- A quantity: any number. -/
def float : Decoder Float
  | .int n => .ok (Float.ofInt n)
  | .float x => .ok x
  | v => refuse v

/-- Any value, in canonical form. -/
def raw : Decoder Json := fun v =>
  if v.fault?.isSome then .error .malformed else .ok v.canonical

def items {α : Type} (item : Decoder α) : List Json → Except DecodeFault (List α)
  | [] => .ok []
  | v :: rest => do
    let a ← item v
    let as ← items item rest
    return a :: as

def list {α : Type} (item : Decoder α) : Decoder (List α)
  | .array vs => items item vs
  | v => refuse v

/-- Two items; an item too many is a fault of the text. -/
def pair {α : Type} (item : Decoder α) : Decoder (α × α)
  | .array (v :: w :: rest) => do
    let a ← item v
    let b ← item w
    if rest.isEmpty then return (a, b) else .error .malformed
  | .array vs => do
    let _ ← items item vs
    .error .mismatch
  | v => refuse v

def orNull {α : Type} (some? : Decoder α) : Decoder (Option α)
  | .null => .ok none
  | v => (some? v).map some

/-- Entries one after the other; the last of equal keys counts. -/
def entries {α : Type} (value : Decoder α) :
    List (String × Json) → List (String × α) → Except DecodeFault (List (String × α))
  | [], sorted => .ok sorted
  | (k, v) :: rest, sorted => do
    let a ← value v
    entries value rest (Json.insert k a sorted)

/-- An object with any keys, as entries sorted by key. -/
def map {α : Type} (value : Decoder α) : Decoder (List (String × α))
  | .object members => entries value members []
  | v => refuse v

/-- One of a few names, as a text or as an object that holds null under the name. -/
def oneOf {α : Type} (names : List (String × α)) : Decoder α := fun v =>
  let named (key : String) : Except DecodeFault α :=
    match names.lookup key with
    | some a => .ok a
    | none => .error .mismatch
  match v with
  | .string key => named key
  | .object [(key, .null)] => named key
  | v => if v.hasBroken then .error .malformed else refuse v

end Decoder

/-- A part of a record: its key and its decoder. -/
structure Field (α : Type) where
  key : String
  decode : Decoder α

/-- A field without its type: what is wrong with a value at its place. -/
structure Probe where
  key : String
  fault? : Json → Option DecodeFault

/-- What is wrong with a value at the place of a field. -/
def Field.probe {α : Type} (f : Field α) : Probe where
  key := f.key
  fault? v := match f.decode v with
    | .ok _ => none
    | .error e => some e

/-- The parts of a record that were written. -/
structure Slots where
  /-- Whether the parts were written in order, without keys. -/
  positional : Bool
  parts : List (String × Json)

namespace Slots

/-- A part that must be there. -/
def required {α : Type} (slots : Slots) (f : Field α) : Except DecodeFault α :=
  match slots.parts.lookup f.key with
  | some v => f.decode v
  | none => .error .mismatch

/-- A part with a value of its own where it is missing. -/
def defaulted {α : Type} (slots : Slots) (f : Field α) (default : α) : Except DecodeFault α :=
  match slots.parts.lookup f.key with
  | some v => f.decode v
  | none => .ok default

/-- A part that may be missing, but not among parts without keys. -/
def optional {α : Type} (slots : Slots) (f : Field (Option α)) : Except DecodeFault (Option α) :=
  match slots.parts.lookup f.key with
  | some v => f.decode v
  | none => if slots.positional then .error .mismatch else .ok none

end Slots

namespace Decoder

/-- The first fault among the members of an object, given the keys that were seen before. -/
def memberFault? (fields : List Probe) : List String → List (String × Json) → Option DecodeFault
  | _, [] => none
  | seen, (k, v) :: rest =>
    match fields.find? (·.key = k) with
    | some f =>
      if seen.contains k then some .mismatch
      else f.fault? v <|> memberFault? fields (k :: seen) rest
    | none => if v.hasBroken then some .malformed else memberFault? fields seen rest

/-- The first fault among parts without keys; a part too many is one. -/
def partFault? : List Probe → List Json → Option DecodeFault
  | _, [] => none
  | [], _ :: _ => some .malformed
  | f :: fields, v :: rest => f.fault? v <|> partFault? fields rest

/-- A record with these fields, put together from its parts. -/
def record {α : Type} (fields : List Probe) (build : Slots → Except DecodeFault α) : Decoder α
  | .object members =>
    match memberFault? fields [] members with
    | some fault => .error fault
    | none => build ⟨false, members⟩
  | .array parts =>
    match partFault? fields parts with
    | some fault => .error fault
    | none => build ⟨true, (fields.map (·.key)).zip parts⟩
  | v => refuse v

/-- A record that comes as an object only and whose unknown members must be readable too. -/
def openRecord {α : Type} (fields : List Probe) (build : Slots → Except DecodeFault α) : Decoder α
  | .object members =>
    if (Json.object members).fault?.isSome then .error .malformed
    else record fields build (.object members)
  | v => refuse v

end Decoder

end SocketRanking
