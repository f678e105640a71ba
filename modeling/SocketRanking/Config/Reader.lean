import SocketRanking.Config.Value
import SocketRanking.Number.Decimal
import SocketRanking.Number.Shortest

/-!
# Reading configuration values

Values are written in many ways, so reading them is lenient: numbers stand for texts and texts for
numbers, and a few words stand for truth values. A record is a table, or a list of its parts in
order.
-/

namespace SocketRanking.Config

open SocketRanking.Number

/-- Turns values into `α`. -/
abbrev Reader (α : Type) := Value → Option α

/-- The truth value that a word stands for. -/
def truth? (text : String) : Option Bool :=
  let word := Text.lowercase text
  if ["true", "on", "yes"].contains word then some true
  else if ["false", "off", "no"].contains word then some false
  else none

/-- The whole number next to a real number, kept within 64 bits; a half is rounded up. -/
def clampToWord (x : Float) : Nat :=
  if x.isNaN || x < 0.0 then 0
  else if x.isInf then twoPow 64 - 1
  else
    let b := Binary.ofFloat x
    min (roundHalfUp b.numerator b.denominator) (twoPow 64 - 1)

namespace Reader

def word : Reader Nat
  | .int n => if 0 ≤ n then some n.toNat else none
  | .real x => some (clampToWord x)
  | .bool b => some b.toNat
  | .text s =>
    match truth? s with
    | some b => some b.toNat
    | none => (readNat? s).filter (· < twoPow 64)
  | _ => none

def below (bound : Nat) : Reader Nat := fun v =>
  (word v).filter (· < bound)

def uint32 : Reader UInt32 := fun v =>
  (below (twoPow 32) v).map UInt32.ofNat

def float : Reader Float
  | .int n => some (Float.ofInt n)
  | .real x => some x
  | .bool b => some (if b then 1.0 else 0.0)
  | .text s =>
    match truth? s with
    | some b => some (if b then 1.0 else 0.0)
    | none => readFloat? s
  | _ => none

def text : Reader String
  | .text s => some s
  | .bool b => some (if b then "true" else "false")
  | .int n => some (toString n)
  | .real x => some (plainText x)
  | _ => none

def orNull {α : Type} (some? : Reader α) : Reader (Option α)
  | .null => some none
  | v => (some? v).map some

/-- One of a few names, as a text or as the only key of a table. Case does not matter. -/
def oneOf {α : Type} (names : List (String × α)) : Reader α := fun v =>
  let named (key : String) : Option α := names.lookup (Text.lowercase key)
  match v with
  | .text key => named key
  | .table [(key, _)] => named key
  | _ => none

def list {α : Type} (item : Reader α) : Reader (List α)
  | .list items => items.mapM item
  | _ => none

def map {α : Type} (value : Reader α) : Reader (List (String × α))
  | .table entries => entries.mapM fun (k, v) => (value v).map (k, ·)
  | _ => none

end Reader

/-- The parts of a record that were given. -/
abbrev Parts := List (String × Value)

namespace Parts

/-- A part that must be there. -/
def required {α : Type} (parts : Parts) (key : String) (reader : Reader α) : Option α :=
  (parts.lookup key).bind reader

/-- A part with a value of its own where it is missing. -/
def defaulted {α : Type} (parts : Parts) (key : String) (reader : Reader α) (default : α) :
    Option α :=
  match parts.lookup key with
  | some v => reader v
  | none => some default

end Parts

/-- A record with these keys, put together from its parts. -/
def Reader.record {α : Type} (keys : List String) (build : Parts → Option α) : Reader α
  | .table entries => build entries
  | .list items => build (keys.zip items)
  | _ => none

end SocketRanking.Config
