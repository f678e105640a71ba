import SocketRanking.Config.Value
import SocketRanking.Number.Decimal
import SocketRanking.Number.Power

/-!
# Configuration paths

The keys at the top of a configuration are paths: a name, then names after points and positions in
brackets. A path leads to a place in the tree, and what stands in its way is replaced. A key that is
no path is a plain name.
-/

namespace SocketRanking.Config

open SocketRanking.Number

inductive Step where
  | child (name : String)
  /-- A position in a list; a negative one counts from the end. -/
  | position (index : Int)
  deriving DecidableEq, Repr

/-- A name at the top and the steps from there. -/
structure Path where
  root : String
  steps : List Step
  deriving DecidableEq, Repr

namespace Path

def isNameChar (c : Char) : Bool :=
  c.isAlphanum || c = ' ' || c = '_' || c = '-'

/-- Splits a name off. -/
def readName? (text : List Char) : Option (String × List Char) :=
  let name := text.takeWhile isNameChar
  if name.isEmpty then none else some (String.ofList name, text.drop name.length)

/-- Splits a position off, after its opening bracket. -/
def readPosition? (text : List Char) : Option (Int × List Char) :=
  let (negative, text) := match text with
    | '-' :: rest => (true, rest)
    | _ => (false, text)
  let (digits, rest) := spanDigits text
  let value : Int := if negative then -(digitsValue digits : Int) else digitsValue digits
  match rest with
  | ']' :: rest =>
    if digits.isEmpty || !fitsSigned 64 value then none else some (value, rest)
  | _ => none

/-- Reads steps to the end of the text; every step takes up at least one character. -/
def readSteps? : Nat → List Char → Option (List Step)
  | _, [] => some []
  | fuel + 1, '.' :: text => do
    let (name, rest) ← readName? text
    let steps ← readSteps? fuel rest
    some (.child name :: steps)
  | fuel + 1, '[' :: text => do
    let (index, rest) ← readPosition? text
    let steps ← readSteps? fuel rest
    some (.position index :: steps)
  | _, _ => none

def ofKey (key : String) : Path :=
  let path? := do
    let (root, rest) ← readName? key.toList
    let steps ← readSteps? rest.length rest
    some { root, steps : Path }
  path?.getD { root := key, steps := [] }

/-- Steps with names in lower case; names inside of lists stay as they are. -/
def lowerSteps : List Step → List Step
  | .child name :: rest => .child (Text.lowercase name) :: lowerSteps rest
  | steps => steps

/-- The place of a position in a list of this length. -/
def place (index : Int) (length : Nat) : Nat :=
  if 0 ≤ index then index.toNat else length - index.natAbs

/-- A list with a value at a position, filled up with nulls. -/
def setAt (items : List Value) (n : Nat) (v : Value) : List Value :=
  (items ++ List.replicate (n + 1 - items.length) Value.null).set n v

/-- Changes the value at the end of steps. -/
def update (change : Value → Value) : List Step → Value → Value
  | [], v => change v
  | .child name :: rest, v =>
    .table (Json.insert name (update change rest ((v.entries.lookup name).getD .null)) v.entries)
  | .position index :: rest, v =>
    let n := place index v.items.length
    .list (setAt v.items n (update change rest (v.items[n]?.getD .null)))

/-- Enters a value at the place to which the path leads. -/
def set (p : Path) (v : Value) (root : Value) : Value :=
  if p.steps.isEmpty then root.enter p.root v
  else update (·.combine v) (lowerSteps (.child p.root :: p.steps)) root

end Path

end SocketRanking.Config
