import SocketRanking.Number.Power
import SocketRanking.Text.Percent

/-!
# Hosts

The host of a URL: a name or an address. A name whose last label is a number has to be an address of
four bytes, which may be written with fewer parts and in hexadecimal or octal notation; an address
of eight pieces stands between brackets.
-/

namespace SocketRanking

/-- The host of a URL. -/
inductive Host where
  | name (text : String)
  | address4 (value : Nat)
  | address6 (pieces : List Nat)
  deriving DecidableEq, Repr

namespace Host

/-- The value of digits in a base, if all of them are digits of that base. -/
def digitsIn? (base : Nat) (digits : List Char) : Option Nat :=
  let append (n : Nat) (c : Char) : Option Nat :=
    ((Json.hexValue? c).filter (· < base)).map (n * base + ·)
  digits.foldlM append 0

/-- The value of a part of an address: decimal, octal after a zero, hexadecimal after `0x`. -/
def part? (text : List Char) : Option Nat :=
  match text with
  | [] => none
  | '0' :: 'x' :: rest | '0' :: 'X' :: rest => digitsIn? 16 rest
  | '0' :: c :: rest => digitsIn? 8 (c :: rest)
  | _ => digitsIn? 10 text

/-- The labels of a name; a point at the end does not open a label. -/
def labels (text : String) : List (List Char) :=
  let parts := (text.splitOn ".").map String.toList
  if 1 < parts.length && parts.getLast? = some [] then parts.dropLast else parts

/-- Whether the last label of a name is a number. -/
def endsInNumber (text : String) : Bool :=
  match (labels text).getLast? with
  | some last => (!last.isEmpty && last.all Char.isDigit) || (part? last).isSome
  | none => false

/-- The address that parts denote: one byte each, and all remaining bytes for the last. -/
def ofParts? : List Nat → Option Nat
  | [] => none
  | parts =>
    let leading := parts.dropLast
    let last := parts.getLastD 0
    let room := Number.twoPow (8 * (4 - leading.length))
    if 4 < parts.length || leading.any (255 < ·) || room ≤ last then none
    else some (leading.foldl (fun n b => n * 256 + b) 0 * room + last)

/-- The address of four bytes that a name denotes. -/
def address4? (text : String) : Option Nat :=
  ((labels text).mapM part?).bind ofParts?

/-- One byte of an address inside brackets: decimal, without needless zeros. -/
def byte? (text : List Char) : Option Nat :=
  if text.isEmpty || (1 < text.length && text.head? = some '0') || !text.all Char.isDigit then none
  else (digitsIn? 10 text).filter (· < 256)

/-- The two pieces that four bytes make. -/
def embedded? (text : String) : Option (List Nat) := do
  match ← (text.splitOn ".").mapM (byte? ·.toList) with
  | [a, b, c, d] => some [a * 256 + b, c * 256 + d]
  | _ => none

/-- A piece: up to four hexadecimal digits. -/
def piece? (text : String) : Option Nat :=
  if text.isEmpty || 4 < text.length then none else digitsIn? 16 text.toList

/-- The pieces of a run of groups; the last group may be four bytes if `allowed`. -/
def groups? (allowed : Bool) (text : String) : Option (List Nat) :=
  if text.isEmpty then some []
  else
    let parts := text.splitOn ":"
    let last := parts.getLastD ""
    if allowed && last.contains '.' then do
      let leading ← parts.dropLast.mapM piece?
      let bytes ← embedded? last
      some (leading ++ bytes)
    else parts.mapM piece?

/-- The address of eight pieces; a pair of colons stands for at least one piece of zero. -/
def address6? (text : String) : Option (List Nat) :=
  match text.splitOn "::" with
  | [whole] => (groups? true whole).filter (·.length = 8)
  | [before, after] => do
    let before ← groups? false before
    let after ← groups? true after
    if before.length + after.length ≤ 7 then
      some (before ++ List.replicate (8 - before.length - after.length) 0 ++ after)
    else none
  | _ => none

/-- Characters that no host holds. -/
def isForbidden (c : Char) : Bool :=
  c.toNat = 0 || "\t\n\r #/:<>?@[\\]^|".toList.contains c

/-- Characters that no name in the network holds. -/
def isForbiddenInName (c : Char) : Bool :=
  isForbidden c || c.toNat < 32 || c.toNat = 127 || c = '%'

/-- An address between brackets. -/
def bracketed? (text : List Char) : Option Host :=
  if text.getLast? = some ']' then
    (address6? (String.ofList (text.drop 1).dropLast)).map .address6
  else none

/-- The host of a URL whose scheme is known. Names outside ASCII are kept as they are. -/
def ofText? (text : List Char) : Option Host :=
  if text.head? = some '[' then bracketed? text
  else
    match Text.percentDecode? (String.ofList text) with
    | none => none
    | some decoded =>
      let name := String.ofList (decoded.toList.map Char.toLower)
      if name.isEmpty || name.toList.any isForbiddenInName then none
      else if endsInNumber name then (address4? name).map .address4
      else some (.name name)

/-- The host of a URL with any other scheme: an address, or a text that nobody interprets. -/
def ofPlainText? (text : List Char) : Option Host :=
  if text.head? = some '[' then bracketed? text
  else if text.any isForbidden then none
  else some (.name (String.ofList text))

/-- The bytes of an address with points between. -/
def address4Text (value : Nat) : String :=
  let bytes := [value / 16777216, value / 65536 % 256, value / 256 % 256, value % 256]
  ".".intercalate (bytes.map toString)

def text : Host → String
  | name text => text
  | address4 value => address4Text value
  | address6 pieces =>
    "[" ++ ":".intercalate (pieces.map fun n => String.ofList (Nat.toDigits 16 n)) ++ "]"

end Host

end SocketRanking
