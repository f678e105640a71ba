import SocketRanking.Json.Basic
import SocketRanking.Number.Decimal
import SocketRanking.Number.Power

/-!
# Reading JSON text

The reader follows the strict grammar: white space is blank, tab, line feed and carriage return, a
number has no needless zeros in front, a string holds no raw control character and no half of a
surrogate pair. A number without point and exponent that fits 64 bits is an integer, any other
number a double. Which double a decimal becomes is a parameter; `read` and `readFirst` take the
nearest one. The reader never fails: where the text leaves the grammar it puts a fault and stops.
-/

namespace SocketRanking.Json

open SocketRanking.Number

/-- A value and the text after it; no text is left where the reading stopped. -/
abbrev Reading (α : Type) := α × Option (List Char)

/-- The white space of the grammar. -/
def isSpace (c : Char) : Bool :=
  c = ' ' || c = '\n' || c = '\t' || c = '\r'

/-- The text without white space in front. -/
def skipSpace (text : List Char) : List Char :=
  text.dropWhile isSpace

/-- How deep arrays and objects may nest. -/
def maxDepth : Nat := 127

/-- A place where the text stops being JSON. -/
def stop : Reading Json :=
  (.fault .broken, none)

section Numbers

variable (round : Decimal → Float)

/-- A number token as a value. -/
def ofNumber (negative : Bool) (whole fraction : List Char) (isInteger : Bool) (exponent : Int) :
    Json :=
  let n : Int := digitsValue whole
  let value := if negative then -n else n
  let fits := fitsSigned 64 value || fitsUnsigned 64 value
  if isInteger && !(negative && n = 0) && fits then .int value
  else
    let x := round (.ofParts negative whole fraction exponent)
    if x.isFinite then .float x else .fault .unreadable

/-- The exponent of a number token, if there is one; none where it is malformed. -/
def readExponentToken (text : List Char) : Option (Option Int × List Char) :=
  match text with
  | mark :: rest =>
    if mark = 'e' || mark = 'E' then
      let (negative, after) := splitSign rest
      let (digits, left) := spanDigits after
      if digits.isEmpty then none
      else some (some (if negative then -(digitsValue digits : Int) else digitsValue digits), left)
    else some (none, text)
  | [] => some (none, [])

/-- Reads a number token; its sign has been read. -/
def readNumber (negative : Bool) (text : List Char) : Reading Json :=
  let (whole, rest) := spanDigits text
  if whole.isEmpty || (1 < whole.length && whole.head? = some '0') then stop
  else
    let (point, fraction, rest) := match rest with
      | '.' :: after =>
        let (fraction, left) := spanDigits after
        (true, fraction, left)
      | _ => (false, [], rest)
    if point && fraction.isEmpty then stop
    else
      match readExponentToken rest with
      | none => stop
      | some (exponent, left) =>
        (ofNumber round negative whole fraction (!point && exponent.isNone) (exponent.getD 0),
          some left)

end Numbers

/-- The value of a hexadecimal digit. -/
def hexValue? (c : Char) : Option Nat :=
  if c.isDigit then some (c.toNat - '0'.toNat)
  else if 'a' ≤ c && c ≤ 'f' then some (c.toNat - 'a'.toNat + 10)
  else if 'A' ≤ c && c ≤ 'F' then some (c.toNat - 'A'.toNat + 10)
  else none

/-- The code unit that four hexadecimal digits denote. -/
def codeUnit? (a b c d : Char) : Option Nat := do
  let a ← hexValue? a
  let b ← hexValue? b
  let c ← hexValue? c
  let d ← hexValue? d
  some (((a * 16 + b) * 16 + c) * 16 + d)

/-- Whether a code unit is the first half of a surrogate pair. -/
def isHighHalf (unit : Nat) : Bool :=
  0xd800 ≤ unit && unit < 0xdc00

/-- Whether a code unit is the second half of a surrogate pair. -/
def isLowHalf (unit : Nat) : Bool :=
  0xdc00 ≤ unit && unit < 0xe000

/-- The character that two halves of a surrogate pair denote. -/
def ofHalves (high low : Nat) : Char :=
  Char.ofNat (0x10000 + (high - 0xd800) * 0x400 + (low - 0xdc00))

/-- The character that a backslash and this letter stand for. -/
def simpleEscape? (c : Char) : Option Char :=
  if c = '"' || c = '\\' || c = '/' then some c
  else if c = 'b' then some '\x08'
  else if c = 'f' then some '\x0c'
  else if c = 'n' then some '\n'
  else if c = 'r' then some '\r'
  else if c = 't' then some '\t'
  else none

/-- Reads a string after its opening mark, given the characters before in reverse order. Half of a
surrogate pair has no value on its own; `ok` records whether there was none. -/
def readString (before : List Char) (ok : Bool) : List Char → Option (Option String × List Char)
  | [] => none
  | c :: rest =>
    if c = '"' then some (if ok then some (String.ofList before.reverse) else none, rest)
    else if c = '\\' then
      match rest with
      | 'u' :: a :: b :: c :: d :: rest =>
        match codeUnit? a b c d with
        | none => none
        | some unit =>
          if isLowHalf unit then readString before false rest
          else if isHighHalf unit then
            match rest with
            | '\\' :: 'u' :: a :: b :: c :: d :: rest =>
              match codeUnit? a b c d with
              | none => none
              | some low =>
                if isLowHalf low then readString (ofHalves unit low :: before) ok rest
                else readString before false rest
            | rest => readString before false rest
          else readString (Char.ofNat unit :: before) ok rest
      | letter :: rest =>
        match simpleEscape? letter with
        | some char => readString (char :: before) ok rest
        | none => none
      | [] => none
    else if c.toNat < 0x20 then none
    else readString (c :: before) ok rest

/-- Expects the rest of a word. -/
def readWord (word : List Char) (value : Json) (text : List Char) : Reading Json :=
  if word.isPrefixOf text then (value, some (text.drop word.length)) else stop

/-- An array or object that nests too deep has no value. -/
def atDepth (depth : Nat) (value : Json) : Json :=
  if maxDepth < depth && !value.hasBroken then .fault .unreadable else value

section Values

variable (round : Decimal → Float)

mutual
/-- Reads a value inside `depth` arrays and objects. -/
def readValue : Nat → Nat → List Char → Reading Json
  | 0, _, _ => stop
  | fuel + 1, depth, text =>
    match skipSpace text with
    | [] => stop
    | c :: rest =>
      if c = 'n' then readWord ['u', 'l', 'l'] .null rest
      else if c = 't' then readWord ['r', 'u', 'e'] (.bool true) rest
      else if c = 'f' then readWord ['a', 'l', 's', 'e'] (.bool false) rest
      else if c = '-' then readNumber round true rest
      else if c.isDigit then readNumber round false (c :: rest)
      else if c = '"' then
        match readString [] true rest with
        | some (some s, left) => (.string s, some left)
        | some (none, left) => (.fault .unreadable, some left)
        | none => stop
      else if c = '[' then
        match skipSpace rest with
        | ']' :: left => (atDepth (depth + 1) (.array []), some left)
        | _ =>
          let (items, left) := readItems fuel (depth + 1) rest
          (atDepth (depth + 1) (.array items), left)
      else if c = '\x7b' then
        match skipSpace rest with
        | '\x7d' :: left => (atDepth (depth + 1) (.object []), some left)
        | _ =>
          let (members, left) := readMembers fuel (depth + 1) rest
          (atDepth (depth + 1) (.object members), left)
      else stop

/-- Reads the items of an array up to its end. -/
def readItems : Nat → Nat → List Char → Reading (List Json)
  | 0, _, _ => ([.fault .broken], none)
  | fuel + 1, depth, text =>
    match readValue fuel depth text with
    | (v, none) => ([v], none)
    | (v, some left) =>
      match skipSpace left with
      | ',' :: after =>
        let (items, rest) := readItems fuel depth after
        (v :: items, rest)
      | ']' :: after => ([v], some after)
      | _ => ([v, .fault .broken], none)

/-- Reads the members of an object up to its end. -/
def readMembers : Nat → Nat → List Char → Reading (List (String × Json))
  | 0, _, _ => ([("", .fault .broken)], none)
  | fuel + 1, depth, text =>
    match skipSpace text with
    | '"' :: rest =>
      match readString [] true rest with
      | some (key, left) =>
        match skipSpace left with
        | ':' :: after =>
          let (v, rest) := match key, readValue fuel depth after with
            | some _, reading => reading
            | none, _ => stop
          match rest with
          | none => ([(key.getD "", v)], none)
          | some left =>
            match skipSpace left with
            | ',' :: after =>
              let (members, rest) := readMembers fuel depth after
              ((key.getD "", v) :: members, rest)
            | '\x7d' :: after => ([(key.getD "", v)], some after)
            | _ => ([(key.getD "", v), ("", .fault .broken)], none)
        | _ => ([("", .fault .broken)], none)
      | none => ([("", .fault .broken)], none)
    | _ => ([("", .fault .broken)], none)
end

/-- The value at the beginning of a text; what follows it does not matter. -/
def readFirstWith (text : String) : Json :=
  let chars := text.toList
  (readValue round (2 * chars.length + 2) 0 chars).1

/-- The value of a whole text; anything but white space after the value is a fault. -/
def readWith (text : String) : Json :=
  let chars := text.toList
  match readValue round (2 * chars.length + 2) 0 chars with
  | (v, some left) => if (skipSpace left).isEmpty then v else .fault .broken
  | (v, none) => v

end Values

/-- The value at the beginning of a text, numbers rounded to the nearest doubles. -/
def readFirst (text : String) : Json :=
  readFirstWith Decimal.toFloat text

/-- The value of a whole text, numbers rounded to the nearest doubles. -/
def read (text : String) : Json :=
  readWith Decimal.toFloat text

/-- The canonical value of a whole text that is JSON throughout. -/
def parse? (text : String) : Option Json :=
  let v := read text
  if v.fault?.isSome then none else some v.canonical

end SocketRanking.Json
