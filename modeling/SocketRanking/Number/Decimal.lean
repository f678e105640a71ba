/-!
# Reading decimal text

A decimal literal denotes `± significand · 10 ^ exponent` exactly. `Decimal.toFloat` rounds it once,
to the nearest double. `readFloat?` accepts the free-standing notation: a sign, digits with a point
on either side, an exponent, and the words for infinity and for what is no number.
-/

namespace SocketRanking.Number

def digitsValue (digits : List Char) : Nat :=
  digits.foldl (fun n c => 10 * n + (c.toNat - '0'.toNat)) 0

/-- Splits off the longest run of decimal digits. -/
def spanDigits (text : List Char) : List Char × List Char :=
  text.span Char.isDigit

/-- A decimal literal, `± significand · 10 ^ exponent`. -/
structure Decimal where
  negative : Bool
  significand : Nat
  exponent : Int
  deriving DecidableEq, Repr

namespace Decimal

/-- The literal with these digits before and after the point and this exponent. -/
def ofParts (negative : Bool) (whole fraction : List Char) (exponent : Int) : Decimal :=
  { negative, significand := digitsValue (whole ++ fraction)
    exponent := exponent - fraction.length }

/-- The double nearest to the literal. Magnitudes far outside the range of doubles are settled by
their size, so no large power of ten is formed. -/
def toFloat (d : Decimal) : Float :=
  let size : Int := (Nat.toDigits 10 d.significand).length + d.exponent
  let magnitude : Float :=
    if d.significand = 0 || size < -330 then 0.0
    else if 310 < size then 1.0 / 0.0
    else if d.exponent < 0 then Float.ofScientific d.significand true (-d.exponent).toNat
    else Float.ofScientific d.significand false d.exponent.toNat
  if d.negative then -magnitude else magnitude

end Decimal

/-- Splits off an optional sign; true stands for minus. -/
def splitSign : List Char → Bool × List Char
  | '-' :: rest => (true, rest)
  | '+' :: rest => (false, rest)
  | text => (false, text)

/-- The exponent after the digits: absent, or a mark, a sign and at least one digit. -/
def readExponent? : List Char → Option Int
  | [] => some 0
  | mark :: rest =>
    if mark = 'e' || mark = 'E' then
      let (negative, digits) := splitSign rest
      if digits.isEmpty || !digits.all Char.isDigit then none
      else some (if negative then -(digitsValue digits : Int) else digitsValue digits)
    else none

/-- Digits, an optional point and an optional exponent; some digit stands before or after the
point. -/
def readUnsigned? (negative : Bool) (text : List Char) : Option Decimal :=
  let (whole, rest) := spanDigits text
  let (fraction, rest) := match rest with
    | '.' :: after => spanDigits after
    | _ => ([], rest)
  if whole.isEmpty && fraction.isEmpty then none
  else (readExponent? rest).map (Decimal.ofParts negative whole fraction)

/-- Reads a whole text as a double. -/
def readFloat? (text : String) : Option Float :=
  let (negative, body) := splitSign text.toList
  let word := String.ofList (body.map Char.toLower)
  let signed (x : Float) : Float := if negative then -x else x
  if word = "inf" || word = "infinity" then some (signed (1.0 / 0.0))
  else if word = "nan" then some (0.0 / 0.0)
  else (readUnsigned? negative body).map Decimal.toFloat

/-- Reads a whole text as an integer: an optional sign and digits. -/
def readInt? (text : String) : Option Int :=
  let (negative, digits) := splitSign text.toList
  if digits.isEmpty || !digits.all Char.isDigit then none
  else some (if negative then -(digitsValue digits : Int) else digitsValue digits)

/-- Reads a whole text as a natural number: an optional plus sign and digits. -/
def readNat? (text : String) : Option Nat :=
  let digits := match text.toList with
    | '+' :: rest => rest
    | plain => plain
  if digits.isEmpty || !digits.all Char.isDigit then none else some (digitsValue digits)

end SocketRanking.Number
