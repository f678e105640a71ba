import SocketRanking.Number.Power

/-!
# The exact content of a double

A finite double is `± significand · 2 ^ exponent` with whole numbers on the right. This module
takes a double apart along that equation, so that text can be produced and quantities can be
rounded in exact arithmetic.
-/

namespace SocketRanking.Number

/-- A finite double as `± significand · 2 ^ exponent`. -/
structure Binary where
  /-- Set for negative numbers and for minus zero. -/
  negative : Bool
  significand : Nat
  exponent : Int
  deriving DecidableEq, Repr

namespace Binary

/-- Reads the fields of the 64-bit pattern; subnormal numbers share the least exponent. -/
def ofFloat (x : Float) : Binary :=
  let bits : Nat := x.toBits.toNat
  let biased : Nat := bits / twoPow 52 % twoPow 11
  let fraction : Nat := bits % twoPow 52
  { negative := bits / twoPow 63 = 1
    significand := if biased = 0 then fraction else twoPow 52 + fraction
    exponent := if biased = 0 then -1074 else Int.ofNat biased - 1075 }

/-- Numerator of the magnitude as a fraction over `denominator`. -/
def numerator (b : Binary) : Nat :=
  b.significand * twoPow b.exponent.toNat

/-- Denominator of the magnitude, a power of two. -/
def denominator (b : Binary) : Nat :=
  twoPow (-b.exponent).toNat

/-- The denominator is never zero. -/
theorem denominator_pos (b : Binary) : 0 < b.denominator :=
  twoPow_pos _

/-- The number itself. -/
def toRat (b : Binary) : Rat :=
  let magnitude := mkRat b.numerator b.denominator
  if b.negative then -magnitude else magnitude

end Binary

/-- The quotient rounded to the nearest whole number, a half to the even neighbour. -/
def roundHalfEven (num den : Nat) : Nat :=
  let quotient := num / den
  let rest := num % den
  if 2 * rest < den then quotient
  else if den < 2 * rest then quotient + 1
  else quotient + quotient % 2

/-- The quotient rounded to the nearest whole number, a half away from zero. -/
def roundHalfUp (num den : Nat) : Nat :=
  (2 * num + den) / (2 * den)

/-- Place of a double in the total order of bit patterns: negative numbers count down from minus
zero, and what is no number stands below every number. -/
def rank (x : Float) : Int :=
  if x.isNaN then -(twoPow 64 : Int)
  else
    let bits := x.toBits.toNat
    if bits < twoPow 63 then bits else -((bits - twoPow 63 : Nat) : Int) - 1

end SocketRanking.Number
