import SocketRanking.Number.Shortest

/-!
# Rounded decimal text

A double written with a set number of digits: after the point (`fixed`) or after the leading digit
of a power of ten (`exponential`). Both round the exact value, a half to the even neighbour.
-/

namespace SocketRanking.Number

/-- Writes `n / 10 ^ places` with all its places. -/
def placed (n places : Nat) : List Char :=
  let digits := Nat.toDigits 10 n
  let padded := zeros (places + 1 - digits.length) ++ digits
  let whole := padded.take (padded.length - places)
  let fraction := padded.drop (padded.length - places)
  if places = 0 then whole else whole ++ '.' :: fraction

def signText (x : Float) : String :=
  if (Binary.ofFloat x).negative then "-" else ""

/-- A double with `places` digits after the point. -/
def fixed (places : Nat) (x : Float) : String :=
  if x.isNaN then "NaN"
  else if x.isInf then signText x ++ "inf"
  else
    let b := Binary.ofFloat x
    signText x ++
      String.ofList (placed (roundHalfEven (b.numerator * tenPow places) b.denominator) places)

/-- A double as a leading digit, `places` digits after the point, and a power of ten. -/
def exponential (places : Nat) (x : Float) : String :=
  if x.isNaN then "NaN"
  else if x.isInf then signText x ++ "inf"
  else
    let b := Binary.ofFloat x
    if b.significand = 0 then signText x ++ String.ofList (placed 0 places) ++ "e0"
    else
      let point := Shortest.magnitude b.numerator b.denominator
      let shift := (places : Int) + 1 - point
      let n := roundHalfEven (b.numerator * tenPow shift.toNat)
        (b.denominator * tenPow (-shift).toNat)
      -- rounding up to the next power of ten adds a digit
      let carried := tenPow (places + 1) ≤ n
      let mantissa := if carried then n / 10 else n
      let exponent := if carried then point else point - 1
      signText x ++ String.ofList (placed mantissa places) ++ "e" ++ toString exponent

end SocketRanking.Number
