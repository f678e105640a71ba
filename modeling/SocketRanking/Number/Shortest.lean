import SocketRanking.Number.Binary

/-!
# Shortest decimal digits

Every finite double has an interval of reals that round to it. `Shortest.ofFloat` finds the shortest
decimal in that interval, the nearest one where several are equally short. Two layouts of those
digits follow: `positional`, without an exponent, and `scientificAbove`, which turns to an exponent
outside a range of magnitudes.
-/

namespace SocketRanking.Number

/-- Decimal digits with the place of the point: `0.d₁d₂… · 10 ^ point`. -/
structure Digits where
  digits : List Char
  point : Int
  deriving DecidableEq, Repr

namespace Shortest

/-- Whether the fraction `num / den` rounds to `b`: it lies within half a step of the neighbouring
doubles, ends included where the significand is even. -/
def roundsTo (b : Binary) (num den : Nat) : Bool :=
  let m := b.significand
  let p := b.exponent
  -- below a power of two the spacing is half as wide
  let narrow := decide (m = twoPow 52 ∧ -1074 < p)
  let low := if narrow then 4 * m - 1 else 4 * m - 2
  let high := 4 * m + 2
  -- compare num / den with low, high · 2 ^ (p - 2)
  let shift := p - 2
  let scaledNum := num * twoPow (-shift).toNat
  let scaledLow := low * den * twoPow shift.toNat
  let scaledHigh := high * den * twoPow shift.toNat
  if m % 2 = 0 then decide (scaledLow ≤ scaledNum ∧ scaledNum ≤ scaledHigh)
  else decide (scaledLow < scaledNum ∧ scaledNum < scaledHigh)

/-- The point of the grid `10 ^ -places` next to the value that rounds to it, the nearer of the two
neighbours, the lower one at a tie with an even digit. -/
def onGrid? (b : Binary) (places : Int) : Option Nat :=
  let num := b.numerator * tenPow places.toNat
  let den := b.denominator * tenPow (-places).toNat
  let below := num / den
  let hit (n : Nat) : Bool :=
    0 < n && roundsTo b (n * tenPow (-places).toNat) (tenPow places.toNat)
  match hit below, hit (below + 1) with
  | true, true => some (roundHalfEven num den)
  | true, false => some below
  | false, true => some (below + 1)
  | false, false => none

/-- Tries the grids with one digit, two digits and so on. -/
def search (b : Binary) (point : Int) : Nat → Nat → Digits
  | 0, tried =>
    let places := (tried : Int) - point
    { digits := Nat.toDigits 10 (b.numerator * tenPow places.toNat /
        (b.denominator * tenPow (-places).toNat)), point }
  | fuel + 1, tried =>
    let places := (tried + 1 : Int) - point
    match onGrid? b places with
    | some n =>
      let digits := Nat.toDigits 10 n
      { digits, point := (digits.length : Int) - places }
    | none => search b point fuel (tried + 1)

/-- The decimal exponent `p` with `10 ^ (p - 1) ≤ num / den < 10 ^ p`. -/
def magnitude (num den : Nat) : Int :=
  let guess : Int := (Nat.toDigits 10 num).length - (Nat.toDigits 10 den).length
  if num * tenPow (-guess).toNat < den * tenPow guess.toNat then guess else guess + 1

/-- Removes zeros at the end. -/
def trimZeros (digits : List Char) : List Char :=
  (digits.reverse.dropWhile (· = '0')).reverse

/-- The shortest digits of a finite double other than zero, its sign apart. -/
def ofFloat (x : Float) : Digits :=
  let b := Binary.ofFloat x
  let found := search b (magnitude b.numerator b.denominator) 17 0
  { found with digits := trimZeros found.digits }

end Shortest

def zeros (n : Nat) : List Char :=
  List.replicate n '0'

/-- Digits in positional notation; a point is written only before a fraction. -/
def Digits.positional (d : Digits) : List Char :=
  let count : Int := d.digits.length
  if d.point ≤ 0 then '0' :: '.' :: zeros (-d.point).toNat ++ d.digits
  else if count ≤ d.point then d.digits ++ zeros (d.point - count).toNat
  else d.digits.take d.point.toNat ++ '.' :: d.digits.drop d.point.toNat

/-- One digit, the rest after a point if there is a rest, and the exponent with its mark and
sign. -/
def Digits.scientific (d : Digits) : List Char :=
  let lead := d.digits.take 1
  let rest := d.digits.drop 1
  let exponent := d.point - 1
  let sign := if exponent < 0 then '-' else '+'
  lead ++ (if rest.isEmpty then [] else '.' :: rest) ++
    'e' :: sign :: Nat.toDigits 10 exponent.natAbs

/-- A double as plain text: the shortest digits that read back, never an exponent. -/
def plainText (x : Float) : String :=
  if x.isNaN then "NaN"
  else
    let sign := if (Binary.ofFloat x).negative then "-" else ""
    if x.isInf then sign ++ "inf"
    else if (Binary.ofFloat x).significand = 0 then sign ++ "0"
    else sign ++ String.ofList (Shortest.ofFloat x).positional

/-- A finite double as a data literal: always with a point for magnitudes from `1e-5` up to `1e16`,
with an exponent outside them. -/
def literalText (x : Float) : String :=
  let sign := if (Binary.ofFloat x).negative then "-" else ""
  if (Binary.ofFloat x).significand = 0 then sign ++ "0.0"
  else
    let d := Shortest.ofFloat x
    let body :=
      if -5 < d.point ∧ d.point ≤ 16 then
        let text := d.positional
        if text.contains '.' then text else text ++ ['.', '0']
      else d.scientific
    sign ++ String.ofList body

end SocketRanking.Number
