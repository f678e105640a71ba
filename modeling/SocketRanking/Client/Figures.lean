import SocketRanking.Client.Style
import SocketRanking.Number.Rounded
import SocketRanking.Text.Lowercase

/-!
# Figures

How the numbers, times and states of the service are shown to people.
-/

namespace SocketRanking.Client

open SocketRanking.Number

/-- A score: four places, or a power of ten for magnitudes outside the usual range. -/
def scoreText (score : Float) : String :=
  if score == 0.0 then "0"
  else if 0.01 ≤ score.abs ∧ score.abs < 1e6 then fixed 4 score
  else exponential 3 score

def fractionText (fraction : Float) : String :=
  fixed 1 (fraction * 100.0) ++ "%"

def twoDigits (n : Nat) : String :=
  String.ofList (placed n 0 |> fun digits => zeros (2 - digits.length) ++ digits)

structure Day where
  year : Nat
  month : Nat
  day : Nat
  deriving DecidableEq, Repr

/-- The day that lies so many days after the start of 1970. Years are counted from March, so that a
leap day is the last of its year, in periods of 400 years. -/
def Day.ofNumber (n : Nat) : Day :=
  let shifted := n + 719468
  let era := shifted / 146097
  let inEra := shifted % 146097
  let yearOfEra := (inEra - inEra / 1460 + inEra / 36524 - inEra / 146096) / 365
  let dayOfYear := inEra - (365 * yearOfEra + yearOfEra / 4 - yearOfEra / 100)
  let fromMarch := (5 * dayOfYear + 2) / 153
  let month := if fromMarch < 10 then fromMarch + 3 else fromMarch - 9
  { year := yearOfEra + era * 400 + (if month ≤ 2 then 1 else 0)
    month
    day := dayOfYear - (153 * fromMarch + 2) / 5 + 1 }

/-- A year with at least four digits; later ones bear a sign. -/
def yearText (year : Nat) : String :=
  let digits := Nat.toDigits 10 year
  if 9999 < year then "+" ++ String.ofList digits
  else String.ofList (zeros (4 - digits.length) ++ digits)

def lastSecond : Int := 8210266876799

/-- A time in seconds since 1970; a dash when it was never set, the number beyond the calendar. -/
def timeText (secs : Int) : String :=
  if secs ≤ 0 then "-"
  else if lastSecond < secs then toString secs
  else
    let secs := secs.toNat
    let d := Day.ofNumber (secs / 86400)
    yearText d.year ++ "-" ++ twoDigits d.month ++ "-" ++ twoDigits d.day ++ " " ++
      twoDigits (secs / 3600 % 24) ++ ":" ++ twoDigits (secs / 60 % 60) ++ ":" ++
      twoDigits (secs % 60) ++ " UTC"

/-- The colour of a state, by its name in any case. -/
def stateColour? (state : String) : Option Colour :=
  let word := Text.lowercase state
  if ["healthy", "fresh", "eligible"].contains word then some .green
  else if ["degraded", "stale"].contains word then some .yellow
  else if ["unhealthy", "ineligible", "failed"].contains word then some .red
  else none

def stateText (palette : Palette) (state : String) : String :=
  match stateColour? state with
  | some colour => palette.colour colour state
  | none => state

end SocketRanking.Client
