import SocketRanking.Number.Binary

/-!
# Scalars

The scoring rules are arithmetic on measured quantities: sums, quotients, comparisons and a few
decimal constants. They are written once over `Scalar`. Doubles carry the running service; the
rationals carry the same rules without rounding.
-/

namespace SocketRanking

/-- Numbers that the scoring rules compute with. -/
class Scalar (α : Type) extends Add α, Sub α, Mul α, Div α, Neg α, LT α, LE α, BEq α,
    OfScientific α where
  decidableLT : DecidableLT α
  decidableLE : DecidableLE α
  /-- A count as a scalar. -/
  ofCount : Nat → α
  /-- A finite reading as a scalar. -/
  ofReading : Float → α
  /-- The total order by which hosts are ranked. -/
  rankLE : α → α → Bool

namespace Scalar

instance {α : Type} [Scalar α] : DecidableLT α := Scalar.decidableLT

instance {α : Type} [Scalar α] : DecidableLE α := Scalar.decidableLE

/-- Doubles: every operation rounds to the nearest double. -/
instance : Scalar Float where
  decidableLT := inferInstance
  decidableLE := inferInstance
  ofCount := Float.ofNat
  ofReading x := x
  rankLE a b := decide (Number.rank a ≤ Number.rank b)

/-- Rationals: no operation rounds. -/
instance : Scalar Rat where
  decidableLT := inferInstance
  decidableLE := inferInstance
  ofCount n := n
  ofReading x := (Number.Binary.ofFloat x).toRat
  rankLE a b := decide (a ≤ b)

/-- The larger of a quantity and a floor; a quantity that is no number becomes the floor. -/
def atLeast {α : Type} [Scalar α] (floor x : α) : α :=
  if floor < x then x else floor

/-- The sum from the left. -/
def sum {α : Type} [Scalar α] (xs : List α) : α :=
  xs.foldl (· + ·) 0.0

end Scalar

end SocketRanking
