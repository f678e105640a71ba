/-!
# Powers and word sizes

Powers of two measure the words of a machine and the spacing of doubles, powers of ten move a
decimal point. A number fits a word of so many bits without a sign or, shifted by half the range,
with one.
-/

namespace SocketRanking.Number

def twoPow (n : Nat) : Nat :=
  Nat.pow 2 n

def tenPow (n : Nat) : Nat :=
  Nat.pow 10 n

/-- A power of two is never zero. -/
theorem twoPow_pos (n : Nat) : 0 < twoPow n :=
  Nat.pow_pos (by decide)

/-- A power of ten is never zero. -/
theorem tenPow_pos (n : Nat) : 0 < tenPow n :=
  Nat.pow_pos (by decide)

/-- Whether a number fits a word of `bits` bits without a sign. -/
def fitsUnsigned (bits : Nat) (n : Int) : Bool :=
  0 ≤ n && n < twoPow bits

/-- Whether a number fits a word of `bits` bits with a sign. -/
def fitsSigned (bits : Nat) (n : Int) : Bool :=
  -(twoPow (bits - 1) : Int) ≤ n && n < twoPow (bits - 1)

end SocketRanking.Number
