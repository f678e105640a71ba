import Mathlib.Algebra.Order.Ring.Nat
import Mathlib.Data.List.Basic
import Mathlib.Data.List.TakeDrop
import SocketRanking.Number.Decimal
import SocketRanking.Number.Shortest

/-!
# Runs of digits

A run of digits has a value, and the digits of a number have that number for their value.
A reader that takes the longest run from a text finds a run again if what follows it begins
with something else.
-/

namespace SocketRanking.Number

/-! ## Values -/

theorem digitsValue_toDigits (n : ℕ) : digitsValue (Nat.toDigits 10 n) = n :=
  Nat.ofDigitChars_ten_toDigits

theorem digitsValue_append_zeros (digits : List Char) (n : ℕ) :
    digitsValue (digits ++ zeros n) = 10 ^ n * digitsValue digits := by
  change Nat.ofDigitChars 10 (digits ++ zeros n) 0 = _
  rw [Nat.ofDigitChars_append, zeros, Nat.ofDigitChars_replicate_zero]
  rfl

theorem digitsValue_zeros_append (n : ℕ) (digits : List Char) :
    digitsValue (zeros n ++ digits) = digitsValue digits := by
  change Nat.ofDigitChars 10 (zeros n ++ digits) 0 = _
  rw [Nat.ofDigitChars_append, zeros, Nat.ofDigitChars_replicate_zero, Nat.mul_zero]
  rfl

/-! ## Runs -/

/-- Nothing but digits. -/
def AllDigits (text : List Char) : Prop :=
  ∀ c ∈ text, c.isDigit = true

theorem allDigits_zeros (n : ℕ) : AllDigits (zeros n) := by
  intro c hc
  rw [List.eq_of_mem_replicate hc]
  rfl

theorem allDigits_toDigits (n : ℕ) : AllDigits (Nat.toDigits 10 n) :=
  fun _ => Nat.isDigit_of_mem_toDigits (by decide) (by decide)

theorem AllDigits.append {text more : List Char} (htext : AllDigits text)
    (hmore : AllDigits more) : AllDigits (text ++ more) :=
  List.forall_mem_append.mpr ⟨htext, hmore⟩

/-- A text that does not begin with a digit. -/
def StopsDigits (text : List Char) : Prop :=
  ∀ c ∈ text.head?, c.isDigit = false

theorem spanDigits_append {digits rest : List Char} (hdigits : AllDigits digits)
    (hrest : StopsDigits rest) : spanDigits (digits ++ rest) = (digits, rest) := by
  rw [spanDigits, List.span_eq_takeWhile_dropWhile, List.takeWhile_append_of_pos hdigits,
    List.dropWhile_append_of_pos hdigits]
  cases rest with
  | nil => simp
  | cons c rest =>
      have hc : c.isDigit = false := hrest c rfl
      simp [hc]

/-! ## Whole numbers -/

/-- The digits of a whole number: at least one, and no needless zero in front. -/
structure IsWhole (digits : List Char) : Prop where
  allDigits : AllDigits digits
  ne_nil : digits ≠ []
  head_ne : 1 < digits.length → digits.head? ≠ some '0'

theorem head?_toDigits_ne {n : ℕ} (hn : 0 < n) : (Nat.toDigits 10 n).head? ≠ some '0' := by
  induction n using Nat.strongRecOn with
  | ind n ih =>
      rw [Nat.toDigits_eq_if (by decide)]
      split
      next hsmall =>
        intro hzero
        have hdigit : n.digitChar.toNat = '0'.toNat := congrArg Char.toNat (Option.some.inj hzero)
        rw [Nat.toNat_digitChar_of_lt_ten hsmall] at hdigit
        change 48 + n = 48 at hdigit
        omega
      next hlarge =>
        rw [List.head?_append_of_ne_nil _ Nat.toDigits_ne_nil]
        exact ih (n / 10) (by omega) (by omega)

theorem isWhole_toDigits (n : ℕ) : IsWhole (Nat.toDigits 10 n) where
  allDigits := allDigits_toDigits n
  ne_nil := Nat.toDigits_ne_nil
  head_ne := by
    intro hlong
    refine head?_toDigits_ne (Nat.pos_of_ne_zero ?_)
    rintro rfl
    simp at hlong

end SocketRanking.Number
