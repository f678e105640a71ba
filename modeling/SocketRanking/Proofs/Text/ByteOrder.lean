import Mathlib.Data.String.Basic
import Mathlib.Tactic.Tauto

/-!
# The byte order of texts

Texts are compared character by character.  Their UTF-8 bytes, compared one by one,
give the same order: a larger character starts with a larger byte, or else with the
same bytes up to the first that is larger.  So names that are sorted as texts are
sorted as bytes.
-/

namespace SocketRanking.Text

def bytes (s : String) : List UInt8 :=
  s.toUTF8.data.toList

theorem bytes_eq_flatMap (s : String) :
    bytes s = s.toList.flatMap String.utf8EncodeChar := by
  rw [bytes, String.toUTF8_eq_toByteArray, ← String.utf8Encode_toList, List.utf8Encode]
  exact List.data_toByteArray.symm ▸ rfl

/-- Numbers in the positions of a four byte sequence: the first position in which two
numbers differ decides between them. -/
theorem sextets_lt {m n : ℕ} (hlt : m < n) (hbound : n < 2097152) :
    m / 262144 % 8 < n / 262144 % 8 ∨ m / 262144 % 8 = n / 262144 % 8 ∧
      (m / 4096 % 64 < n / 4096 % 64 ∨ m / 4096 % 64 = n / 4096 % 64 ∧
        (m / 64 % 64 < n / 64 % 64 ∨ m / 64 % 64 = n / 64 % 64 ∧ m % 64 < n % 64)) := by
  have hfirst : m / 262144 % 8 < n / 262144 % 8 ∨
      m / 262144 % 8 = n / 262144 % 8 ∧ m % 262144 < n % 262144 := by
    omega
  have hsecond : m % 262144 < n % 262144 → m / 4096 % 64 < n / 4096 % 64 ∨
      m / 4096 % 64 = n / 4096 % 64 ∧ m % 4096 < n % 4096 := by
    omega
  have hthird : m % 4096 < n % 4096 → m / 64 % 64 < n / 64 % 64 ∨
      m / 64 % 64 = n / 64 % 64 ∧ m % 64 < n % 64 := by
    omega
  tauto

theorem toNat_ofNat_of_lt {n : ℕ} (hn : n < 256) : (UInt8.ofNat n).toNat = n :=
  UInt8.toNat_ofNat_of_lt' hn

/-- Whatever follows, the bytes of a smaller character come first. -/
theorem utf8EncodeChar_append_lt {c d : Char} (hlt : c < d) (xs ys : List UInt8) :
    String.utf8EncodeChar c ++ xs < String.utf8EncodeChar d ++ ys := by
  have hcodes : c.val.toNat < d.val.toNat := hlt
  have hbound : d.val.toNat < 0x110000 := by
    rcases d.valid with hlow | ⟨-, hhigh⟩
    · exact hlow.trans (by decide)
    · exact hhigh
  have hsextets := sextets_lt hcodes (hbound.trans (by decide))
  unfold String.utf8EncodeChar
  dsimp only
  generalize c.val.toNat = m at *
  generalize d.val.toNat = n at *
  -- One case for each pair of lengths; equal lengths are settled by the sextets.
  split_ifs <;>
    simp (disch := omega) only [List.cons_append, List.nil_append, List.cons_lt_cons_iff,
      UInt8.lt_iff_toNat_lt, ← UInt8.toNat_inj, toNat_ofNat_of_lt] <;>
    omega

theorem bytes_lt_bytes {s t : String} (hlt : s < t) : bytes s < bytes t := by
  have hchars : s.toList < t.toList := hlt
  rw [bytes_eq_flatMap, bytes_eq_flatMap]
  generalize s.toList = cs at hchars
  generalize t.toList = ds at hchars
  induction hchars with
  | nil =>
      rename_i d ds
      rw [List.flatMap_nil, List.flatMap_cons]
      cases hd : String.utf8EncodeChar d with
      | nil => exact absurd hd String.utf8EncodeChar_ne_nil
      | cons b bs => exact List.nil_lt_cons _ _
  | cons _ ih =>
      rw [List.flatMap_cons, List.flatMap_cons]
      exact List.append_left_lt ih
  | rel hcd =>
      rw [List.flatMap_cons, List.flatMap_cons]
      exact utf8EncodeChar_append_lt hcd _ _

/-- The order of texts is the order of their bytes. -/
theorem bytes_lt_bytes_iff {s t : String} : bytes s < bytes t ↔ s < t := by
  constructor
  · intro hlt
    by_contra hle
    rcases eq_or_lt_of_le (not_lt.mp hle) with rfl | hgt
    · exact List.lt_irrefl _ hlt
    · exact List.lt_asymm hlt (bytes_lt_bytes hgt)
  · exact bytes_lt_bytes

end SocketRanking.Text
