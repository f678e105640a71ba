import Mathlib.Data.Nat.Notation
import SocketRanking.Text.Lowercase

/-!
# Lower case is settled

A text in lower case is its own lower case, so nothing changes when a name is turned into lower
case twice.  The letters to which letters are mapped have no lower case but themselves, and none
of them is the capital sigma, the only letter whose lower case depends on its neighbours.
-/

namespace SocketRanking.Text

/-- A character that is its own lower case, wherever it stands. -/
def IsLower (c : Char) : Prop :=
  c.toNat ≠ 0x3a3 ∧ lowerChar c = [c]

instance : DecidablePred IsLower := fun c =>
  inferInstanceAs (Decidable (c.toNat ≠ 0x3a3 ∧ lowerChar c = [c]))

namespace CaseRun

/-- Whether a code point is one of those that a run maps. -/
def holds (r : CaseRun) (n : ℕ) : Bool :=
  r.first ≤ n && n ≤ r.last && (n - r.first) % r.step == 0

/-- The code point to which a run maps. -/
def image (r : CaseRun) (n : ℕ) : ℕ :=
  ((n : Int) + r.offset).toNat

/-- Whether nothing to which one run maps is mapped by another: the places do not meet, or
one run maps only to odd places and the other maps only even ones, or the other way round. -/
def misses (r other : CaseRun) : Bool :=
  other.last.blt (r.image r.first) || (r.image r.last).blt other.first ||
    ((r.step.beq 2 || r.first.beq r.last) && other.step.beq 2 && Nat.blt 0 (r.image r.first) &&
      (r.image r.first % 2).beq ((other.first + 1) % 2))

theorem holds_iff {r : CaseRun} {n : ℕ} :
    r.holds n = true ↔ r.first ≤ n ∧ n ≤ r.last ∧ (n - r.first) % r.step = 0 := by
  simp [holds, and_assoc]

theorem holds_image_of_misses {r other : CaseRun} (hmisses : r.misses other = true) {n : ℕ}
    (hn : r.holds n = true) : other.holds (r.image n) = false := by
  obtain ⟨hfirst, hlast, hstep⟩ := holds_iff.mp hn
  have hlow : r.image r.first ≤ r.image n := by unfold image; omega
  have hhigh : r.image n ≤ r.image r.last := by unfold image; omega
  rw [Bool.eq_false_iff, ne_eq, holds_iff]
  rintro ⟨hfirst', hlast', hstep'⟩
  simp only [misses, Bool.or_eq_true, Bool.and_eq_true, Nat.blt_eq, Nat.beq_eq] at hmisses
  rcases hmisses with (habove | hbelow) | ⟨⟨⟨heven, htwo⟩, hpositive⟩, hparity⟩
  · omega
  · omega
  · rw [htwo] at hstep'
    -- what the run maps to is of the parity of the first of it
    have hsame : r.image n % 2 = r.image r.first % 2 := by
      unfold image at hpositive ⊢
      rcases heven with htwo' | hsingle
      · rw [htwo'] at hstep
        omega
      · have hn : n = r.first := by omega
        rw [hn]
    omega

end CaseRun

/-- The runs of the table and the letters that are mapped without it: those of ASCII, the dotted
capital I and the capital sigma. -/
def capitals : List CaseRun :=
  ⟨0x41, 0x5a, 1, 32⟩ :: ⟨0x130, 0x130, 1, 0⟩ :: ⟨0x3a3, 0x3a3, 1, 32⟩ :: lowerRuns

theorem toLower_eq_self {c : Char} (hcapital : ¬(0x41 ≤ c.toNat ∧ c.toNat ≤ 0x5a)) :
    c.toLower = c :=
  dif_neg hcapital

/-- What no run holds is its own lower case. -/
theorem isLower_of_forall_not_holds {c : Char}
    (hsmall : ∀ r ∈ capitals, r.holds c.toNat = false) : IsLower c := by
  obtain ⟨hascii, hdotted, hsigma, htable⟩ :=
    by simpa only [capitals, List.forall_mem_cons] using hsmall
  simp only [CaseRun.holds, Nat.mod_one, beq_self_eq_true, Bool.and_true, Bool.and_eq_false_iff,
    decide_eq_false_iff_not] at hascii hdotted hsigma
  refine ⟨by omega, ?_⟩
  have hnone : lowerRuns.find? (fun r =>
      r.first ≤ c.toNat && c.toNat ≤ r.last && (c.toNat - r.first) % r.step == 0) = none :=
    List.find?_eq_none.mpr fun r hr => Bool.eq_false_iff.mp (htable r hr)
  unfold lowerChar
  split
  next => rw [toLower_eq_self (by omega)]
  next => rw [if_neg (by omega), hnone]

/-- Nothing to which the table maps is mapped again. -/
theorem misses_capitals : ∀ r ∈ lowerRuns, ∀ other ∈ capitals, r.misses other = true := by
  have hchecked : lowerRuns.all (fun r => capitals.all r.misses) = true := by decide +kernel
  simpa only [List.all_eq_true] using hchecked

theorem isLower_image {r : CaseRun} (hr : r ∈ lowerRuns) {n : ℕ} (hn : r.holds n = true) :
    IsLower (Char.ofNat (r.image n)) := by
  by_cases hvalid : (r.image n).isValidChar
  · refine isLower_of_forall_not_holds fun other hother => ?_
    have hcode : (Char.ofNat (r.image n)).toNat = r.image n := by
      rw [Char.ofNat, dif_pos hvalid]
      rfl
    rw [hcode]
    exact CaseRun.holds_image_of_misses (misses_capitals r hr other hother) hn
  · have hzero : Char.ofNat (r.image n) = Char.ofNat 0 := by
      rw [Char.ofNat, dif_neg hvalid]
      rfl
    rw [hzero]
    decide

theorem isLower_toLower {n : ℕ} (hn : n < 0x80) : IsLower (Char.ofNat n).toLower := by
  revert n
  decide +kernel

theorem isLower_of_mem_lowerChar {c d : Char} (hsigma : c.toNat ≠ 0x3a3)
    (hd : d ∈ lowerChar c) : IsLower d := by
  unfold lowerChar at hd
  split at hd
  next hascii =>
    obtain rfl := List.mem_singleton.mp hd
    have hlower := isLower_toLower hascii
    rwa [Char.ofNat_toNat] at hlower
  next hascii =>
    split at hd
    next =>
      simp only [List.mem_cons, List.not_mem_nil, or_false] at hd
      rcases hd with rfl | rfl <;> decide +kernel
    next hdotted =>
      split at hd
      next r hrun =>
        obtain rfl := List.mem_singleton.mp hd
        have hheld := List.find?_some hrun
        exact isLower_image (List.mem_of_find?_eq_some hrun) hheld
      next hnone =>
        obtain rfl := List.mem_singleton.mp hd
        refine ⟨hsigma, ?_⟩
        rw [lowerChar, if_neg hascii, if_neg hdotted, hnone]

theorem isLower_of_mem_lowerFrom {before text : List Char} {d : Char}
    (hd : d ∈ lowerFrom before text) : IsLower d := by
  induction text generalizing before with
  | nil => cases hd
  | cons c rest ih =>
      rw [lowerFrom] at hd
      rcases List.mem_append.mp hd with hlowered | hlater
      · split at hlowered
        next =>
          -- both forms of the small sigma are in lower case
          split at hlowered <;> obtain rfl := List.mem_singleton.mp hlowered <;> decide +kernel
        next hsigma => exact isLower_of_mem_lowerChar hsigma hlowered
      · exact ih hlater

theorem lowerFrom_of_isLower {text : List Char} (hlower : ∀ c ∈ text, IsLower c)
    (before : List Char) : lowerFrom before text = text := by
  induction text generalizing before with
  | nil => rfl
  | cons c rest ih =>
      obtain ⟨⟨hsigma, hfixed⟩, hrest⟩ := List.forall_mem_cons.mp hlower
      rw [lowerFrom, if_neg hsigma, hfixed, ih hrest, List.singleton_append]

/-- A text in lower case is its own lower case. -/
theorem lowercase_lowercase (text : String) : lowercase (lowercase text) = lowercase text := by
  rw [lowercase, lowercase, String.toList_ofList,
    lowerFrom_of_isLower fun _ => isLower_of_mem_lowerFrom]

end SocketRanking.Text
