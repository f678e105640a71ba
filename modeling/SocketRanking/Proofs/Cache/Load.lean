import Mathlib.Tactic.Linarith
import Mathlib.Tactic.Positivity
import SocketRanking.Proofs.Cache.View
import SocketRanking.Proofs.Number.Exact

/-!
# Entries under load

In exact arithmetic a placement leaves the throughput in an entry alone, raises its
memory traffic and lowers its idle fraction.  As long as what is known is not
negative, it neither hides what is known nor reveals what is not, for the sentinel
is negative.
-/

namespace SocketRanking.Entry

theorem isKnown_iff {x : ℚ} : isKnown x = true ↔ x ≠ -1 := by
  have hsentinel : (sentinel : ℚ) = -1 := by norm_num [sentinel]
  rw [isKnown, hsentinel, Bool.not_eq_true', beq_eq_false_iff_ne]

theorem isKnown_of_nonneg {x : ℚ} (hx : 0 ≤ x) : isKnown x = true :=
  isKnown_iff.mpr (by linarith)

theorem le_raise {x amount : ℚ} (hamount : 0 ≤ amount) : x ≤ raise x amount := by
  unfold raise
  split
  · exact le_add_of_nonneg_right hamount
  · exact le_rfl

theorem isKnown_raise {x amount : ℚ} (hx : isKnown x = true → 0 ≤ x) (hamount : 0 ≤ amount) :
    isKnown (raise x amount) = isKnown x := by
  unfold raise
  split
  next hknown =>
    rw [hknown]
    exact isKnown_of_nonneg (add_nonneg (hx hknown) hamount)
  next => rfl

/-- A workload keeps no negative share of the cores busy. -/
theorem busyShare_nonneg {profile : AppProfile ℚ} (hprofile : profile.c6res ≤ 100)
    (cores : ℕ) : 0 ≤ busyShare profile cores := by
  have hcores : (0 : ℚ) < (max cores 1 : ℕ) := by
    exact_mod_cast Nat.lt_of_lt_of_le Nat.zero_lt_one (Nat.le_max_right cores 1)
  unfold busyShare
  rw [Scalar.ofCount_eq]
  apply div_nonneg
  · norm_num
    exact hprofile
  · positivity

theorem idleEpsilon_pos : (0 : ℚ) < idleEpsilon := by
  norm_num [idleEpsilon]

theorem idleEpsilon_nonneg : (0 : ℚ) ≤ idleEpsilon :=
  idleEpsilon_pos.le

theorem idleEpsilon_le_one : (idleEpsilon : ℚ) ≤ 1 := by
  norm_num [idleEpsilon]

/-- What is known of the socket is not negative, and its idle fraction not below the
floor. -/
structure IsNonneg (e : Entry ℚ) : Prop where
  ipc : isKnown e.ipc = true → 0 ≤ e.ipc
  memRead : isKnown e.memRead = true → 0 ≤ e.memRead
  memWrite : isKnown e.memWrite = true → 0 ≤ e.memWrite
  c6res : isKnown e.c6res = true → idleEpsilon ≤ e.c6res

/-- Every field is known: throughput and traffic are not negative, and the idle fraction
is not below the floor. -/
structure IsFull (e : Entry ℚ) : Prop where
  ipc : 0 ≤ e.ipc
  memRead : 0 ≤ e.memRead
  memWrite : 0 ≤ e.memWrite
  c6res : idleEpsilon ≤ e.c6res

/-- The same knowledge of a socket that carries no less load: equal throughput, no less
memory traffic, and no larger idle fraction. -/
structure LoadsTo (e e' : Entry ℚ) : Prop where
  fresh : e'.isFresh = e.isFresh
  ipc : e'.ipc = e.ipc
  ipc_nonneg : e.isFresh = true → 0 ≤ e.ipc
  traffic : e.memRead + e.memWrite ≤ e'.memRead + e'.memWrite
  idle : e.idle? = none ∧ e'.idle? = none ∨
    ∃ c6 c6', e.idle? = some c6 ∧ e'.idle? = some c6' ∧ 0 ≤ c6' ∧ c6' ≤ c6

variable {e : Entry ℚ}

theorem IsFull.isFresh (he : e.IsFull) : e.isFresh = true := by
  rw [Entry.isFresh, isKnown_of_nonneg he.ipc, isKnown_of_nonneg he.memRead,
    isKnown_of_nonneg he.memWrite, isKnown_of_nonneg (idleEpsilon_nonneg.trans he.c6res)]
  rfl

theorem IsFull.isNonneg (he : e.IsFull) : e.IsNonneg :=
  ⟨fun _ => he.ipc, fun _ => he.memRead, fun _ => he.memWrite, fun _ => he.c6res⟩

theorem IsFull.place (he : e.IsFull) {profile : AppProfile ℚ} (hread : 0 ≤ profile.memRead)
    (hwrite : 0 ≤ profile.memWrite) (cores : ℕ) (countsTowardIdle : Bool) :
    (e.place profile cores countsTowardIdle).IsFull where
  ipc := he.ipc
  memRead := he.memRead.trans (le_raise hread)
  memWrite := he.memWrite.trans (le_raise hwrite)
  c6res := by
    simp only [Entry.place]
    split
    · rw [Scalar.atLeast_eq_max]
      exact le_max_left _ _
    · exact he.c6res

theorem isNonneg_unknown : (unknown : Entry ℚ).IsNonneg := by
  constructor <;> simp [unknown]

theorem IsNonneg.ipc_of_isFresh (he : e.IsNonneg) (hfresh : e.isFresh = true) :
    0 ≤ e.ipc := by
  simp only [isFresh, Bool.and_eq_true] at hfresh
  exact he.ipc hfresh.1.1.1

theorem IsNonneg.of_idle? (he : e.IsNonneg) {c6 : ℚ} (hidle : e.idle? = some c6) :
    idleEpsilon ≤ c6 := by
  obtain ⟨hknown, rfl⟩ := idle?_eq_some_iff.mp hidle
  exact he.c6res hknown

/-- A placement does not raise the idle fraction, nor take it below the floor. -/
theorem IsNonneg.c6res_place (he : e.IsNonneg) (hknown : isKnown e.c6res = true)
    {profile : AppProfile ℚ} (hidle : profile.c6res ≤ 100) (cores : ℕ)
    (countsTowardIdle : Bool) :
    idleEpsilon ≤ (e.place profile cores countsTowardIdle).c6res ∧
      (e.place profile cores countsTowardIdle).c6res ≤ e.c6res := by
  have hfloor := he.c6res hknown
  have hshare := busyShare_nonneg hidle cores
  cases countsTowardIdle with
  | false => exact ⟨hfloor, le_rfl⟩
  | true =>
      simp only [place, hknown, Bool.and_true, if_true, Scalar.atLeast_eq_max]
      exact ⟨le_max_left _ _, max_le hfloor (sub_le_self _ hshare)⟩

theorem IsNonneg.loadsTo_self (he : e.IsNonneg) : e.LoadsTo e where
  fresh := rfl
  ipc := rfl
  ipc_nonneg := he.ipc_of_isFresh
  traffic := le_rfl
  idle := by
    cases hidle : e.idle? with
    | none => exact Or.inl ⟨rfl, rfl⟩
    | some c6 =>
        have hc6 := idleEpsilon_nonneg.trans (he.of_idle? hidle)
        exact Or.inr ⟨c6, c6, rfl, rfl, hc6, le_rfl⟩

theorem IsNonneg.loadsTo_place (he : e.IsNonneg) {profile : AppProfile ℚ}
    (hread : 0 ≤ profile.memRead) (hwrite : 0 ≤ profile.memWrite)
    (hidle : profile.c6res ≤ 100) (cores : ℕ) (countsTowardIdle : Bool) :
    e.LoadsTo (e.place profile cores countsTowardIdle) where
  fresh := by
    have hknown := isSome_idle?_place e profile cores countsTowardIdle
    rw [isSome_idle?, isSome_idle?] at hknown
    rw [isFresh, isFresh, hknown]
    simp only [place, isKnown_raise he.memRead hread, isKnown_raise he.memWrite hwrite]
  ipc := rfl
  ipc_nonneg := he.ipc_of_isFresh
  traffic := add_le_add (le_raise hread) (le_raise hwrite)
  idle := by
    have hsame := isSome_idle?_place e profile cores countsTowardIdle
    rw [isSome_idle?, isSome_idle?] at hsame
    cases hknown : isKnown e.c6res with
    | false =>
        rw [hknown] at hsame
        exact Or.inl ⟨if_neg (by simp [hknown]), if_neg (by simp [hsame])⟩
    | true =>
        rw [hknown] at hsame
        obtain ⟨hfloor, hle⟩ := he.c6res_place hknown hidle cores countsTowardIdle
        exact Or.inr ⟨_, _, idle?_eq_some_iff.mpr ⟨hknown, rfl⟩,
          idle?_eq_some_iff.mpr ⟨hsame, rfl⟩, idleEpsilon_nonneg.trans hfloor, hle⟩

end SocketRanking.Entry
