import SocketRanking.Json.Reader
import SocketRanking.Json.Writer
import SocketRanking.Proofs.Number.Literals

/-!
# Tokens of JSON text

The reader finds the tokens that the writer writes.  A number ends where something follows
that cannot continue it, and a string at its closing mark, whatever characters it has inside.
-/

namespace SocketRanking

open Number

namespace Json

/-! ## Numbers -/

/-- A text that does not continue a number. -/
def StopsNumber (text : List Char) : Prop :=
  ∀ c ∈ text.head?, c.isDigit = false ∧ c ≠ '.' ∧ c ≠ 'e' ∧ c ≠ 'E'

variable {rest : List Char}

theorem StopsNumber.stopsDigits (hrest : StopsNumber rest) : StopsDigits rest :=
  fun c hc => (hrest c hc).1

theorem stopsNumber_nil : StopsNumber [] :=
  nofun

/-- A mark ends a number. -/
theorem stopsNumber_mark {c : Char} (text : List Char)
    (hc : c.isDigit = false ∧ c ≠ '.' ∧ c ≠ 'e' ∧ c ≠ 'E') : StopsNumber (c :: text) := by
  intro d hd
  exact Option.mem_some_iff.mp hd ▸ hc

theorem readExponentToken_text (exponent : Option ℤ) (hrest : StopsNumber rest) :
    readExponentToken (Literal.exponentText exponent ++ rest) = some (exponent, rest) := by
  cases exponent with
  | none =>
      cases rest with
      | nil => rfl
      | cons c rest =>
          obtain ⟨-, -, hlower, hupper⟩ := hrest c rfl
          simp [Literal.exponentText, readExponentToken, hlower, hupper]
  | some n =>
      have hdigits := spanDigits_append (allDigits_toDigits n.natAbs) hrest.stopsDigits
      have hsome : (Nat.toDigits 10 n.natAbs).isEmpty = false :=
        List.isEmpty_eq_false_iff.mpr Nat.toDigits_ne_nil
      rcases lt_or_ge n 0 with hneg | hnonneg
      · simp [Literal.exponentText, hneg, readExponentToken, splitSign, hdigits, hsome,
          digitsValue_toDigits, abs_of_neg hneg]
      · simp [Literal.exponentText, not_lt.mpr hnonneg, readExponentToken, splitSign, hdigits,
          hsome, digitsValue_toDigits, abs_of_nonneg hnonneg]

variable {round : Decimal → Float} {negative : Bool} {l : Literal}

theorem exponentText_append_stops (exponent : Option ℤ) (hrest : StopsNumber rest) :
    StopsDigits (Literal.exponentText exponent ++ rest) ∧
      (Literal.exponentText exponent ++ rest).head? ≠ some '.' := by
  cases exponent with
  | none => exact ⟨hrest.stopsDigits, fun hpoint => (hrest '.' hpoint).2.1 rfl⟩
  | some n =>
      refine ⟨fun c hc => ?_, fun hpoint => absurd (Option.some.inj hpoint) (by decide)⟩
      obtain rfl := Option.mem_some_iff.mp hc
      rfl

theorem readNumber_text (hl : l.IsProper) (hrest : StopsNumber rest) :
    readNumber round negative (l.text ++ rest) =
      (ofNumber round negative l.whole l.fraction (l.fraction.isEmpty && l.exponent.isNone)
        (l.exponent.getD 0), some rest) := by
  obtain ⟨whole, fraction, exponent⟩ := l
  obtain ⟨hwhole, hfraction⟩ := hl
  have hexponent := readExponentToken_text exponent hrest
  obtain ⟨hstops, hpoint⟩ := exponentText_append_stops exponent hrest
  have hhead : ¬(whole = [] ∨ 1 < whole.length ∧ whole.head? = some '0') := by
    rintro (hnone | ⟨hlong, hzero⟩)
    · exact hwhole.ne_nil hnone
    · exact hwhole.head_ne hlong hzero
  rw [Literal.text, List.append_assoc, List.append_assoc]
  generalize Literal.exponentText exponent ++ rest = text at hexponent hstops hpoint
  cases fraction with
  | nil =>
      have hspan : spanDigits (whole ++ text) = (whole, text) :=
        spanDigits_append hwhole.allDigits hstops
      cases text with
      | nil =>
          rw [List.append_nil] at hspan
          simp [readNumber, Literal.pointText, hspan, hhead, hexponent]
      | cons c text =>
          have hc : c ≠ '.' := fun heq => hpoint (congrArg some heq)
          simp [readNumber, Literal.pointText, hspan, hhead, hexponent, hc]
  | cons c fraction =>
      have hspan : spanDigits (whole ++ '.' :: c :: (fraction ++ text)) = (whole, _) :=
        spanDigits_append hwhole.allDigits fun c hc => Option.mem_some_iff.mp hc ▸ rfl
      have hspan' : spanDigits (c :: (fraction ++ text)) = (c :: fraction, text) :=
        spanDigits_append hfraction hstops
      simp [readNumber, Literal.pointText, hspan, hspan', hhead, hexponent]

theorem ne_of_isDigit {c d : Char} (hc : c.isDigit = true) (hd : d.isDigit = false) : c ≠ d := by
  rintro rfl
  exact Bool.false_ne_true (hd.symm.trans hc)

theorem skipSpace_cons {c : Char} (hc : isSpace c = false) (text : List Char) :
    skipSpace (c :: text) = c :: text :=
  List.dropWhile_cons_of_neg (Bool.not_eq_true _ ▸ hc)

theorem isSpace_of_isDigit {c : Char} (hc : c.isDigit = true) : isSpace c = false := by
  simp [isSpace, ne_of_isDigit hc]

/-- The sign of a number stands before its literal. -/
def signed (negative : Bool) (l : Literal) : List Char :=
  (if negative then ['-'] else []) ++ l.text

theorem readValue_signed (hl : l.IsProper) (hrest : StopsNumber rest) (fuel depth : ℕ) :
    readValue round (fuel + 1) depth (signed negative l ++ rest) =
      (ofNumber round negative l.whole l.fraction (l.fraction.isEmpty && l.exponent.isNone)
        (l.exponent.getD 0), some rest) := by
  rw [← readNumber_text hl hrest, signed]
  cases negative with
  | true => rw [readValue, if_pos rfl, List.append_assoc, List.singleton_append,
      skipSpace_cons (by decide)]; rfl
  | false =>
      obtain ⟨c, whole, hwhole⟩ := List.exists_cons_of_ne_nil hl.isWhole.ne_nil
      have hc : c.isDigit = true := hl.isWhole.allDigits c (hwhole ▸ List.mem_cons_self)
      have htext : l.text = c :: (whole ++ (Literal.pointText l.fraction ++
          Literal.exponentText l.exponent)) := by
        rw [Literal.text, hwhole, List.cons_append]
      rw [readValue, htext]
      simp [skipSpace_cons (isSpace_of_isDigit hc), ne_of_isDigit hc, hc]

/-! ## Integers -/

/-- A number that fits 64 bits, with a sign or without. -/
def FitsWord (n : ℤ) : Prop :=
  (fitsSigned 64 n || fitsUnsigned 64 n) = true

theorem toString_toList (n : ℤ) :
    (toString n).toList = signed (n < 0) ⟨Nat.toDigits 10 n.natAbs, [], none⟩ := by
  have htext : (⟨Nat.toDigits 10 n.natAbs, [], none⟩ : Literal).text =
      Nat.toDigits 10 n.natAbs := List.append_nil _
  rw [signed, htext]
  cases n with
  | ofNat n =>
      have hsign : decide (Int.ofNat n < 0) = false :=
        decide_eq_false (not_lt.mpr (Int.natCast_nonneg n))
      rw [hsign]
      exact Nat.toList_repr
  | negSucc n =>
      rw [decide_eq_true (Int.negSucc_lt_zero n)]
      exact String.toList_append.trans (congrArg _ Nat.toList_repr)

theorem ofNumber_int {n : ℤ} (hn : FitsWord n) :
    ofNumber round (n < 0) (Nat.toDigits 10 n.natAbs) [] true 0 = .int n := by
  have hvalue : (if n < 0 then -(n.natAbs : ℤ) else n.natAbs) = n := by
    split <;> omega
  have hminus : (decide (n < 0) && decide ((n.natAbs : ℤ) = 0)) = false := by
    rw [Bool.and_eq_false_imp, decide_eq_true_iff]
    intro hneg
    exact decide_eq_false (by omega)
  have hfits : (fitsSigned 64 n || fitsUnsigned 64 n) = true := hn
  simp only [ofNumber, digitsValue_toDigits, decide_eq_true_iff, hvalue, hminus, hfits]
  rfl

theorem readValue_int {n : ℤ} (hn : FitsWord n) (hrest : StopsNumber rest) (fuel depth : ℕ) :
    readValue round (fuel + 1) depth ((toString n).toList ++ rest) = (.int n, some rest) := by
  have hl : (⟨Nat.toDigits 10 n.natAbs, [], none⟩ : Literal).IsProper :=
    ⟨isWhole_toDigits _, nofun⟩
  rw [toString_toList, readValue_signed hl hrest]
  exact congrArg (·, some rest) (ofNumber_int hn)

/-! ## Strings -/

section

variable (before : List Char) (ok : Bool) (rest : List Char)

theorem readString_close :
    readString before ok ('"' :: rest) =
      some (if ok then some (String.ofList before.reverse) else none, rest) := by
  unfold readString
  rfl

theorem readString_plain {c : Char} (hmark : c ≠ '"') (hslash : c ≠ '\\')
    (hcontrol : ¬c.toNat < 0x20) :
    readString before ok (c :: rest) = readString (c :: before) ok rest := by
  rw [readString.eq_def]
  simp [hmark, hslash, hcontrol]

theorem readString_simpleEscape {letter char : Char} (hletter : letter ≠ 'u')
    (hchar : simpleEscape? letter = some char) :
    readString before ok ('\\' :: letter :: rest) = readString (char :: before) ok rest := by
  rw [readString.eq_def]
  simp [hletter, hchar]

theorem readString_codeUnit {a b c d : Char} {unit : ℕ} (hunit : codeUnit? a b c d = some unit)
    (hsmall : unit < 0xd800) :
    readString before ok ('\\' :: 'u' :: a :: b :: c :: d :: rest) =
      readString (Char.ofNat unit :: before) ok rest := by
  have hlow : isLowHalf unit = false := by
    simp [isLowHalf]
    omega
  have hhigh : isHighHalf unit = false := by
    simp [isHighHalf]
    omega
  rw [readString.eq_def]
  simp [hunit, hlow, hhigh]

theorem codeUnit?_hexDigit : ∀ n < 0x20,
    codeUnit? '0' '0' (hexDigit (n / 16)) (hexDigit (n % 16)) = some n := by
  decide

/-- Inside a string a character is read as itself, however it is written. -/
theorem readString_escapeChar (c : Char) :
    readString before ok (escapeChar c ++ rest) = readString (c :: before) ok rest := by
  unfold escapeChar
  -- seven characters have a letter of their own
  iterate 7
    split
    · subst_vars
      exact readString_simpleEscape before ok rest (by decide) rfl
  split
  next hcontrol =>
    have hread := readString_codeUnit before ok rest (codeUnit?_hexDigit c.toNat hcontrol)
      (by omega)
    rwa [Char.ofNat_toNat] at hread
  next hmark hslash _ _ _ _ _ hcontrol =>
    exact readString_plain before ok rest hmark hslash hcontrol

end

theorem readString_text (before : List Char) (ok : Bool) (text rest : List Char) :
    readString before ok (text.flatMap escapeChar ++ '"' :: rest) =
      some (if ok then some (String.ofList (before.reverse ++ text)) else none, rest) := by
  induction text generalizing before with
  | nil =>
      rw [List.append_nil]
      exact readString_close before ok rest
  | cons c text ih =>
      rw [List.flatMap_cons, List.append_assoc, readString_escapeChar, ih, List.reverse_cons,
        List.append_assoc, List.singleton_append]

theorem readString_quoted (s : String) (rest : List Char) :
    readString [] true (s.toList.flatMap escapeChar ++ '"' :: rest) = some (some s, rest) := by
  rw [readString_text, if_pos rfl, List.reverse_nil, List.nil_append, String.ofList_toList]

theorem quote_toList (s : String) (rest : List Char) :
    (quote s).toList ++ rest = '"' :: (s.toList.flatMap escapeChar ++ '"' :: rest) := by
  simp [quote]

end Json

end SocketRanking
