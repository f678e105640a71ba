import SocketRanking.Proofs.Number.Decimals

/-!
# Number literals

A literal has digits before the point, digits after it if there is a point, and perhaps an
exponent.  The text of a finite double is a literal, and the literal denotes a decimal that
is read as the double (`toFloat_literalOf`).
-/

namespace SocketRanking.Number

/-- A number literal, its sign apart; without a fraction there is no point. -/
structure Literal where
  whole : List Char
  fraction : List Char
  exponent : Option ℤ

namespace Literal

def pointText (fraction : List Char) : List Char :=
  if fraction.isEmpty then [] else '.' :: fraction

/-- An exponent always has a sign. -/
def exponentText : Option ℤ → List Char
  | none => []
  | some n => 'e' :: (if n < 0 then '-' else '+') :: Nat.toDigits 10 n.natAbs

def text (l : Literal) : List Char :=
  l.whole ++ (pointText l.fraction ++ exponentText l.exponent)

def decimal (l : Literal) (negative : Bool) : Decimal :=
  .ofParts negative l.whole l.fraction (l.exponent.getD 0)

/-- The number that the literal denotes. -/
def value (l : Literal) : ℚ :=
  digitsValue (l.whole ++ l.fraction) * 10 ^ (l.exponent.getD 0 - l.fraction.length)

/-- There is no needless zero in front. -/
structure IsProper (l : Literal) : Prop where
  isWhole : IsWhole l.whole
  allDigits : AllDigits l.fraction

def IsInteger (l : Literal) : Prop :=
  l.fraction = [] ∧ l.exponent = none

end Literal

namespace Digits

variable {d : Digits}

theorem IsProper.isWhole (hd : d.IsProper) : IsWhole d.digits :=
  ⟨hd.allDigits, hd.ne_nil, fun _ => hd.head_ne⟩

/-! ## Without an exponent -/

/-- There is always a point. -/
def plain (d : Digits) : Literal :=
  if d.point ≤ 0 then ⟨['0'], zeros (-d.point).toNat ++ d.digits, none⟩
  else if d.digits.length ≤ d.point then
    ⟨d.digits ++ zeros (d.point - d.digits.length).toNat, ['0'], none⟩
  else ⟨d.digits.take d.point.toNat, d.digits.drop d.point.toNat, none⟩

theorem plain_text (hd : d.IsProper) :
    d.plain.text =
      if d.positional.contains '.' then d.positional else d.positional ++ ['.', '0'] := by
  unfold plain positional
  simp only
  split
  next =>
    have hpoint : ('0' :: '.' :: zeros (-d.point).toNat ++ d.digits).contains '.' = true := by
      simp
    rw [if_pos hpoint]
    simp [Literal.text, Literal.pointText, Literal.exponentText, hd.ne_nil]
  next =>
    split
    next =>
      have hdigits : AllDigits (d.digits ++ zeros (d.point - d.digits.length).toNat) :=
        hd.allDigits.append (allDigits_zeros _)
      have hpoint : ¬(d.digits ++ zeros (d.point - d.digits.length).toNat).contains '.' = true :=
        fun hmem => absurd (hdigits '.' (List.contains_iff_mem.mp hmem)) (by decide)
      rw [if_neg hpoint]
      simp [Literal.text, Literal.pointText, Literal.exponentText]
    next =>
      have hpoint : (d.digits.take d.point.toNat ++ '.' :: d.digits.drop d.point.toNat).contains
          '.' = true := by simp
      rw [if_pos hpoint]
      have hfraction : d.digits.drop d.point.toNat ≠ [] := by
        rw [Ne, List.drop_eq_nil_iff]
        omega
      simp [Literal.text, Literal.pointText, Literal.exponentText, hfraction]

theorem plain_isProper (hd : d.IsProper) : d.plain.IsProper ∧ ¬d.plain.IsInteger := by
  unfold plain
  split
  next =>
    refine ⟨⟨isWhole_toDigits 0, (allDigits_zeros _).append hd.allDigits⟩, ?_⟩
    exact fun hinteger => List.append_ne_nil_of_right_ne_nil _ hd.ne_nil hinteger.1
  next =>
    split
    next =>
      refine ⟨⟨⟨hd.allDigits.append (allDigits_zeros _), ?_, fun _ => ?_⟩,
        allDigits_zeros 1⟩, ?_⟩
      · exact List.append_ne_nil_of_left_ne_nil hd.ne_nil _
      · rw [List.head?_append_of_ne_nil _ hd.ne_nil]
        exact hd.head_ne
      · exact fun hinteger => List.cons_ne_nil _ _ hinteger.1
    next hpos hlong =>
      have hsome : d.point.toNat ≠ 0 := by omega
      refine ⟨⟨⟨fun c hc => hd.allDigits c (List.mem_of_mem_take hc), ?_, fun _ => ?_⟩,
        fun c hc => hd.allDigits c (List.mem_of_mem_drop hc)⟩, fun hinteger => ?_⟩
      · rw [Ne, List.take_eq_nil_iff, not_or]
        exact ⟨hsome, hd.ne_nil⟩
      · rw [List.head?_take, if_neg hsome]
        exact hd.head_ne
      · have hshort := List.drop_eq_nil_iff.mp hinteger.1
        omega

theorem plain_value (d : Digits) : d.plain.value = d.value := by
  unfold plain value Literal.value
  split
  next =>
    have hdigits : digitsValue (['0'] ++ (zeros (-d.point).toNat ++ d.digits)) =
        digitsValue d.digits := digitsValue_zeros_append ((-d.point).toNat + 1) d.digits
    simp only [hdigits, Option.getD_none]
    congr 2
    rw [List.length_append, zeros, List.length_replicate]
    omega
  next =>
    split
    next hlong =>
      generalize hn : (d.point - d.digits.length).toNat = n
      have hdigits : digitsValue (d.digits ++ zeros n ++ ['0']) =
          10 ^ (n + 1) * digitsValue d.digits := by
        rw [List.append_assoc, ← digitsValue_append_zeros, zeros, zeros, List.replicate_succ']
      have hplaces : d.point - d.digits.length = ((n + 1 : ℕ) : ℤ) + (0 - ['0'].length) := by
        rw [List.length_singleton]
        omega
      simp only [hdigits, Option.getD_none]
      rw [hplaces, zpow_add₀ (by norm_num), zpow_natCast]
      push_cast
      ring
    next =>
      simp only [List.take_append_drop, Option.getD_none]
      congr 2
      rw [List.length_drop]
      omega

/-! ## With an exponent -/

/-- One digit stands before the point. -/
def exponential (d : Digits) : Literal :=
  ⟨d.digits.take 1, d.digits.drop 1, some (d.point - 1)⟩

theorem exponential_text (d : Digits) : d.exponential.text = d.scientific := by
  rw [Literal.text, scientific, ← List.append_assoc]
  rfl

theorem exponential_isProper (hd : d.IsProper) :
    d.exponential.IsProper ∧ ¬d.exponential.IsInteger := by
  refine ⟨⟨⟨fun c hc => hd.allDigits c (List.mem_of_mem_take hc), ?_, fun hlong => ?_⟩,
    fun c hc => hd.allDigits c (List.mem_of_mem_drop hc)⟩, fun hinteger => nomatch hinteger.2⟩
  · rw [exponential, Ne, List.take_eq_nil_iff, not_or]
    exact ⟨one_ne_zero, hd.ne_nil⟩
  · exact absurd (List.length_take_le 1 d.digits) (not_le.mpr hlong)

theorem exponential_value (hd : d.IsProper) : d.exponential.value = d.value := by
  have hlength : 0 < d.digits.length := List.length_pos_iff.mpr hd.ne_nil
  unfold exponential value Literal.value
  simp only [List.take_append_drop, Option.getD_some]
  congr 2
  rw [List.length_drop]
  omega

/-! ## The text of a double -/

def literal (d : Digits) : Literal :=
  if -5 < d.point ∧ d.point ≤ 16 then d.plain else d.exponential

theorem literal_text (hd : d.IsProper) :
    d.literal.text =
      if -5 < d.point ∧ d.point ≤ 16 then
        if d.positional.contains '.' then d.positional else d.positional ++ ['.', '0']
      else d.scientific := by
  unfold literal
  split
  · exact plain_text hd
  · exact exponential_text d

theorem literal_isProper (hd : d.IsProper) : d.literal.IsProper ∧ ¬d.literal.IsInteger := by
  unfold literal
  split
  · exact plain_isProper hd
  · exact exponential_isProper hd

theorem literal_value (hd : d.IsProper) : d.literal.value = d.value := by
  unfold literal
  split
  · exact plain_value d
  · exact exponential_value hd

end Digits

/-- The literal of a finite double. -/
def literalOf (x : Float) : Literal :=
  if (Binary.ofFloat x).significand = 0 then ⟨['0'], ['0'], none⟩
  else (Shortest.ofFloat x).literal

variable {x : Float}

theorem literalText_toList (hfinite : x.isFinite = true) :
    (literalText x).toList =
      (if (Binary.ofFloat x).negative then ['-'] else []) ++ (literalOf x).text := by
  have hsign : (if (Binary.ofFloat x).negative then "-" else "").toList =
      if (Binary.ofFloat x).negative then ['-'] else [] := by
    split <;> rfl
  unfold literalText literalOf
  simp only
  split
  next =>
    rw [String.toList_append, hsign]
    rfl
  next hm =>
    obtain ⟨hproper, -⟩ := Shortest.ofFloat_spec hfinite (Nat.pos_of_ne_zero hm)
    rw [String.toList_append, hsign, String.toList_ofList, Digits.literal_text hproper]

theorem literalOf_isProper (hfinite : x.isFinite = true) :
    (literalOf x).IsProper ∧ ¬(literalOf x).IsInteger := by
  unfold literalOf
  split
  next =>
    exact ⟨⟨isWhole_toDigits 0, allDigits_zeros 1⟩,
      fun hinteger => List.cons_ne_nil _ _ hinteger.1⟩
  next hm =>
    exact Digits.literal_isProper (Shortest.ofFloat_spec hfinite (Nat.pos_of_ne_zero hm)).1

/-- What is written of a finite double is read as the double. -/
theorem toFloat_literalOf (hfinite : x.isFinite = true) :
    ((literalOf x).decimal (Binary.ofFloat x).negative).toFloat = x := by
  by_cases hm : (Binary.ofFloat x).significand = 0
  · rw [literalOf, if_pos hm]
    exact toFloat_eq_of_zero hfinite hm rfl rfl
  · rw [literalOf, if_neg hm]
    obtain ⟨hproper, hnear⟩ := Shortest.ofFloat_spec hfinite (Nat.pos_of_ne_zero hm)
    rw [← Digits.literal_value hproper] at hnear
    exact toFloat_eq_of_isNear hfinite (Nat.pos_of_ne_zero hm) rfl hnear

end SocketRanking.Number
