import SocketRanking.Proofs.Text.ByteOrder
import SocketRanking.Text.Percent

/-!
# Percent coding

Decoding goes through the bytes of a text.  Here it is read character by character: a percent
sign with two hexadecimal digits after it becomes one byte, and every other character gives its
own bytes.  Coding other characters than these first makes no difference to what is decoded, so
a text in which no code stands comes back from its coded form, and a text in which one stands
does not.
-/

namespace SocketRanking.Text

def isHex (c : Char) : Bool :=
  (Json.hexValue? c).isSome

/-- Whether a percent sign with two hexadecimal digits after it stands in a text. -/
def holdsCode : List Char → Bool
  | '%' :: high :: low :: rest => isHex high && isHex low || holdsCode (high :: low :: rest)
  | _ :: rest => holdsCode rest
  | [] => false

/-- The bytes that a percent-coded text stands for. -/
def decoded : List Char → List UInt8
  | '%' :: high :: low :: rest =>
    match Json.hexValue? high, Json.hexValue? low with
    | some h, some l => UInt8.ofNat (16 * h + l) :: decoded rest
    | _, _ => 37 :: decoded (high :: low :: rest)
  | c :: rest => String.utf8EncodeChar c ++ decoded rest
  | [] => []

/-! ## Characters and their bytes -/

theorem utf8EncodeChar_of_lt {c : Char} (hc : c.toNat < 128) :
    String.utf8EncodeChar c = [UInt8.ofNat c.toNat] := by
  have hval : c.val.toNat ≤ 127 := Nat.lt_succ_iff.mp hc
  simp only [String.utf8EncodeChar, hval, if_pos]
  rfl

theorem le_of_mem_utf8EncodeChar {c : Char} (hc : 128 ≤ c.toNat) {b : UInt8}
    (hb : b ∈ String.utf8EncodeChar c) : 128 ≤ b.toNat := by
  have hval : ¬c.val.toNat ≤ 127 := Nat.not_le.mpr hc
  simp only [String.utf8EncodeChar, hval, if_false] at hb
  split_ifs at hb <;> simp only [List.mem_cons, List.not_mem_nil, or_false] at hb <;>
    rcases hb with rfl | rfl | rfl | rfl <;>
    rw [toNat_ofNat_of_lt (by omega)] <;> omega

theorem lt_of_isHex {c : Char} (hc : isHex c = true) : c.toNat < 128 := by
  have hle : c ≤ '9' ∨ c ≤ 'f' ∨ c ≤ 'F' := by
    unfold isHex Json.hexValue? at hc
    split_ifs at hc with hdigit hlower hupper
    · exact Or.inl (Bool.and_eq_true_iff.mp hdigit |>.2 |> of_decide_eq_true)
    · simp only [Bool.and_eq_true, decide_eq_true_eq] at hlower
      exact Or.inr (Or.inl hlower.2)
    · simp only [Bool.and_eq_true, decide_eq_true_eq] at hupper
      exact Or.inr (Or.inr hupper.2)
    · cases hc
  rcases hle with hle | hle | hle <;> exact lt_of_le_of_lt hle (by decide)

theorem utf8EncodeChar_of_isHex {c : Char} (hc : isHex c = true) :
    String.utf8EncodeChar c = [UInt8.ofNat c.toNat] :=
  utf8EncodeChar_of_lt (lt_of_isHex hc)

theorem ofNat_toNat_ofNat {c : Char} (hc : c.toNat < 128) :
    Char.ofNat (UInt8.ofNat c.toNat).toNat = c := by
  rw [toNat_ofNat_of_lt (hc.trans (by decide)), Char.ofNat_toNat]

/-- What begins the bytes of a character that is no digit is no digit either. -/
theorem exists_cons_of_not_isHex {c : Char} (hc : isHex c = false) :
    ∃ b bs, String.utf8EncodeChar c = b :: bs ∧ isHex (Char.ofNat b.toNat) = false := by
  by_cases hascii : c.toNat < 128
  · exact ⟨_, _, utf8EncodeChar_of_lt hascii, by rw [ofNat_toNat_ofNat hascii, hc]⟩
  · obtain ⟨b, bs, hbytes⟩ := List.exists_cons_of_ne_nil (String.utf8EncodeChar_ne_nil (c := c))
    have hb : 128 ≤ b.toNat :=
      le_of_mem_utf8EncodeChar (Nat.not_lt.mp hascii) (hbytes ▸ List.mem_cons_self)
    refine ⟨b, bs, hbytes, Bool.eq_false_iff.mpr fun hhex => ?_⟩
    have hall : ∀ n < 256, 128 ≤ n → isHex (Char.ofNat n) = false := by
      decide +kernel
    rw [hall b.toNat b.toNat_lt hb] at hhex
    cases hhex

theorem toList_loop (bs : ByteArray) (i : ℕ) (r : List UInt8) :
    ByteArray.toList.loop bs i r = r.reverse ++ bs.data.toList.drop i := by
  fun_induction ByteArray.toList.loop bs i r with
  | case1 i r hi ih =>
      have hcell : bs.data.toList.drop i = bs.get! i :: bs.data.toList.drop (i + 1) := by
        rw [List.drop_eq_getElem_cons hi]
        exact congrArg (· :: _) (getElem!_pos bs.data i hi).symm
      rw [ih, hcell, List.reverse_cons, List.append_assoc]
      rfl
  | case2 i r hi =>
      rw [List.drop_eq_nil_of_le (Nat.not_lt.mp hi), List.append_nil]

theorem toList_toUTF8 (s : String) : s.toUTF8.toList = bytes s :=
  toList_loop s.toUTF8 0 []

theorem percentEncodeChar_eq (c : Char) :
    percentEncodeChar c = (String.utf8EncodeChar c).flatMap percentEncodeByte := by
  rw [percentEncodeChar, toList_toUTF8, bytes_eq_flatMap, Char.toString, String.toList_singleton,
    List.flatMap_singleton]

/-! ## Decoding bytes -/

theorem percentDecodeBytes_cons {b : UInt8} (hb : b ≠ 37) (rest : List UInt8) :
    percentDecodeBytes (b :: rest) = b :: percentDecodeBytes rest := by
  rw [percentDecodeBytes]
  intro _ _ _ h
  exact absurd h hb

theorem percentDecodeBytes_append {bs : List UInt8} (hbs : 37 ∉ bs) (rest : List UInt8) :
    percentDecodeBytes (bs ++ rest) = bs ++ percentDecodeBytes rest := by
  induction bs with
  | nil => rfl
  | cons b bs ih =>
      obtain ⟨hb, hbs⟩ := not_or.mp (mt List.mem_cons.mpr hbs)
      rw [List.cons_append, percentDecodeBytes_cons (Ne.symm hb), ih hbs, List.cons_append]

/-- A percent sign stays if no two digits come after it. -/
theorem percentDecodeBytes_percent {bs : List UInt8}
    (hbs : ∀ high low rest, bs = high :: low :: rest → percentByte? high low = none) :
    percentDecodeBytes (37 :: bs) = 37 :: percentDecodeBytes bs := by
  match bs with
  | [] => rfl
  | [b] => rfl
  | high :: low :: rest =>
    rw [percentDecodeBytes, hbs high low rest rfl]

theorem percentByte?_of_hexValue? {high low : Char} {h l : ℕ}
    (hhigh : Json.hexValue? high = some h) (hlow : Json.hexValue? low = some l) :
    percentByte? (UInt8.ofNat high.toNat) (UInt8.ofNat low.toNat) =
      some (UInt8.ofNat (16 * h + l)) := by
  rw [percentByte?, ofNat_toNat_ofNat (lt_of_isHex (Option.isSome_of_eq_some hhigh)),
    ofNat_toNat_ofNat (lt_of_isHex (Option.isSome_of_eq_some hlow)), hhigh, hlow]
  rfl

theorem percentByte?_eq_none {high low : UInt8}
    (hdigits : isHex (Char.ofNat high.toNat) = false ∨ isHex (Char.ofNat low.toNat) = false) :
    percentByte? high low = none := by
  rw [percentByte?]
  rcases hdigits with hhigh | hlow
  · rw [Option.not_isSome_iff_eq_none.mp (Bool.eq_false_iff.mp hhigh)]
    rfl
  · rw [Option.not_isSome_iff_eq_none.mp (Bool.eq_false_iff.mp hlow)]
    cases Json.hexValue? (Char.ofNat high.toNat) <;> rfl

theorem not_both_isHex {high low : Char}
    (hnone : ∀ h l, Json.hexValue? high = some h → Json.hexValue? low = some l → False) :
    isHex high = false ∨ isHex low = false := by
  by_contra hboth
  simp only [not_or, Bool.not_eq_false, isHex, Option.isSome_iff_exists] at hboth
  obtain ⟨⟨h, hhigh⟩, l, hlow⟩ := hboth
  exact hnone h l hhigh hlow

theorem hexValue?_toUpper_digitChar {n : ℕ} (hn : n < 16) :
    Json.hexValue? (Nat.digitChar n).toUpper = some n := by
  revert n
  decide

theorem percentDecodeBytes_percentEncodeByte (b : UInt8) (rest : List UInt8) :
    percentDecodeBytes ((percentEncodeByte b).flatMap String.utf8EncodeChar ++ rest) =
      b :: percentDecodeBytes rest := by
  have hb := b.toNat_lt
  have hhigh := hexValue?_toUpper_digitChar (n := b.toNat / 16) (by omega)
  have hlow := hexValue?_toUpper_digitChar (n := b.toNat % 16) (by omega)
  have hvalue : UInt8.ofNat (16 * (b.toNat / 16) + b.toNat % 16) = b := by
    rw [Nat.div_add_mod, UInt8.ofNat_toNat]
  rw [percentEncodeByte, List.flatMap_cons, List.flatMap_cons, List.flatMap_cons, List.flatMap_nil,
    utf8EncodeChar_of_isHex (Option.isSome_of_eq_some hhigh),
    utf8EncodeChar_of_isHex (Option.isSome_of_eq_some hlow),
    show String.utf8EncodeChar '%' = [37] from rfl]
  change percentDecodeBytes (37 :: _ :: _ :: rest) = _
  rw [percentDecodeBytes, percentByte?_of_hexValue? hhigh hlow, hvalue]

theorem percentDecodeBytes_percentEncodeBytes (bs rest : List UInt8) :
    percentDecodeBytes ((bs.flatMap percentEncodeByte).flatMap String.utf8EncodeChar ++ rest) =
      bs ++ percentDecodeBytes rest := by
  induction bs with
  | nil => rfl
  | cons b bs ih =>
      rw [List.flatMap_cons, List.flatMap_append, List.append_assoc,
        percentDecodeBytes_percentEncodeByte, ih, List.cons_append]

/-! ## Decoding characters -/

/-- Bytes for characters: percent signs and digits stand as they are, and decoding finds the
bytes of every other character in what stands for it. -/
structure IsCoding (e : Char → List UInt8) : Prop where
  percent : e '%' = [37]
  digit : ∀ c, isHex c = true → e c = [UInt8.ofNat c.toNat]
  start : ∀ c, isHex c = false → ∃ b bs, e c = b :: bs ∧ isHex (Char.ofNat b.toNat) = false
  back : ∀ c, c ≠ '%' → ∀ rest,
    percentDecodeBytes (e c ++ rest) = String.utf8EncodeChar c ++ percentDecodeBytes rest

theorem isCoding_utf8EncodeChar : IsCoding String.utf8EncodeChar where
  percent := rfl
  digit _ hc := utf8EncodeChar_of_isHex hc
  start _ hc := exists_cons_of_not_isHex hc
  back c hc rest := by
    refine percentDecodeBytes_append (fun hmem => ?_) rest
    by_cases hascii : c.toNat < 128
    · rw [utf8EncodeChar_of_lt hascii] at hmem
      have hcode := congrArg UInt8.toNat (List.mem_singleton.mp hmem)
      rw [toNat_ofNat_of_lt (hascii.trans (by decide))] at hcode
      exact hc (Char.toNat_inj.mp hcode.symm)
    · exact absurd (le_of_mem_utf8EncodeChar (Nat.not_lt.mp hascii) hmem) (by decide)

/-- Coding a class of characters keeps the others as they are. -/
theorem isCoding_encode {coded : Char → Bool} (hpercent : coded '%' = false)
    (hdigits : ∀ c, isHex c = true → coded c = false) :
    IsCoding fun c =>
      (if coded c then percentEncodeChar c else [c]).flatMap String.utf8EncodeChar where
  percent := by rw [hpercent]; rfl
  digit c hc := by
    rw [hdigits c hc]
    exact (List.append_nil _).trans (utf8EncodeChar_of_isHex hc)
  start c hc := by
    obtain ⟨b, bs, hbytes, hb⟩ := exists_cons_of_not_isHex hc
    split
    · rw [percentEncodeChar_eq, hbytes]
      exact ⟨37, _, rfl, by decide⟩
    · exact ⟨b, bs, (List.append_nil _).trans hbytes, hb⟩
  back c hc rest := by
    split
    · rw [percentEncodeChar_eq, percentDecodeBytes_percentEncodeBytes]
    · rw [List.flatMap_singleton]
      exact isCoding_utf8EncodeChar.back c hc rest

namespace IsCoding

variable {e : Char → List UInt8} (he : IsCoding e)

include he

/-- A percent sign stays if the next two characters are not both digits. -/
theorem percentDecodeBytes_percent {text : List Char}
    (htext : ∀ high low rest, text = high :: low :: rest → isHex high = false ∨ isHex low = false) :
    percentDecodeBytes (37 :: text.flatMap e) = 37 :: percentDecodeBytes (text.flatMap e) := by
  refine Text.percentDecodeBytes_percent fun high low rest hbytes => percentByte?_eq_none ?_
  cases text with
  | nil => cases hbytes
  | cons c text =>
      rw [List.flatMap_cons] at hbytes
      cases hc : isHex c with
      | false =>
          obtain ⟨b, bs, hstart, hb⟩ := he.start c hc
          rw [hstart] at hbytes
          obtain rfl := (List.cons.inj hbytes).1
          exact Or.inl hb
      | true =>
          rw [he.digit c hc] at hbytes
          obtain ⟨-, hlater⟩ := List.cons.inj hbytes
          cases text with
          | nil => cases hlater
          | cons d text =>
              have hd := (htext c d text rfl).resolve_left (by simp [hc])
              obtain ⟨b, bs, hstart, hb⟩ := he.start d hd
              change (d :: text).flatMap e = low :: rest at hlater
              rw [List.flatMap_cons, hstart] at hlater
              obtain rfl := (List.cons.inj hlater).1
              exact Or.inr hb

/-- However characters are coded, the same comes back. -/
theorem percentDecodeBytes_flatMap (text : List Char) :
    percentDecodeBytes (text.flatMap e) = decoded text := by
  fun_induction decoded text with
  | case1 high low rest h l hlow hhigh ih =>
      rw [List.flatMap_cons, List.flatMap_cons, List.flatMap_cons, he.percent,
        he.digit high (Option.isSome_of_eq_some hhigh),
        he.digit low (Option.isSome_of_eq_some hlow)]
      change percentDecodeBytes (37 :: _ :: _ :: rest.flatMap e) = _
      rw [percentDecodeBytes, percentByte?_of_hexValue? hhigh hlow, ih]
  | case2 high low rest hnone ih =>
      rw [List.flatMap_cons, he.percent]
      refine (he.percentDecodeBytes_percent ?_).trans (congrArg _ ih)
      rintro _ _ _ ⟨⟩
      exact not_both_isHex hnone
  | case3 c rest hnone ih =>
      rw [List.flatMap_cons]
      by_cases hc : c = '%'
      · subst hc
        rw [he.percent]
        refine (he.percentDecodeBytes_percent ?_).trans (congrArg _ ih)
        rintro high low more rfl
        exact (hnone high low more rfl rfl).elim
      · rw [he.back c hc, ih]
  | case4 => rfl

end IsCoding

/-! ## Texts and codes -/

theorem holdsCode_of_cons {c : Char} {rest : List Char} (hcode : holdsCode (c :: rest) = false) :
    holdsCode rest = false := by
  rw [holdsCode.eq_def] at hcode
  split at hcode
  next heq =>
    obtain ⟨-, rfl⟩ := List.cons.inj heq
    exact (Bool.or_eq_false_iff.mp hcode).2
  next heq =>
    obtain ⟨-, rfl⟩ := List.cons.inj heq
    exact hcode
  next heq => cases heq

/-- Decoding shortens a text if there is a code in it, and changes nothing if there is none. -/
theorem decoded_cases (text : List Char) :
    holdsCode text = false ∧ decoded text = text.flatMap String.utf8EncodeChar ∨
      holdsCode text = true ∧
        (decoded text).length < (text.flatMap String.utf8EncodeChar).length := by
  fun_induction decoded text with
  | case1 high low rest h l hlow hhigh ih =>
      have hcode : holdsCode ('%' :: high :: low :: rest) = true := by
        rw [holdsCode, isHex, isHex, hhigh, hlow]
        rfl
      have hrest : (decoded rest).length ≤ (rest.flatMap String.utf8EncodeChar).length :=
        ih.elim (fun hsame => (congrArg _ hsame.2).le) fun hless => hless.2.le
      refine Or.inr ⟨hcode, ?_⟩
      rw [List.flatMap_cons, List.flatMap_cons, List.flatMap_cons,
        utf8EncodeChar_of_isHex (Option.isSome_of_eq_some hhigh),
        utf8EncodeChar_of_isHex (Option.isSome_of_eq_some hlow)]
      simp only [List.length_cons, List.length_append, List.length_nil]
      omega
  | case2 high low rest hnone ih =>
      have hcode : holdsCode ('%' :: high :: low :: rest) = holdsCode (high :: low :: rest) := by
        rw [holdsCode, Bool.and_eq_false_iff.mpr (not_both_isHex hnone), Bool.false_or]
      rw [hcode, List.flatMap_cons]
      exact ih.imp (fun hsame => ⟨hsame.1, congrArg _ hsame.2⟩)
        fun hless => ⟨hless.1, Nat.succ_lt_succ hless.2⟩
  | case3 c rest hnone ih =>
      rw [holdsCode.eq_2 c rest hnone, List.flatMap_cons, List.length_append, List.length_append]
      refine ih.imp (fun hsame => ⟨hsame.1, congrArg _ hsame.2⟩) fun hless => ⟨hless.1, ?_⟩
      exact Nat.add_lt_add_left hless.2 _
  | case4 => exact Or.inl ⟨rfl, rfl⟩

theorem percentDecode?_eq_some_iff {text s : String} :
    percentDecode? text = some s ↔ decoded text.toList = bytes s := by
  rw [percentDecode?, toList_toUTF8, bytes_eq_flatMap text,
    isCoding_utf8EncodeChar.percentDecodeBytes_flatMap, String.fromUTF8?]
  constructor
  · intro hs
    split at hs
    next hvalid =>
      obtain rfl := Option.some.inj hs
      rfl
    next => cases hs
  · intro hs
    have hbytes : (⟨(decoded text.toList).toArray⟩ : ByteArray) = s.toUTF8 := by
      rw [hs]
      rfl
    rw [hbytes]
    exact dif_pos s.isValidUTF8

/-- A text is what its own decoding gives if no code stands in it, and only then. -/
theorem percentDecode?_self_iff {text : String} :
    percentDecode? text = some text ↔ holdsCode text.toList = false := by
  rw [percentDecode?_eq_some_iff, bytes_eq_flatMap]
  rcases decoded_cases text.toList with ⟨hcode, hsame⟩ | ⟨hcode, hless⟩
  · exact iff_of_true hsame hcode
  · exact iff_of_false (fun hsame => hless.ne (congrArg _ hsame)) (by rw [hcode]; decide)

/-- What is decoded is not longer than the text. -/
theorem length_bytes_le_of_percentDecode? {text s : String} (hs : percentDecode? text = some s) :
    (bytes s).length ≤ (bytes text).length := by
  rw [← percentDecode?_eq_some_iff.mp hs, bytes_eq_flatMap text]
  rcases decoded_cases text.toList with ⟨-, hsame⟩ | ⟨-, hless⟩
  · exact (congrArg _ hsame).le
  · exact hless.le

end SocketRanking.Text
