import SocketRanking.Client.Url.Basic
import SocketRanking.Proofs.Text.PercentCoding
import Mathlib.Data.List.Flatten
import Mathlib.Data.List.TakeWhile
import Mathlib.Data.String.Basic

/-!
# The paths of URLs

A relative path is cut at its query and its fragment, split at its slashes and walked along.  The
segments of the URL that results are segments of the path with some of their characters coded, or
stood in the URL before, or are empty.  A path that is written from segments is split into the
same segments again.
-/

namespace SocketRanking

/-! ## Splitting texts -/

section

open String

/-- Splitting at one character, from the middle of a text. -/
theorem splitOnAux_of_valid (sep : Char) (l m r : List Char) (parts : List String) :
    splitOnAux (ofList (l ++ m ++ r)) (singleton sep) ⟨utf8Len l⟩ ⟨utf8Len l + utf8Len m⟩ 0 parts =
      parts.reverse ++ (List.splitOnPPrepend (· == sep) r m.reverse).map ofList := by
  induction r generalizing l m parts with
  | nil =>
      have hend : (⟨utf8Len l + utf8Len m⟩ : Pos.Raw).atEnd (ofList (l ++ m ++ [])) = true := by
        rw [← utf8Len_append]
        exact (atEnd_of_valid (l ++ m) []).mpr rfl
      rw [splitOnAux, if_pos hend, extract_of_valid, List.splitOnPPrepend_nil, List.reverse_reverse,
        List.reverse_cons]
      rfl
  | cons c r ih =>
      have hend :
          ¬(⟨utf8Len l + utf8Len m⟩ : Pos.Raw).atEnd (ofList (l ++ m ++ c :: r)) = true := by
        rw [← utf8Len_append]
        exact fun h => List.cons_ne_nil c r ((atEnd_of_valid (l ++ m) (c :: r)).mp h)
      have hget : (⟨utf8Len l + utf8Len m⟩ : Pos.Raw).get (ofList (l ++ m ++ c :: r)) = c := by
        rw [← utf8Len_append, get_of_valid]
        rfl
      have hnext : (⟨utf8Len l + utf8Len m⟩ : Pos.Raw).next (ofList (l ++ m ++ c :: r)) =
          ⟨utf8Len l + utf8Len m + c.utf8Size⟩ := by
        rw [← utf8Len_append, next_of_valid]
      have hsep : (0 : Pos.Raw).get (singleton sep) = sep := get_of_valid [] [sep]
      rw [splitOnAux, if_neg hend, hget, hsep]
      by_cases hc : c = sep
      · have hpos : (0 : Pos.Raw).next (singleton sep) = ⟨sep.utf8Size⟩ :=
          (next_of_valid [] sep []).trans (by simp)
        have hover : (⟨sep.utf8Size⟩ : Pos.Raw).atEnd (singleton sep) = true := by
          simpa using atEnd_of_valid [sep] []
        have hback : (⟨utf8Len l + utf8Len m + sep.utf8Size⟩ : Pos.Raw).unoffsetBy ⟨sep.utf8Size⟩ =
            ⟨utf8Len l + utf8Len m⟩ :=
          Pos.Raw.ext (Nat.add_sub_cancel _ _)
        have hrest := ih (l ++ m ++ [c]) [] (ofList m :: parts)
        subst hc
        simp only [beq_self_eq_true, if_true, hnext, hpos, hover, hback, extract_of_valid]
        simpa [Nat.add_assoc, List.splitOnPPrepend_cons_eq_if] using hrest
      · have hrest := ih l (m ++ [c]) parts
        have hback : (⟨utf8Len l + utf8Len m⟩ : Pos.Raw).unoffsetBy 0 = ⟨utf8Len l + utf8Len m⟩ :=
          rfl
        simp only [beq_eq_false_iff_ne.mpr hc, hback, hnext]
        simpa [Nat.add_assoc, List.splitOnPPrepend_cons_eq_if, hc] using hrest

theorem splitOn_singleton (sep : Char) (s : String) :
    s.splitOn (singleton sep) = (s.toList.splitOn sep).map ofList := by
  have hsep : (singleton sep == "") = false := by
    simp
  have hsplit := splitOnAux_of_valid sep [] [] s.toList []
  rw [splitOn, hsep]
  simpa [List.splitOn_eq_splitOnP] using hsplit

end

/-- A path is split into the segments of which it was made. -/
theorem splitOn_slash {segments : List String} (hne : segments ≠ [])
    (hslash : ∀ s ∈ segments, '/' ∉ s.toList) :
    ("/" ++ "/".intercalate segments).splitOn "/" = "" :: segments := by
  have hpath : "/" ++ "/".intercalate segments = "/".intercalate ("" :: segments) := by
    rw [String.intercalate_cons_of_ne_nil hne, String.empty_append]
  have hparts : ∀ part ∈ ("" :: segments).map String.toList, '/' ∉ part := by
    simpa using hslash
  rw [hpath, show "/" = String.singleton '/' from rfl, splitOn_singleton,
    String.toList_intercalate, String.toList_singleton,
    List.splitOn_intercalate '/' hparts (by simp), List.map_map]
  simp [Function.comp_def]

theorem mem_intercalate_slash {segments : List String} {c : Char}
    (hc : c ∈ ("/".intercalate segments).toList) : c = '/' ∨ ∃ s ∈ segments, c ∈ s.toList := by
  induction segments with
  | nil => cases hc
  | cons first rest ih =>
      cases rest with
      | nil =>
          rw [String.intercalate_singleton] at hc
          exact Or.inr ⟨first, List.mem_cons_self, hc⟩
      | cons second later =>
          rw [String.intercalate_cons_cons, String.toList_append, String.toList_append] at hc
          rcases List.mem_append.mp hc with hc | hc
          · rcases List.mem_append.mp hc with hc | hc
            · exact Or.inr ⟨first, List.mem_cons_self, hc⟩
            · exact Or.inl (List.mem_singleton.mp hc)
          · exact (ih hc).imp_right fun ⟨s, hs, hcs⟩ => ⟨s, List.mem_cons_of_mem _ hs, hcs⟩

namespace Url

/-! ## Segments as they stand in a URL -/

section

variable {coded : Char → Bool}

/-- Coding other characters than percent signs and digits makes no difference to what is
decoded. -/
theorem percentDecode?_encodeWhere (hpercent : coded '%' = false)
    (hdigits : ∀ c, Text.isHex c = true → coded c = false) (text : List Char) :
    Text.percentDecode? (encodeWhere coded text) = Text.percentDecode? (String.ofList text) := by
  rw [Text.percentDecode?, Text.percentDecode?, Text.toList_toUTF8, Text.toList_toUTF8,
    Text.bytes_eq_flatMap, Text.bytes_eq_flatMap, encodeWhere, String.toList_ofList,
    String.toList_ofList, List.flatMap_assoc,
    (Text.isCoding_encode hpercent hdigits).percentDecodeBytes_flatMap,
    Text.isCoding_utf8EncodeChar.percentDecodeBytes_flatMap]

theorem mem_encodeWhere {text : List Char} {c : Char} (hc : c ∈ (encodeWhere coded text).toList) :
    c = '%' ∨ Text.isHex c = true ∨ c ∈ text ∧ coded c = false := by
  rw [encodeWhere, String.toList_ofList] at hc
  obtain ⟨d, hd, hcd⟩ := List.mem_flatMap.mp hc
  split at hcd
  next =>
    rw [Text.percentEncodeChar_eq] at hcd
    obtain ⟨b, -, hb⟩ := List.mem_flatMap.mp hcd
    have hlt := b.toNat_lt
    simp only [Text.percentEncodeByte, List.mem_cons, List.not_mem_nil, or_false] at hb
    rcases hb with rfl | rfl | rfl
    · exact Or.inl rfl
    · exact Or.inr (Or.inl (Option.isSome_of_eq_some
        (Text.hexValue?_toUpper_digitChar (n := b.toNat / 16) (by omega))))
    · exact Or.inr (Or.inl (Option.isSome_of_eq_some
        (Text.hexValue?_toUpper_digitChar (n := b.toNat % 16) (by omega))))
  next hcoded =>
    obtain rfl := List.mem_singleton.mp hcd
    exact Or.inr (Or.inr ⟨hd, Bool.eq_false_iff.mpr hcoded⟩)

end

theorem percentDecode?_encodeSegment (text : List Char) :
    Text.percentDecode? (encodeSegment text) = Text.percentDecode? (String.ofList text) := by
  refine percentDecode?_encodeWhere (by decide) (fun c hc => ?_) text
  have hall : ∀ n < 128, Text.isHex (Char.ofNat n) = true →
      (isUnsafe (Char.ofNat n) || " \"<>\x60#?\x7b\x7d".toList.contains (Char.ofNat n)) =
        false := by
    decide +kernel
  have hcoded := hall c.toNat (Text.lt_of_isHex hc)
  rw [Char.ofNat_toNat] at hcoded
  exact hcoded hc

/-- Neither query nor fragment begins inside of a segment, and no segment begins there that did
not before. -/
theorem mem_encodeSegment {text : List Char} {c : Char} (hc : c ∈ (encodeSegment text).toList) :
    c ≠ '?' ∧ c ≠ '#' ∧ (c = '/' → c ∈ text) := by
  rcases mem_encodeWhere hc with rfl | hhex | ⟨hmem, hkept⟩
  · exact ⟨by decide, by decide, fun hslash => absurd hslash (by decide)⟩
  · refine ⟨?_, ?_, ?_⟩ <;> rintro rfl <;> exact absurd hhex (by decide)
  · refine ⟨?_, ?_, fun _ => hmem⟩ <;> rintro rfl <;> exact absurd hkept (by decide)

/-! ## The pieces of a path -/

/-- Whether a path goes on with a character, and neither query nor fragment begins. -/
def goesOn (c : Char) : Bool :=
  c ≠ '?' && c ≠ '#'

/-- What a relative path consists of: the parts between its slashes, up to the query and the
fragment. -/
def pieces (path : List Char) : List (List Char) :=
  splitSlashes true ((withoutBreaks path).takeWhile goesOn)

theorem splitSlashes_eq_splitOnP (known : Bool) (path : List Char) :
    splitSlashes known path = path.splitOnP (isSlash known) := by
  induction path with
  | nil => rfl
  | cons c rest ih =>
      rw [splitSlashes, List.splitOnP_cons_eq_if_modifyHead, ih]
      split
      next => rfl
      next =>
        split
        next hnone => exact absurd hnone (List.splitOnP_ne_nil _ _)
        next hsome =>
          rw [hsome]
          rfl

theorem splitSlashes_ne_nil (known : Bool) (path : List Char) : splitSlashes known path ≠ [] := by
  rw [splitSlashes_eq_splitOnP]
  exact List.splitOnP_ne_nil _ _

/-- A part between slashes is a part of the path, without a slash. -/
theorem of_mem_splitSlashes {known : Bool} {path piece : List Char}
    (hpiece : piece ∈ splitSlashes known path) :
    piece.Sublist path ∧ ∀ c ∈ piece, isSlash known c = false := by
  induction path generalizing piece with
  | nil =>
      obtain rfl := List.mem_singleton.mp hpiece
      exact ⟨List.Sublist.refl [], nofun⟩
  | cons c rest ih =>
      rw [splitSlashes] at hpiece
      split at hpiece
      next =>
        rcases List.mem_cons.mp hpiece with rfl | hrest
        · exact ⟨List.nil_sublist _, nofun⟩
        · exact ⟨(ih hrest).1.cons c, (ih hrest).2⟩
      next hc =>
        split at hpiece
        next hnone => exact absurd hnone (splitSlashes_ne_nil known rest)
        next segment segments hsome =>
          rw [hsome] at ih
          rcases List.mem_cons.mp hpiece with rfl | hlater
          · obtain ⟨hsub, hslash⟩ := ih List.mem_cons_self
            refine ⟨hsub.cons_cons c, fun d hd => ?_⟩
            rcases List.mem_cons.mp hd with rfl | hd
            · exact Bool.eq_false_iff.mpr hc
            · exact hslash d hd
          · obtain ⟨hsub, hslash⟩ := ih (List.mem_cons_of_mem _ hlater)
            exact ⟨hsub.cons c, hslash⟩

/-- A character at which a path is taken apart or cut off, or that is dropped from it. -/
def isMark (c : Char) : Bool :=
  ['/', '\\', '?', '#', '\t', '\n', '\r'].contains c

theorem isMark_eq_false_iff {c : Char} :
    isMark c = false ↔ isSlash true c = false ∧ goesOn c = true ∧
      (c ≠ '\t' && c ≠ '\n' && c ≠ '\r') = true := by
  simp [isMark, isSlash, goesOn, and_assoc]

theorem isMark_eq_false_of_any {text : List Char} (htext : text.any isMark = false) :
    ∀ c ∈ text, isMark c = false := fun c hc =>
  Bool.eq_false_iff.mpr (List.any_eq_false.mp htext c hc)

theorem of_mem_pieces {path piece : List Char} (hpiece : piece ∈ pieces path) :
    piece.Sublist path ∧ ∀ c ∈ piece, isMark c = false := by
  obtain ⟨hsub, hslash⟩ := of_mem_splitSlashes hpiece
  have hkept := hsub.trans (List.takeWhile_sublist _)
  refine ⟨hkept.trans List.filter_sublist, fun c hc => ?_⟩
  refine isMark_eq_false_iff.mpr ⟨hslash c hc, ?_, ?_⟩
  · exact List.mem_takeWhile_imp (hsub.subset hc)
  · exact (List.mem_filter.mp (hkept.subset hc)).2

/-- A part of a text that has as many bytes is the whole text. -/
theorem eq_of_sublist {part text : List Char} (hsub : part.Sublist text)
    (hle : (text.flatMap String.utf8EncodeChar).length ≤
      (part.flatMap String.utf8EncodeChar).length) : part = text := by
  induction hsub with
  | slnil => rfl
  | cons c hsub ih =>
      have hpart := (hsub.flatMap String.utf8EncodeChar).length_le
      have hpos := List.length_pos_of_ne_nil (String.utf8EncodeChar_ne_nil (c := c))
      rw [List.flatMap_cons, List.length_append] at hle
      omega
  | cons_cons c hsub ih =>
      rw [List.flatMap_cons, List.flatMap_cons, List.length_append, List.length_append] at hle
      rw [ih (by omega)]

/-- A path without marks is one piece. -/
theorem pieces_of_unmarked {path : List Char} (hpath : ∀ c ∈ path, isMark c = false) :
    pieces path = [path] := by
  have hbreaks : withoutBreaks path = path :=
    List.filter_eq_self.mpr fun c hc => (isMark_eq_false_iff.mp (hpath c hc)).2.2
  rw [pieces, hbreaks,
    List.takeWhile_eq_self_iff.mpr fun c hc => (isMark_eq_false_iff.mp (hpath c hc)).2.1,
    splitSlashes_eq_splitOnP]
  exact List.splitOnP_eq_singleton fun c hc => (isMark_eq_false_iff.mp (hpath c hc)).1

/-- A slash ends a piece. -/
theorem pieces_append_slash {path : List Char} (hpath : ∀ c ∈ path, goesOn c = true)
    (rest : List Char) : pieces (path ++ '/' :: rest) = pieces path ++ pieces rest := by
  have hall : ∀ c ∈ withoutBreaks path, goesOn c = true := fun c hc =>
    hpath c (List.mem_of_mem_filter hc)
  have hbreaks : withoutBreaks (path ++ '/' :: rest) =
      withoutBreaks path ++ '/' :: withoutBreaks rest := by
    rw [withoutBreaks, List.filter_append]
    rfl
  rw [pieces, hbreaks, List.takeWhile_append_of_pos hall, List.takeWhile_cons_of_pos (by decide),
    splitSlashes_eq_splitOnP, List.splitOnP_append_cons _ _ (by decide), pieces, pieces,
    List.takeWhile_eq_self_iff.mpr hall, splitSlashes_eq_splitOnP, splitSlashes_eq_splitOnP]

/-- Nothing is read after a query or a fragment has begun. -/
theorem pieces_append_of_mem {path : List Char} {c : Char} (hc : c ∈ path)
    (hend : goesOn c = false) (rest : List Char) : pieces (path ++ rest) = pieces path := by
  have hkept : c ∈ withoutBreaks path := by
    refine List.mem_filter.mpr ⟨hc, ?_⟩
    have hmark : c = '?' ∨ c = '#' := by
      simpa [goesOn, imp_iff_not_or] using hend
    rcases hmark with rfl | rfl <;> rfl
  have hstop : (withoutBreaks path).takeWhile goesOn ≠ withoutBreaks path := fun hall => by
    rw [List.takeWhile_eq_self_iff.mp hall c hkept] at hend
    cases hend
  have hbreaks : withoutBreaks (path ++ rest) = withoutBreaks path ++ withoutBreaks rest :=
    List.filter_append _ _
  rw [pieces, pieces, hbreaks, List.takeWhile_append, if_neg]
  exact fun hlength => hstop ((List.takeWhile_prefix _).eq_of_length hlength)

theorem fst_splitQuery (known : Bool) (path : List Char) :
    (splitQuery known path).1 = path.takeWhile goesOn := by
  have hboth : (path.takeWhile (· ≠ '#')).takeWhile (· ≠ '?') = path.takeWhile goesOn := by
    rw [List.takeWhile_takeWhile]
    congr 1
    funext c
    simp [goesOn]
  rw [splitQuery]
  split <;> exact hboth

/-! ## Walking along segments -/

theorem uncodedPoints_of_uncoded {text : List Char} (htext : Text.holdsCode text = false) :
    uncodedPoints text = text := by
  fun_induction uncodedPoints text with
  | case1 rest ih => cases htext
  | case2 rest ih => cases htext
  | case3 c rest hlower hupper ih => rw [ih (Text.holdsCode_of_cons htext)]
  | case4 => rfl

/-- A segment that is no step leads to the place of its name. -/
theorem walk_cons {segment : List Char} (habove : isAbove segment = false)
    (hhere : isHere segment = false) (place : List String) (rest : List (List Char)) :
    walk place (segment :: rest) = walk (place ++ [encodeSegment segment]) rest := by
  simp [walk, habove, hhere]

/-- A step back leads to the place above. -/
theorem walk_above {segment : List Char} (habove : isAbove segment = true) (place : List String)
    {rest : List (List Char)} (hrest : rest ≠ []) :
    walk place (segment :: rest) = walk place.dropLast rest := by
  simp [walk, habove, hrest]

/-- A step on the spot leads nowhere. -/
theorem walk_here {segment : List Char} (habove : isAbove segment = false)
    (hhere : isHere segment = true) (place : List String) {rest : List (List Char)}
    (hrest : rest ≠ []) : walk place (segment :: rest) = walk place rest := by
  simp [walk, habove, hhere, hrest]

theorem mem_walk {place : List String} {segments : List (List Char)} {s : String}
    (hs : s ∈ walk place segments) :
    s ∈ place ∨ s = "" ∨ ∃ segment ∈ segments, s = encodeSegment segment := by
  induction segments generalizing place with
  | nil => exact Or.inl hs
  | cons segment rest ih =>
      rw [walk] at hs
      set next := if isAbove segment = true then place.dropLast
        else if isHere segment = true then place else place ++ [encodeSegment segment] with hnext
      have hplace : s ∈ next →
          s ∈ place ∨ s = "" ∨ ∃ other ∈ segment :: rest, s = encodeSegment other := by
        intro hmem
        rw [hnext] at hmem
        split_ifs at hmem
        · exact Or.inl (List.dropLast_subset _ hmem)
        · exact Or.inl hmem
        · refine (List.mem_append.mp hmem).imp_right fun hlast => Or.inr ?_
          exact ⟨segment, List.mem_cons_self, List.mem_singleton.mp hlast⟩
      split at hs
      next =>
        rcases List.mem_append.mp hs with hmem | hlast
        · exact hplace hmem
        · exact Or.inr (Or.inl (List.mem_singleton.mp hlast))
      next =>
        rcases ih hs with hmem | hempty | ⟨other, hother, heq⟩
        · exact hplace hmem
        · exact Or.inr (Or.inl hempty)
        · exact Or.inr (Or.inr ⟨other, List.mem_cons_of_mem _ hother, heq⟩)

/-- What a path leads to is made of segments. -/
theorem of_mem_walk_pieces {path : List Char} {s : String} (hs : s ∈ walk [] (pieces path))
    {c : Char} (hc : c ∈ s.toList) : c ≠ '/' ∧ goesOn c = true := by
  rcases mem_walk hs with hmem | rfl | ⟨piece, hpiece, rfl⟩
  · cases hmem
  · cases hc
  · obtain ⟨hquery, hfragment, hslash⟩ := mem_encodeSegment hc
    refine ⟨?_, by simp [goesOn, hquery, hfragment]⟩
    rintro rfl
    exact absurd ((of_mem_pieces hpiece).2 '/' (hslash rfl)) (by decide)

theorem walk_ne_nil (place : List String) {segments : List (List Char)} (hne : segments ≠ []) :
    walk place segments ≠ [] := by
  induction segments generalizing place with
  | nil => exact absurd rfl hne
  | cons segment rest ih =>
      rw [walk]
      split
      next => exact List.append_ne_nil_of_right_ne_nil _ (List.cons_ne_nil _ _)
      next hmore =>
        cases rest with
        | cons next later => exact ih _ (List.cons_ne_nil _ _)
        | nil =>
            simp only [List.isEmpty_nil, Bool.true_and, Bool.or_eq_true, not_or,
              Bool.not_eq_true] at hmore
            rw [walk, if_neg (by simp [hmore.1]), if_neg (by simp [hmore.2])]
            exact List.append_ne_nil_of_right_ne_nil _ (List.cons_ne_nil _ _)

/-! ## Reading and resolving -/

theorem trimControls_eq_self {text : List Char} (hfirst : ∀ c ∈ text.head?, 32 < c.toNat)
    (hlast : ∀ c ∈ text.getLast?, 32 < c.toNat) : trimControls text = text := by
  have hdrop : ∀ text : List Char, (∀ c ∈ text.head?, 32 < c.toNat) →
      text.dropWhile (fun c => decide (c.toNat ≤ 32)) = text := by
    intro text hhead
    cases text with
    | nil => rfl
    | cons c rest =>
        have hc := hhead c rfl
        rw [List.dropWhile_cons_of_neg (by simpa using hc)]
  rw [trimControls]
  change (List.dropWhile _ (List.dropWhile _ text).reverse).reverse = text
  rw [hdrop text hfirst, hdrop text.reverse (by rwa [List.head?_reverse]), List.reverse_reverse]

/-- Whether a character stands in schemes. -/
def isSchemeChar (c : Char) : Bool :=
  c.isAlphanum || c = '+' || c = '-' || c = '.'

/-- A text of the form scheme, colon, two slashes, host and port. -/
def IsOrigin (text : String) : Prop :=
  ∃ scheme authority : String, text = scheme ++ "://" ++ authority ∧
    (∀ c ∈ scheme.toList, isSchemeChar c = true) ∧
    ∀ c ∈ authority.toList, 32 < c.toNat ∧ isMark c = false

theorem isKnownScheme_of_web {scheme : String} (hscheme : scheme = "http" ∨ scheme = "https") :
    isKnownScheme scheme = true := by
  rcases hscheme with rfl | rfl <;> decide

theorem scheme_of_file? {text : List Char} {u : Url} (hu : file? text = some u) :
    u.scheme = "file" := by
  rw [file?] at hu
  simp only at hu
  split at hu
  next =>
    split at hu
    next =>
      split at hu <;>
        · obtain ⟨host, -, hurl⟩ := Option.bind_eq_some_iff.mp hu
          obtain rfl := Option.some.inj hurl
          rfl
    next =>
      obtain rfl := Option.some.inj hu
      rfl
  next =>
    obtain rfl := Option.some.inj hu
    rfl

/-- An authority with nothing after it leads to the root. -/
theorem afterSlashes?_of_unmarked (scheme : String) {authority : List Char}
    (hauthority : ∀ c ∈ authority, isMark c = false) :
    afterSlashes? scheme authority = (authority? scheme authority).map fun (host, port) =>
      { scheme, host := some host, port, query := none
        segments := some (if isKnownScheme scheme then [""] else []) } := by
  have hwhole : authority.takeWhile
      (fun c => !isSlash (isKnownScheme scheme) c && c ≠ '?' && c ≠ '#') = authority := by
    refine List.takeWhile_eq_self_iff.mpr fun c hc => ?_
    obtain ⟨hslash, hgoes, -⟩ := isMark_eq_false_iff.mp (hauthority c hc)
    have hslash' : isSlash (isKnownScheme scheme) c = false := by
      simp only [isSlash, Bool.true_and, Bool.or_eq_false_iff] at hslash ⊢
      simp [hslash]
    rw [goesOn] at hgoes
    rw [hslash', Bool.and_assoc, hgoes]
    rfl
  rw [afterSlashes?]
  simp only [hwhole, List.drop_length]
  cases authority? scheme authority <;> rfl

theorem lt_toNat_of_isSchemeChar {c : Char} (hc : isSchemeChar c = true) : 32 < c.toNat := by
  by_contra hlow
  have hnone : ∀ n < 33, isSchemeChar (Char.ofNat n) = false := by
    decide
  have hother := hnone c.toNat (by omega)
  rw [Char.ofNat_toNat, hc] at hother
  cases hother

/-- Nothing is dropped from a text without blanks and control characters. -/
theorem withoutBreaks_trimControls {text : List Char} (htext : ∀ c ∈ text, 32 < c.toNat) :
    withoutBreaks (trimControls text) = text := by
  rw [trimControls_eq_self (fun c hc => htext c (List.mem_of_mem_head? hc))
    fun c hc => htext c (List.mem_of_getLast? hc)]
  refine List.filter_eq_self.mpr fun c hc => ?_
  have hapart : ∀ d : Char, d.toNat ≤ 32 → c ≠ d := by
    rintro d hd rfl
    exact absurd hd (Nat.not_le.mpr (htext c hc))
  simp [hapart '\t' (by decide), hapart '\n' (by decide), hapart '\r' (by decide)]

/-- The scheme ends at the first colon. -/
theorem snd_of_splitScheme? {scheme rest : List Char}
    (hscheme : ∀ c ∈ scheme, isSchemeChar c = true) {parts : String × List Char}
    (hparts : splitScheme? (scheme ++ ':' :: rest) = some parts) : parts.2 = rest := by
  unfold isSchemeChar at hscheme
  rw [splitScheme?, List.takeWhile_append_of_pos hscheme, List.takeWhile_cons_of_neg (by decide),
    List.append_nil] at hparts
  simp only [List.drop_left] at hparts
  split at hparts
  next heq =>
    split at hparts
    next =>
      obtain rfl := Option.some.inj hparts
      exact (List.cons.inj heq).2.symm
    next => cases hparts
  next => cases hparts

/-- A URL that consists of a scheme, a host and a port and is no file is read from its
authority. -/
theorem exists_authority_of_isOrigin {text : String} (horigin : IsOrigin text) {base : Url}
    (hbase : parse? text = some base) (hfile : base.scheme ≠ "file") :
    ∃ name authority, (∀ c ∈ authority, isMark c = false) ∧
      afterSlashes? name authority = some base := by
  obtain ⟨scheme, authority, rfl, hscheme, hauthority⟩ := horigin
  have htext : (scheme ++ "://" ++ authority).toList =
      scheme.toList ++ ':' :: '/' :: '/' :: authority.toList := by
    simp
  have hprintable : ∀ c ∈ scheme.toList ++ ':' :: '/' :: '/' :: authority.toList, 32 < c.toNat := by
    simp only [List.forall_mem_append, List.forall_mem_cons]
    exact ⟨fun c hc => lt_toNat_of_isSchemeChar (hscheme c hc), by decide, by decide, by decide,
      fun c hc => (hauthority c hc).1⟩
  have hslashes : ('/' :: '/' :: authority.toList).dropWhile (isSlash true) =
      authority.toList := by
    change authority.toList.dropWhile (isSlash true) = _
    refine List.dropWhile_eq_self_iff.mpr fun hpos => Bool.eq_false_iff.mp ?_
    exact (isMark_eq_false_iff.mp (hauthority _ (List.getElem_mem hpos)).2).1
  rw [parse?, htext, withoutBreaks_trimControls hprintable] at hbase
  obtain ⟨⟨name, rest⟩, hname, hread⟩ := Option.bind_eq_some_iff.mp hbase
  obtain rfl : rest = '/' :: '/' :: authority.toList := snd_of_splitScheme? hscheme hname
  refine ⟨name, authority.toList, fun c hc => (hauthority c hc).2, ?_⟩
  simp only [hslashes] at hread
  split at hread
  next => exact absurd (scheme_of_file? hread) hfile
  next => split at hread <;> exact hread

/-- A URL of the web that consists of a scheme, a host and a port leads to the root. -/
theorem segments_of_isOrigin {text : String} {base : Url} (horigin : IsOrigin text)
    (hbase : parse? text = some base) (hscheme : base.scheme = "http" ∨ base.scheme = "https") :
    base.segments = some [""] := by
  have hfile : base.scheme ≠ "file" := by
    rcases hscheme with hscheme | hscheme <;> rw [hscheme] <;> decide
  obtain ⟨name, authority, hauthority, hread⟩ := exists_authority_of_isOrigin horigin hbase hfile
  rw [afterSlashes?_of_unmarked name hauthority] at hread
  obtain ⟨⟨host, port⟩, -, rfl⟩ := Option.map_eq_some_iff.mp hread
  exact congrArg some (if_pos (isKnownScheme_of_web hscheme))

/-- From the root, a path leads where its pieces lead. -/
theorem exists_resolve? {base : Url} (hsegments : base.segments = some [""])
    (hknown : isKnownScheme base.scheme = true) {path : String}
    (hfirst : ∀ c ∈ path.toList.head?, 32 < c.toNat)
    (hlast : ∀ c ∈ path.toList.getLast?, 32 < c.toNat) :
    ∃ query, base.resolve? path =
      some { base with segments := some (walk [] (pieces path.toList)), query } := by
  rw [resolve?, hsegments, trimControls_eq_self hfirst hlast]
  refine ⟨(splitQuery true (withoutBreaks path.toList)).2, ?_⟩
  simp only [Option.map_some, hknown, fst_splitQuery]
  rfl

end Url

end SocketRanking
