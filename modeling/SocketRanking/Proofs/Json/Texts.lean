import SocketRanking.Proofs.Json.Tokens

/-!
# Values and their texts

A value is read back from its text, whatever way of rounding numbers the reader has, as long
as it reads back the doubles of the value (`readWith_compact`).  The reader that rounds to the
nearest double reads back all of them (`readsBack_toFloat`).
-/

namespace SocketRanking

open Number

namespace Json

variable (round : Decimal → Float)

/-- The double is read back from its text. -/
def ReadsBack (x : Float) : Prop :=
  readWith round (literalText x) = .float x

/-- Nothing nests deeper than this, integers fit 64 bits, and doubles are finite and read back. -/
inductive IsLegible : ℕ → Json → Prop
  | null {n : ℕ} : IsLegible n .null
  | bool {n : ℕ} (b : Bool) : IsLegible n (.bool b)
  | int {n : ℕ} {z : ℤ} (hz : FitsWord z) : IsLegible n (.int z)
  | float {n : ℕ} {x : Float} (hfinite : x.isFinite = true) (hx : ReadsBack round x) :
      IsLegible n (.float x)
  | string {n : ℕ} (s : String) : IsLegible n (.string s)
  | array {n : ℕ} {items : List Json} (hitems : ∀ v ∈ items, IsLegible n v) :
      IsLegible (n + 1) (.array items)
  | object {n : ℕ} {members : List (String × Json)}
      (hmembers : ∀ member ∈ members, IsLegible n member.2) : IsLegible (n + 1) (.object members)

def chars (v : Json) : List Char :=
  v.compact.toList

/-- The value is read from its text, given fuel enough and whatever follows, inside arrays and
objects that leave room for it. -/
def IsReadBack (n : ℕ) (v : Json) : Prop :=
  ∀ {fuel depth : ℕ} {rest : List Char}, depth + n ≤ maxDepth →
    2 * v.chars.length ≤ fuel + 1 → StopsNumber rest →
      readValue round (fuel + 1) depth (v.chars ++ rest) = (v, some rest)

variable {round : Decimal → Float} {n fuel depth : ℕ} {rest : List Char}

/-! ## Words, numbers and strings -/

theorem isReadBack_null : IsReadBack round n .null :=
  fun _ _ _ => rfl

theorem isReadBack_bool (b : Bool) : IsReadBack round n (.bool b) := by
  intro fuel depth rest _ _ _
  cases b <;> rfl

theorem isReadBack_int {z : ℤ} (hz : FitsWord z) : IsReadBack round n (.int z) :=
  fun _ _ hrest => readValue_int hz hrest _ _

theorem isReadBack_string (s : String) : IsReadBack round n (.string s) := by
  intro fuel depth rest _ _ _
  have hquote : (Json.string s).chars = (quote s).toList := rfl
  rw [hquote, quote_toList, readValue, skipSpace_cons (by decide)]
  simp [readString_quoted]

/-! ## Doubles -/

/-- What a reader makes of the text of a double. -/
theorem readValue_literalText {x : Float} (hfinite : x.isFinite = true)
    (hrest : StopsNumber rest) (fuel depth : ℕ) :
    readValue round (fuel + 1) depth ((literalText x).toList ++ rest) =
      (ofNumber round (Binary.ofFloat x).negative (literalOf x).whole (literalOf x).fraction false
        ((literalOf x).exponent.getD 0), some rest) := by
  obtain ⟨hproper, hnumber⟩ := literalOf_isProper hfinite
  have hinteger : ((literalOf x).fraction.isEmpty && (literalOf x).exponent.isNone) = false := by
    rw [Bool.and_eq_false_imp, List.isEmpty_iff, Option.isNone_eq_false_iff,
      Option.isSome_iff_ne_none]
    exact fun hnone hexponent => hnumber ⟨hnone, hexponent⟩
  rw [literalText_toList hfinite, ← hinteger]
  exact readValue_signed hproper hrest fuel depth

theorem readsBack_iff {x : Float} (hfinite : x.isFinite = true) :
    ReadsBack round x ↔
      ofNumber round (Binary.ofFloat x).negative (literalOf x).whole (literalOf x).fraction false
        ((literalOf x).exponent.getD 0) = .float x := by
  have hread : readValue round (2 * (literalText x).toList.length + 2) 0
      ((literalText x).toList ++ []) = _ :=
    readValue_literalText hfinite stopsNumber_nil _ 0
  rw [List.append_nil] at hread
  rw [ReadsBack, readWith, hread]
  rfl

theorem isReadBack_float {x : Float} (hfinite : x.isFinite = true) (hx : ReadsBack round x) :
    IsReadBack round n (.float x) := by
  intro fuel depth rest _ _ hrest
  have htext : (Json.float x).chars = (literalText x).toList :=
    congrArg String.toList (if_pos hfinite)
  rw [htext, readValue_literalText hfinite hrest, (readsBack_iff hfinite).mp hx]

/-- Rounding to the nearest double reads back every finite double. -/
theorem readsBack_toFloat {x : Float} (hfinite : x.isFinite = true) :
    ReadsBack Decimal.toFloat x := by
  have hx : Decimal.toFloat (.ofParts (Binary.ofFloat x).negative (literalOf x).whole
      (literalOf x).fraction ((literalOf x).exponent.getD 0)) = x := toFloat_literalOf hfinite
  rw [readsBack_iff hfinite, ofNumber]
  simp [hx, hfinite]

/-! ## Texts with parts -/

/-- Texts with commas between them. -/
def joined (texts : List (List Char)) : List Char :=
  [','].intercalate texts

def memberText (member : String × Json) : List Char :=
  (quote member.1).toList ++ ':' :: member.2.chars

theorem joined_cons_cons (text next : List Char) (more : List (List Char)) :
    joined (text :: next :: more) = text ++ ',' :: joined (next :: more) :=
  List.intercalate_cons_cons.trans (List.append_assoc _ _ _)

theorem joined_singleton (text : List Char) : joined [text] = text :=
  List.intercalate_singleton

theorem compactItems_eq (float : Float → String) (items : List Json) :
    compactItems float items = items.map (·.compactWith float) := by
  induction items with
  | nil => rfl
  | cons v items ih => rw [compactItems, ih, List.map_cons]

theorem compactMembers_eq (float : Float → String) (members : List (String × Json)) :
    compactMembers float members =
      members.map fun member => quote member.1 ++ ":" ++ member.2.compactWith float := by
  induction members with
  | nil => rfl
  | cons member members ih => rw [compactMembers, ih, List.map_cons]

theorem chars_array (items : List Json) :
    (Json.array items).chars =
      '[' :: (joined (items.map chars) ++ [']']) := by
  rw [chars, compact, compactWith, compactItems_eq, String.toList_append, String.toList_append,
    String.toList_intercalate, List.map_map]
  rfl

theorem chars_object (members : List (String × Json)) :
    (Json.object members).chars =
      '\x7b' :: (joined (members.map memberText) ++ ['\x7d']) := by
  have htexts : (members.map (String.toList ∘ fun member =>
      quote member.1 ++ ":" ++ member.2.compactWith floatText)) = members.map memberText := by
    refine List.map_congr_left fun member _ => ?_
    rw [Function.comp_apply, String.toList_append, String.toList_append, List.append_assoc]
    rfl
  rw [chars, compact, compactWith, compactMembers_eq, String.toList_append, String.toList_append,
    String.toList_intercalate, List.map_map, htexts]
  rfl

theorem atDepth_of_le (hdepth : depth ≤ maxDepth) (v : Json) : atDepth depth v = v := by
  rw [atDepth, decide_eq_false (not_lt.mpr hdepth)]
  rfl

/-! ## Arrays -/

section

variable {v : Json} (hv : IsReadBack round n v) (hdepth : depth + n ≤ maxDepth)
  (hfuel : 2 * v.chars.length ≤ fuel + 1) (text : List Char)

include hv hdepth hfuel

theorem readItems_last :
    readItems round (fuel + 2) depth (v.chars ++ ']' :: text) = ([v], some text) := by
  rw [readItems, hv hdepth hfuel (stopsNumber_mark _ (by decide))]
  simp only [skipSpace_cons (c := ']') rfl]

theorem readItems_more :
    readItems round (fuel + 2) depth (v.chars ++ ',' :: text) =
      (v :: (readItems round (fuel + 1) depth text).1,
        (readItems round (fuel + 1) depth text).2) := by
  rw [readItems, hv hdepth hfuel (stopsNumber_mark _ (by decide))]
  simp only [skipSpace_cons (c := ',') rfl]

end

theorem readItems_joined {items : List Json} (hsome : items ≠ [])
    (hitems : ∀ v ∈ items, IsReadBack round n v) (hdepth : depth + n ≤ maxDepth)
    (hfuel : 2 * (joined (items.map chars)).length + 2 ≤ fuel) :
    readItems round fuel depth
      (joined (items.map chars) ++ ']' :: rest) = (items, some rest) := by
  induction items generalizing fuel with
  | nil => exact absurd rfl hsome
  | cons v items ih =>
      obtain ⟨hv, hitems'⟩ := List.forall_mem_cons.mp hitems
      obtain ⟨fuel, rfl⟩ : ∃ k, fuel = k + 2 := ⟨fuel - 2, by omega⟩
      cases items with
      | nil =>
          rw [List.map_cons, List.map_nil, joined_singleton] at hfuel ⊢
          exact readItems_last hv hdepth (by omega) rest
      | cons w items =>
          have htext : joined ((v :: w :: items).map chars) =
              v.chars ++ ',' :: joined ((w :: items).map chars) := joined_cons_cons _ _ _
          rw [htext, List.length_append, List.length_cons] at hfuel
          rw [htext, List.append_assoc, List.cons_append, readItems_more hv hdepth (by omega),
            ih (List.cons_ne_nil _ _) hitems' (by omega)]

theorem readValue_array {text : List Char} (hopen : ∀ more, skipSpace text ≠ ']' :: more) :
    readValue round (fuel + 1) depth ('[' :: text) =
      (atDepth (depth + 1) (.array (readItems round fuel (depth + 1) text).1),
        (readItems round fuel (depth + 1) text).2) := by
  have hdigit : '['.isDigit = false := rfl
  rw [readValue, skipSpace_cons (by decide)]
  simp only [Char.reduceEq, if_false, hdigit, Bool.false_eq_true, if_true]

/-- What begins with an item is not the end of an array. -/
theorem skipSpace_ne_of_readItems {text left : List Char} {items : List Json}
    (hread : readItems round fuel depth text = (items, some left)) (more : List Char) :
    skipSpace text ≠ ']' :: more := by
  intro hend
  have hstop : ∀ fuel, readValue round fuel depth text = stop := by
    intro fuel
    cases fuel with
    | zero => rfl
    | succ fuel =>
        rw [readValue, hend]
        rfl
  cases fuel with
  | zero => cases hread
  | succ fuel =>
      rw [readItems, hstop] at hread
      cases hread

theorem isReadBack_array {items : List Json} (hitems : ∀ v ∈ items, IsReadBack round n v) :
    IsReadBack round (n + 1) (.array items) := by
  intro fuel depth rest hdepth hfuel _
  have hroom : atDepth (depth + 1) (.array items) = .array items := atDepth_of_le (by omega) _
  rw [chars_array, List.length_cons, List.length_append, List.length_singleton] at hfuel
  rw [chars_array, List.cons_append, List.append_assoc, List.singleton_append]
  rcases eq_or_ne items [] with rfl | hsome
  · exact congrArg (·, some rest) hroom
  · have hread : readItems round fuel (depth + 1) (joined (items.map chars) ++ ']' :: rest) =
        (items, some rest) := readItems_joined hsome hitems (by omega) (by omega)
    rw [readValue_array (skipSpace_ne_of_readItems hread), hread, hroom]

/-! ## Objects -/

theorem memberText_append (member : String × Json) (text : List Char) :
    memberText member ++ text =
      '"' :: (member.1.toList.flatMap escapeChar ++
        '"' :: ':' :: (member.2.chars ++ text)) := by
  rw [memberText, List.append_assoc, List.cons_append, quote_toList]

section

variable {member : String × Json} (hmember : IsReadBack round n member.2)
  (hdepth : depth + n ≤ maxDepth) (hfuel : 2 * (memberText member).length ≤ fuel + 1)
  (text : List Char)

include hfuel in
theorem value_fuel : 2 * member.2.chars.length ≤ fuel + 1 := by
  rw [memberText, List.length_append, List.length_cons] at hfuel
  omega

include hmember hdepth hfuel

theorem readMembers_last :
    readMembers round (fuel + 2) depth (memberText member ++ '\x7d' :: text) =
      ([member], some text) := by
  have hread := hmember hdepth (value_fuel hfuel)
    (stopsNumber_mark (c := '\x7d') text (by decide))
  rw [memberText_append, readMembers, skipSpace_cons (by decide)]
  simp only [readString_quoted, skipSpace_cons (c := ':') rfl, hread,
    skipSpace_cons (c := '\x7d') rfl]
  rfl

theorem readMembers_more :
    readMembers round (fuel + 2) depth (memberText member ++ ',' :: text) =
      (member :: (readMembers round (fuel + 1) depth text).1,
        (readMembers round (fuel + 1) depth text).2) := by
  have hread := hmember hdepth (value_fuel hfuel)
    (stopsNumber_mark (c := ',') text (by decide))
  rw [memberText_append, readMembers, skipSpace_cons (by decide)]
  simp only [readString_quoted, skipSpace_cons (c := ':') rfl, hread,
    skipSpace_cons (c := ',') rfl]
  rfl

end

theorem readMembers_joined {members : List (String × Json)} (hsome : members ≠ [])
    (hmembers : ∀ member ∈ members, IsReadBack round n member.2) (hdepth : depth + n ≤ maxDepth)
    (hfuel : 2 * (joined (members.map memberText)).length + 2 ≤ fuel) :
    readMembers round fuel depth
      (joined (members.map memberText) ++ '\x7d' :: rest) = (members, some rest) := by
  induction members generalizing fuel with
  | nil => exact absurd rfl hsome
  | cons member members ih =>
      obtain ⟨hmember, hmembers'⟩ := List.forall_mem_cons.mp hmembers
      obtain ⟨fuel, rfl⟩ : ∃ k, fuel = k + 2 := ⟨fuel - 2, by omega⟩
      cases members with
      | nil =>
          rw [List.map_cons, List.map_nil, joined_singleton] at hfuel ⊢
          exact readMembers_last hmember hdepth (by omega) rest
      | cons next members =>
          have htext : joined ((member :: next :: members).map memberText) =
              memberText member ++ ',' :: joined ((next :: members).map memberText) :=
            joined_cons_cons _ _ _
          rw [htext, List.length_append, List.length_cons] at hfuel
          rw [htext, List.append_assoc, List.cons_append,
            readMembers_more hmember hdepth (by omega),
            ih (List.cons_ne_nil _ _) hmembers' (by omega)]

theorem readValue_object (text : List Char) :
    readValue round (fuel + 1) depth ('\x7b' :: '"' :: text) =
      (atDepth (depth + 1) (.object (readMembers round fuel (depth + 1) ('"' :: text)).1),
        (readMembers round fuel (depth + 1) ('"' :: text)).2) := by
  rw [readValue]
  rfl

theorem exists_joined_members (member : String × Json) (members : List (String × Json))
    (text : List Char) :
    ∃ more, joined ((member :: members).map memberText) ++ text = '"' :: more := by
  cases members with
  | nil =>
      rw [List.map_cons, List.map_nil, joined_singleton, memberText_append]
      exact ⟨_, rfl⟩
  | cons next members =>
      rw [List.map_cons, List.map_cons, joined_cons_cons, List.append_assoc, memberText_append]
      exact ⟨_, rfl⟩

theorem isReadBack_object {members : List (String × Json)}
    (hmembers : ∀ member ∈ members, IsReadBack round n member.2) :
    IsReadBack round (n + 1) (.object members) := by
  intro fuel depth rest hdepth hfuel _
  have hroom : atDepth (depth + 1) (.object members) = .object members :=
    atDepth_of_le (by omega) _
  rw [chars_object, List.length_cons, List.length_append, List.length_singleton] at hfuel
  rw [chars_object, List.cons_append, List.append_assoc, List.singleton_append]
  cases members with
  | nil => exact congrArg (·, some rest) hroom
  | cons member members =>
      have hread : readMembers round fuel (depth + 1)
          (joined ((member :: members).map memberText) ++ '\x7d' :: rest) =
            (member :: members, some rest) :=
        readMembers_joined (List.cons_ne_nil _ _) hmembers (by omega) (by omega)
      obtain ⟨text, htext⟩ := exists_joined_members member members ('\x7d' :: rest)
      rw [htext] at hread ⊢
      rw [readValue_object, hread, hroom]

/-! ## Whole texts -/

theorem IsLegible.isReadBack {v : Json} (hv : IsLegible round n v) : IsReadBack round n v := by
  induction hv with
  | null => exact isReadBack_null
  | bool b => exact isReadBack_bool b
  | int hz => exact isReadBack_int hz
  | float hfinite hx => exact isReadBack_float hfinite hx
  | string s => exact isReadBack_string s
  | array _ ih => exact isReadBack_array ih
  | object _ ih => exact isReadBack_object ih

/-- A value is read from its text, and so it is if more follows. -/
theorem readWith_compact {v : Json} (hv : IsLegible round n v) (hn : n ≤ maxDepth) :
    readWith round v.compact = v ∧ readFirstWith round v.compact = v := by
  have hread : readValue round (2 * v.chars.length + 2) 0 (v.chars ++ []) = (v, some []) :=
    hv.isReadBack (by omega) (by omega) stopsNumber_nil
  rw [List.append_nil, chars] at hread
  rw [readWith, readFirstWith, hread]
  exact ⟨rfl, rfl⟩

end Json

end SocketRanking
