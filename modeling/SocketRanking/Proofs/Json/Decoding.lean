import Mathlib.Data.String.Basic
import SocketRanking.Json.Decode

/-!
# Decoders read what encoders write

One law for each way to write a value: its decoder reads the value back.  The laws for
lists, optional parts and objects pass the question on to the parts, and a record is put
together from its members when every one of them has a field that accepts it.  All of this
is about JSON values; how a value stands in a text is not its subject.
-/

namespace SocketRanking

/-- Every number of a value is finite, so that it has a value in JSON. -/
def AllFinite (numbers : List Float) : Prop :=
  ∀ x ∈ numbers, x.isFinite = true

@[simp] theorem allFinite_nil : AllFinite [] :=
  List.forall_mem_nil _

@[simp] theorem allFinite_cons {x : Float} {rest : List Float} :
    AllFinite (x :: rest) ↔ x.isFinite = true ∧ AllFinite rest :=
  List.forall_mem_cons

@[simp] theorem allFinite_append {numbers more : List Float} :
    AllFinite (numbers ++ more) ↔ AllFinite numbers ∧ AllFinite more :=
  List.forall_mem_append

theorem allFinite_flatMap {β : Type} {items : List β} {numbers : β → List Float} :
    AllFinite (items.flatMap numbers) ↔ ∀ item ∈ items, AllFinite (numbers item) := by
  simp only [AllFinite, List.mem_flatMap]
  constructor
  · intro hfinite item hitem x hx
    exact hfinite x ⟨item, hitem, hx⟩
  · rintro hfinite x ⟨item, hitem, hx⟩
    exact hfinite item hitem x hx

/-- The keys of an object ascend, so that none stands twice. -/
def KeysAscend {β : Type} (entries : List (String × β)) : Prop :=
  entries.Pairwise fun a b => a.1 < b.1

namespace Json

/-- A value that stands for itself: no place in it is without a value, and the keys of its
objects ascend. -/
structure IsProper (v : Json) : Prop where
  fault : v.fault? = none
  canonical : v.canonical = v

@[simp] theorem fault?_uint32 (n : UInt32) : (uint32 n).fault? = none :=
  rfl

@[simp] theorem fault?_number (x : Float) : (number x).fault? = none := by
  unfold number
  split <;> rfl

theorem insert_of_forall_lt {β : Type} {key : String} (value : β) {entries : List (String × β)}
    (hlast : ∀ entry ∈ entries, entry.1 < key) :
    insert key value entries = entries ++ [(key, value)] := by
  induction entries with
  | nil => rfl
  | cons first rest ih =>
      obtain ⟨k, v⟩ := first
      obtain ⟨hfirst, hrest⟩ := List.forall_mem_cons.mp hlast
      have hbefore : compare k key = .lt := compareOfLessAndEq_eq_lt.mpr hfirst
      have hcompare : compare key k = .gt := Std.OrientedCmp.gt_of_lt hbefore
      rw [insert, hcompare, List.cons_append]
      exact congrArg _ (ih hrest)

end Json

namespace Field

variable {α : Type}

@[simp] theorem key_probe (f : Field α) : f.probe.key = f.key :=
  rfl

/-- A field finds no fault in what it decodes. -/
@[simp] theorem fault?_probe_eq_none {f : Field α} {v : Json} :
    f.probe.fault? v = none ↔ ∃ a, f.decode v = .ok a := by
  simp only [probe]
  cases f.decode v with
  | ok a => exact iff_of_true rfl ⟨a, rfl⟩
  | error e => exact iff_of_false nofun nofun

end Field

namespace Slots

variable {α : Type}

@[simp] theorem lookup_cons_of_ne {key k : String} {v : Json} {parts : List (String × Json)}
    (hapart : key ≠ k) : ((k, v) :: parts).lookup key = parts.lookup key := by
  rw [List.lookup_cons, beq_false_of_ne hapart]

theorem lookup_of_mem {parts : List (String × Json)} (hkeys : (parts.map Prod.fst).Nodup)
    {k : String} {v : Json} (hpart : (k, v) ∈ parts) : parts.lookup k = some v := by
  induction parts with
  | nil => cases hpart
  | cons first rest ih =>
      obtain ⟨hapart, hrest⟩ := List.nodup_cons.mp hkeys
      rcases List.mem_cons.mp hpart with rfl | hlater
      · exact List.lookup_cons_self
      · have hkey : k ≠ first.1 := fun hsame => hapart (hsame ▸ List.mem_map_of_mem hlater)
        exact (lookup_cons_of_ne hkey).trans (ih hrest hlater)

@[simp] theorem required_mk (positional : Bool) (parts : List (String × Json)) (f : Field α) :
    required ⟨positional, parts⟩ f =
      match parts.lookup f.key with
      | some v => f.decode v
      | none => .error .mismatch :=
  rfl

@[simp] theorem defaulted_mk (positional : Bool) (parts : List (String × Json)) (f : Field α)
    (default : α) :
    defaulted ⟨positional, parts⟩ f default =
      match parts.lookup f.key with
      | some v => f.decode v
      | none => .ok default :=
  rfl

@[simp] theorem optional_mk (positional : Bool) (parts : List (String × Json))
    (f : Field (Option α)) :
    optional ⟨positional, parts⟩ f =
      match parts.lookup f.key with
      | some v => f.decode v
      | none => if positional then .error .mismatch else .ok none :=
  rfl

end Slots

namespace Decoder

variable {α β : Type}

@[simp] theorem ok_bind (a : α) (f : α → Except DecodeFault β) : (Except.ok a >>= f) = f a :=
  rfl

@[simp] theorem map_ok (f : α → β) (a : α) :
    f <$> (Except.ok a : Except DecodeFault α) = .ok (f a) :=
  rfl

/-! ## Single values -/

@[simp] theorem read_string (s : String) : Decoder.string (.string s) = .ok s :=
  rfl

@[simp] theorem read_bool (b : Bool) : Decoder.bool (.bool b) = .ok b :=
  rfl

@[simp] theorem read_nat (n : ℕ) : Decoder.nat (.nat n) = .ok n := by
  simp [Decoder.nat, Json.nat]

@[simp] theorem read_uint32 (n : UInt32) : Decoder.uint32 (.uint32 n) = .ok n := by
  have hfits : Number.fitsUnsigned 32 (n.toNat : ℤ) = true := by
    have hlt : (n.toNat : ℤ) < Number.twoPow 32 := Int.ofNat_lt.mpr n.toNat_lt
    rw [Number.fitsUnsigned, Bool.and_eq_true, decide_eq_true_eq, decide_eq_true_eq]
    exact ⟨Int.natCast_nonneg _, hlt⟩
  simp [Decoder.uint32, Json.uint32, Json.nat, hfits]

@[simp] theorem read_int64 (n : Int64) : Decoder.int64 (.int n.toInt) = .ok n := by
  have hfits : Number.fitsSigned 64 n.toInt = true := by
    rw [Number.fitsSigned, Bool.and_eq_true, decide_eq_true_eq, decide_eq_true_eq]
    exact ⟨n.le_toInt, n.toInt_lt⟩
  simp [Decoder.int64, hfits]

@[simp] theorem read_number {x : Float} (hfinite : x.isFinite = true) :
    Decoder.float (.number x) = .ok x := by
  rw [Json.number, if_pos hfinite]
  rfl

theorem read_raw {v : Json} (hproper : v.IsProper) : Decoder.raw v = .ok v := by
  rw [raw, hproper.fault, hproper.canonical]
  rfl

theorem read_oneOf {names : List (String × α)} {key : String} {a : α}
    (hname : names.lookup key = some a) : Decoder.oneOf names (.string key) = .ok a := by
  simp only [oneOf, hname]

/-! ## Parts -/

/-- Items are read one by one, each as what the reader takes it for. -/
theorem read_list {encode : α → Json} {decode : Decoder β} {view : α → β} {as : List α}
    (hitems : ∀ a ∈ as, decode (encode a) = .ok (view a)) :
    Decoder.list decode (.list encode as) = .ok (as.map view) := by
  rw [Json.list, Decoder.list]
  induction as with
  | nil => rfl
  | cons a rest ih =>
      obtain ⟨hfirst, hrest⟩ := List.forall_mem_cons.mp hitems
      rw [List.map_cons, items, hfirst, ih hrest]
      rfl

theorem read_list_self {encode : α → Json} {decode : Decoder α} {as : List α}
    (hitems : ∀ a ∈ as, decode (encode a) = .ok a) :
    Decoder.list decode (.list encode as) = .ok as := by
  have hread : Decoder.list decode (.list encode as) = .ok (as.map id) := read_list hitems
  rwa [List.map_id] at hread

theorem read_orNull_of_ne {decode : Decoder α} {v : Json} {a : α} (hread : decode v = .ok a)
    (hnull : v ≠ .null) : Decoder.orNull decode v = .ok (some a) := by
  unfold orNull
  split
  · exact absurd rfl hnull
  · rw [hread]
    rfl

/-- An optional part is read back, as long as no part is written as null. -/
theorem read_orNull {encode : α → Json} {decode : Decoder α} {a? : Option α}
    (hpart : ∀ a ∈ a?, decode (encode a) = .ok a ∧ encode a ≠ .null) :
    Decoder.orNull decode (.option encode a?) = .ok a? := by
  cases a? with
  | none => rfl
  | some a =>
      obtain ⟨hread, hnull⟩ := hpart a rfl
      exact read_orNull_of_ne hread hnull

@[simp] theorem read_orNull_string (s : String) :
    Decoder.orNull .string (.string s) = .ok (some s) :=
  rfl

@[simp] theorem read_orNull_uint32 (n : UInt32) :
    Decoder.orNull .uint32 (.uint32 n) = .ok (some n) :=
  read_orNull_of_ne (read_uint32 n) nofun

@[simp] theorem read_option_uint32 (n? : Option UInt32) :
    Decoder.orNull .uint32 (.option .uint32 n?) = .ok n? :=
  read_orNull fun n _ => ⟨read_uint32 n, nofun⟩

theorem read_orNull_number {x : Float} (hfinite : x.isFinite = true) :
    Decoder.orNull .float (.number x) = .ok (some x) := by
  refine read_orNull_of_ne (read_number hfinite) ?_
  rw [Json.number, if_pos hfinite]
  exact nofun

theorem read_option_number {x? : Option Float} (hfinite : AllFinite x?.toList) :
    Decoder.orNull .float (.option .number x?) = .ok x? := by
  cases x? with
  | none => rfl
  | some x => exact read_orNull_number (hfinite x List.mem_cons_self)

theorem entries_append {decode : Decoder β} {encode : α → Json} {view : α → β}
    {entries : List (String × α)} {before : List (String × β)}
    (hentries : ∀ entry ∈ entries, decode (encode entry.2) = .ok (view entry.2))
    (hkeys : KeysAscend (before ++ entries.map fun (k, a) => (k, view a))) :
    Decoder.entries decode (entries.map fun (k, a) => (k, encode a)) before =
      .ok (before ++ entries.map fun (k, a) => (k, view a)) := by
  induction entries generalizing before with
  | nil => exact congrArg _ (List.append_nil before).symm
  | cons first rest ih =>
      obtain ⟨k, a⟩ := first
      obtain ⟨hfirst, hrest⟩ := List.forall_mem_cons.mp hentries
      have hlast : ∀ entry ∈ before, entry.1 < k := by
        intro entry hentry
        exact (List.pairwise_append.mp hkeys).2.2 entry hentry (k, view a) List.mem_cons_self
      rw [List.map_cons, List.append_cons] at hkeys
      rw [List.map_cons, List.map_cons, Decoder.entries, hfirst, List.append_cons]
      change Decoder.entries decode _ (Json.insert k (view a) before) = _
      rw [Json.insert_of_forall_lt _ hlast]
      exact ih hrest hkeys

/-- An object with ascending keys is read entry by entry. -/
theorem read_map {encode : α → Json} {decode : Decoder β} {view : α → β}
    {entries : List (String × α)}
    (hentries : ∀ entry ∈ entries, decode (encode entry.2) = .ok (view entry.2))
    (hkeys : KeysAscend entries) :
    Decoder.map decode (.object (entries.map fun (k, a) => (k, encode a))) =
      .ok (entries.map fun (k, a) => (k, view a)) := by
  have hviews : KeysAscend ([] ++ entries.map fun (k, a) => (k, view a)) :=
    List.pairwise_map.mpr hkeys
  exact entries_append hentries hviews

theorem read_map_self {encode : α → Json} {decode : Decoder α} {entries : List (String × α)}
    (hentries : ∀ entry ∈ entries, decode (encode entry.2) = .ok entry.2)
    (hkeys : KeysAscend entries) :
    Decoder.map decode (.object (entries.map fun (k, a) => (k, encode a))) = .ok entries := by
  have hread : Decoder.map decode (.object (entries.map fun (k, a) => (k, encode a))) =
      .ok (entries.map fun (k, a) => (k, id a)) := read_map hentries hkeys
  simpa using hread

/-! ## Records -/

/-- The first field under the key of a member accepts its value. -/
def Accepts : List Probe → String × Json → Prop
  | [], _ => False
  | f :: fields, member =>
    f.key = member.1 ∧ f.fault? member.2 = none ∨ f.key ≠ member.1 ∧ Accepts fields member

@[simp] theorem accepts_cons {f : Probe} {fields : List Probe} {member : String × Json} :
    Accepts (f :: fields) member ↔
      f.key = member.1 ∧ f.fault? member.2 = none ∨ f.key ≠ member.1 ∧ Accepts fields member :=
  Iff.rfl

theorem exists_of_accepts {fields : List Probe} {member : String × Json}
    (haccepts : Accepts fields member) :
    ∃ f, fields.find? (·.key = member.1) = some f ∧ f.fault? member.2 = none := by
  induction fields with
  | nil => cases haccepts
  | cons f fields ih =>
      rcases haccepts with ⟨hkey, hfault⟩ | ⟨hkey, hrest⟩
      · exact ⟨f, List.find?_cons_of_pos (decide_eq_true hkey), hfault⟩
      · rw [List.find?_cons_of_neg (by simpa using hkey)]
        exact ih hrest

theorem memberFault?_eq_none {fields : List Probe} {seen : List String}
    {members : List (String × Json)} (hkeys : (members.map Prod.fst).Nodup)
    (hseen : ∀ member ∈ members, member.1 ∉ seen)
    (haccepts : ∀ member ∈ members, Accepts fields member) :
    memberFault? fields seen members = none := by
  induction members generalizing seen with
  | nil => rfl
  | cons member rest ih =>
      obtain ⟨hapart, hrest⟩ := List.nodup_cons.mp hkeys
      obtain ⟨hunseen, hseen⟩ := List.forall_mem_cons.mp hseen
      obtain ⟨haccepts, hlater⟩ := List.forall_mem_cons.mp haccepts
      obtain ⟨f, hfield, hfault⟩ := exists_of_accepts haccepts
      have hnone : memberFault? fields (member.1 :: seen) rest = none := by
        refine ih hrest (fun other hother hmem => ?_) hlater
        rcases List.mem_cons.mp hmem with hsame | hbefore
        · exact hapart (hsame ▸ List.mem_map_of_mem hother)
        · exact hseen other hother hbefore
      rw [memberFault?, hfield]
      simp only [List.contains_eq_mem, hunseen, decide_false, hfault, hnone]
      rfl

/-- A record whose members are all accepted is put together from them. -/
theorem read_record {fields : List Probe} {build : Slots → Except DecodeFault α}
    {members : List (String × Json)} (hkeys : (members.map Prod.fst).Nodup)
    (haccepts : ∀ member ∈ members, Accepts fields member) :
    record fields build (.object members) = build ⟨false, members⟩ := by
  rw [record, memberFault?_eq_none hkeys (fun _ _ => List.not_mem_nil) haccepts]

theorem read_openRecord {fields : List Probe} {build : Slots → Except DecodeFault α}
    {members : List (String × Json)} (hkeys : (members.map Prod.fst).Nodup)
    (haccepts : ∀ member ∈ members, Accepts fields member)
    (hfault : (Json.object members).fault? = none) :
    openRecord fields build (.object members) = build ⟨false, members⟩ := by
  rw [openRecord, hfault]
  exact read_record hkeys haccepts

end Decoder

end SocketRanking
