import SocketRanking.Config.Files
import SocketRanking.Proofs.Config.WrittenKeys
import SocketRanking.Proofs.Service.PlacementFrame

/-!
# The names of profiles

A profile file declares profiles under names, and a workload is placed with the name of its
profile.  Names are keys of a table, so they come into the catalog in lower case, while the
catalog looks names up as they are.  A file is therefore looked up by the names that it declares
exactly if all of them are in lower case, `findsDeclared_iff`.
-/

namespace SocketRanking

open Config (Reader Table Layer IsFolded)

namespace Config.Reader

variable {β : Type} {reader : Reader β}

theorem forall₂_of_map {entries : Table} {items : List (String × β)}
    (hread : map reader (.table entries) = some items) :
    List.Forall₂ (fun entry item => entry.1 = item.1 ∧ reader entry.2 = some item.2)
      entries items := by
  change entries.mapM (fun entry => (reader entry.2).map (entry.1, ·)) = some items at hread
  induction entries generalizing items with
  | nil =>
      obtain rfl := Option.some.inj hread
      exact .nil
  | cons first rest ih =>
      obtain ⟨k, v⟩ := first
      rw [List.mapM_cons] at hread
      obtain ⟨item, hfirst, hrest⟩ := Option.bind_eq_some_iff.mp hread
      obtain ⟨later, hlater, hitems⟩ := Option.bind_eq_some_iff.mp hrest
      obtain ⟨b, hb, rfl⟩ := Option.map_eq_some_iff.mp hfirst
      obtain rfl := Option.some.inj hitems
      exact .cons ⟨rfl, hb⟩ (ih hlater)

/-- Every entry of a table that is read has a value, and nothing else has one. -/
theorem lookup_of_map {entries : Table} {items : List (String × β)}
    (hread : map reader (.table entries) = some items) (k : String) :
    Option.Rel (fun v b => reader v = some b) (entries.lookup k) (items.lookup k) := by
  have hforall := forall₂_of_map hread
  clear hread
  induction hforall with
  | nil => exact .none
  | @cons entry item _ _ hfirst _ ih =>
      obtain ⟨hkey, hb⟩ := hfirst
      rw [Json.lookup_cons_eq_ite, Json.lookup_cons_eq_ite, hkey]
      split
      · exact .some hb
      · exact ih

theorem keysAscend_of_map {entries : Table} {items : List (String × β)}
    (hread : map reader (.table entries) = some items) (hentries : KeysAscend entries) :
    KeysAscend items := by
  have hforall : List.Forall₂ Eq (entries.map Prod.fst) (items.map Prod.fst) := by
    rw [List.forall₂_map_left_iff, List.forall₂_map_right_iff]
    exact (forall₂_of_map hread).imp fun _ _ hkey => hkey.1
  have hkeys : entries.map Prod.fst = items.map Prod.fst := List.forall₂_eq_eq_eq ▸ hforall
  have hascend : (entries.map Prod.fst).Pairwise (· < ·) := List.pairwise_map.mpr hentries
  exact List.pairwise_map.mp (hkeys ▸ hascend)

end Config.Reader

namespace Catalog

variable {α : Type}

theorem require_of_some {catalog : Catalog α} {name : String} {p : AppProfile α}
    (hname : catalog[name]? = some p) : catalog.require name = .ok p := by
  rw [require, hname]

theorem require_of_none {catalog : Catalog α} {name : String} (hname : catalog[name]? = none) :
    catalog.require name = .error (.unknownProfile name) := by
  rw [require, hname]

/-- Later profiles take the place of those of the same name. -/
theorem getElem?_extend (catalog : Catalog α) {profiles : List (String × AppProfile α)}
    (hprofiles : KeysAscend profiles) (name : String) :
    (catalog.extend profiles)[name]? = (profiles.lookup name).or catalog[name]? := by
  induction profiles generalizing catalog with
  | nil => rfl
  | cons first rest ih =>
      obtain ⟨k, p⟩ := first
      obtain ⟨hfirst, hrest⟩ := List.pairwise_cons.mp hprofiles
      change (extend (catalog.insert k p) rest)[name]? = _
      rw [ih _ hrest, Json.lookup_cons_eq_ite, Std.TreeMap.getElem?_insert]
      by_cases hname : name = k
      · subst hname
        have hlater : rest.lookup name = none :=
          List.lookup_eq_none_iff.mpr fun entry hentry => bne_iff_ne.mpr (hfirst entry hentry).ne
        rw [hlater, if_pos rfl]
        simp
      · rw [if_neg hname]
        simp [Ne.symm hname]

theorem mem_names_of_getElem?_extend {catalog : Catalog α}
    {profiles : List (String × AppProfile α)} {name : String} {p : AppProfile α}
    (hname : (catalog.extend profiles)[name]? = some p) :
    name ∈ profiles.map Prod.fst ∨ catalog[name]? = some p := by
  induction profiles generalizing catalog with
  | nil => exact Or.inr hname
  | cons first rest ih =>
      obtain ⟨k, q⟩ := first
      have hextend : (extend (catalog.insert k q) rest)[name]? = some p := hname
      rcases ih hextend with hlater | hinserted
      · exact Or.inl (List.mem_cons_of_mem _ hlater)
      · rw [Std.TreeMap.getElem?_insert] at hinserted
        split at hinserted
        next hk =>
          obtain rfl := Std.LawfulEqCmp.eq_of_compare hk
          exact Or.inl List.mem_cons_self
        next => exact Or.inr hinserted

theorem mem_names_of_getElem?_builtin {name : String} {p : AppProfile Float}
    (hname : builtin[name]? = some p) : name ∈ benchmarks.map Prod.fst := by
  refine (mem_names_of_getElem?_extend hname).resolve_right fun hempty => ?_
  rw [Std.TreeMap.getElem?_emptyc] at hempty
  cases hempty

theorem lowercase_of_mem_benchmarks {name : String} (hname : name ∈ benchmarks.map Prod.fst) :
    Text.lowercase name = name := by
  revert name
  decide +kernel

/-- What a profile file declares: the entries of its table of profiles, under the names that
are written there. -/
def declared (text : String) : Table :=
  ((Layer.ofText? text).getD []).written "profiles"

/-- A catalog has the declared profiles under the names under which they were declared, and the
built-in ones under all others. -/
structure FindsDeclared (declared : Table) (catalog : Catalog Float) : Prop where
  found : ∀ name body, declared.lookup name = some body → ∃ p, AppProfile.reader body = some p ∧
    catalog[name]? = some p ∧ catalog.require name = .ok p
  others : ∀ name, declared.lookup name = none → catalog[name]? = builtin[name]?
  unknown : ∀ name, declared.lookup name = none → name ∉ benchmarks.map Prod.fst →
    catalog.require name = .error (.unknownProfile name)
  placed : ∀ {σ : Type} (d : Deployment σ Float) (p : Placement) (s : State σ Float),
    d.catalog = catalog → (declared.lookup p.profile).isSome = true →
    ∀ name, (d.recordPlacement p s).1 ≠ .error (.unknownProfile name)

/-- A placement is refused for an unknown profile only if its own profile is unknown. -/
theorem getElem?_eq_none_of_recordPlacement {σ : Type} {d : Deployment σ Float} {p : Placement}
    {s : State σ Float} {name : String}
    (hrefused : (d.recordPlacement p s).1 = .error (.unknownProfile name)) :
    d.catalog[p.profile]? = none := by
  rw [Deployment.fst_recordPlacement] at hrefused
  cases hresolve : d.resolve p with
  | ok names =>
      rw [hresolve] at hrefused
      cases hrefused
  | error e =>
      rw [hresolve] at hrefused
      obtain rfl := Except.error.inj hrefused
      cases Deployment.resolve_eq_error_iff.mp hresolve with
      | unknownProfile _ _ _ hnone => exact hnone

theorem map_of_reader_eq_some {t : Table} {profiles : List (String × AppProfile Float)}
    (hread : Catalog.reader (.table t) = some profiles) :
    Reader.map AppProfile.reader (.table ((Config.Value.table t).entriesAt "profiles")) =
      some profiles := by
  change Config.Parts.defaulted t "profiles" _ [] = some profiles at hread
  rw [Config.Parts.defaulted] at hread
  rw [Config.Value.entriesAt, Config.Value.entries]
  cases hprofiles : t.lookup "profiles" with
  | none =>
      rw [hprofiles] at hread
      exact hread
  | some v =>
      rw [hprofiles] at hread
      cases v with
      | table entries => exact hread
      | _ => cases hread

section

variable {text : String} {catalog : Catalog Float} (hload : load (some text) = .ok catalog)

include hload

/-- A catalog that was loaded has the profiles of a file under the lower cases of their names. -/
theorem exists_folded_of_load :
    ∃ folded, IsFolded (declared text) folded ∧
      (∀ name, folded.lookup name = none → catalog[name]? = builtin[name]?) ∧
      ∀ name body, folded.lookup name = some body →
        ∃ p, AppProfile.reader body = some p ∧ catalog[name]? = some p := by
  unfold load at hload
  obtain ⟨profiles, hfile, hcatalog⟩ := exists_of_bind_eq_ok hload
  obtain rfl := Except.ok.inj hcatalog
  unfold Config.Reader.file at hfile
  split at hfile
  next profiles' hread =>
    obtain rfl := Except.ok.inj hfile
    obtain ⟨layer, hlayer, hbuilt⟩ := Option.bind_eq_some_iff.mp hread
    obtain ⟨t, htable, hfolded⟩ := Layer.isFolded_build "profiles" layer
    have htext : Layer.ofText? text = some layer := hlayer
    rw [htable] at hbuilt
    have hmap := map_of_reader_eq_some hbuilt
    have hascend := Reader.keysAscend_of_map hmap hfolded.keysAscend
    refine ⟨(Config.Value.table t).entriesAt "profiles", ?_, ?_, ?_⟩
    · rwa [declared, htext]
    · intro name hname
      have hrel := Reader.lookup_of_map hmap name
      rw [hname] at hrel
      rw [getElem?_extend builtin hascend]
      cases hitem : profiles'.lookup name with
      | none => rw [Option.none_or]
      | some p => exact absurd (hitem ▸ hrel) nofun
    · intro name body hbody
      have hrel := Reader.lookup_of_map hmap name
      rw [hbody] at hrel
      rw [getElem?_extend builtin hascend]
      cases hitem : profiles'.lookup name with
      | none => exact absurd (hitem ▸ hrel) nofun
      | some p =>
          rw [hitem] at hrel
          cases hrel with
          | some hp => exact ⟨p, hp, Option.some_or⟩
  next => cases hfile

/-- A name that is the lower case of no declared name stands for what is built in. -/
theorem getElem?_of_undeclared {name : String}
    (hname : ∀ other ∈ (declared text).map Prod.fst, Text.lowercase other ≠ name) :
    catalog[name]? = builtin[name]? := by
  obtain ⟨folded, hfolded, hothers, -⟩ := exists_folded_of_load hload
  refine hothers name (Option.not_isSome_iff_eq_none.mp fun hsome => ?_)
  obtain ⟨other, hother, hlower⟩ := (hfolded.isSome_iff name).mp hsome
  exact hname other (Json.isSome_lookup_iff.mp hother) hlower

/-- A profile is found under the lower case of its name if no other declared name shares it. -/
theorem getElem?_lowercase_of_declared {name : String} {body : Config.Value}
    (hbody : (declared text).lookup name = some body)
    (hapart : ∀ other ∈ (declared text).map Prod.fst,
      Text.lowercase other = Text.lowercase name → other = name) :
    ∃ p, AppProfile.reader body = some p ∧ catalog[Text.lowercase name]? = some p := by
  obtain ⟨folded, hfolded, -, hfound⟩ := exists_folded_of_load hload
  refine hfound _ body ?_
  rw [← hbody]
  exact hfolded.lookup_eq name fun other hother => hapart other (Json.isSome_lookup_iff.mp hother)

/-- Nothing is found under a name that is not in lower case. -/
theorem lowercase_of_getElem? {name : String} {p : AppProfile Float}
    (hname : catalog[name]? = some p) : Text.lowercase name = name := by
  obtain ⟨folded, hfolded, hothers, -⟩ := exists_folded_of_load hload
  by_cases hsome : (folded.lookup name).isSome = true
  · obtain ⟨other, -, rfl⟩ := (hfolded.isSome_iff name).mp hsome
    exact Text.lowercase_lowercase other
  · rw [hothers name (Option.not_isSome_iff_eq_none.mp hsome)] at hname
    exact lowercase_of_mem_benchmarks (mem_names_of_getElem?_builtin hname)

theorem findsDeclared_of_lower
    (hlower : ∀ name ∈ (declared text).map Prod.fst, Text.lowercase name = name) :
    FindsDeclared (declared text) catalog := by
  have hfound : ∀ name body, (declared text).lookup name = some body →
      ∃ p, AppProfile.reader body = some p ∧ catalog[name]? = some p := by
    intro name body hbody
    have hself := hlower name (Json.isSome_lookup_iff.mp (Option.isSome_of_eq_some hbody))
    have hprofile := getElem?_lowercase_of_declared hload hbody fun other hother hsame =>
      (hlower other hother).symm.trans (hsame.trans hself)
    rwa [hself] at hprofile
  have hothers : ∀ name, (declared text).lookup name = none → catalog[name]? = builtin[name]? := by
    intro name hname
    refine getElem?_of_undeclared hload fun other hother hsame => ?_
    rw [hlower other hother] at hsame
    have hsome := Json.isSome_lookup_iff.mpr (hsame ▸ hother)
    rw [hname] at hsome
    cases hsome
  refine ⟨?_, hothers, ?_, ?_⟩
  · intro name body hbody
    obtain ⟨p, hp, hcatalog⟩ := hfound name body hbody
    exact ⟨p, hp, hcatalog, require_of_some hcatalog⟩
  · intro name hname hbuiltin
    refine require_of_none ?_
    rw [hothers name hname, Option.eq_none_iff_forall_ne_some]
    exact fun p hp => hbuiltin (mem_names_of_getElem?_builtin hp)
  · intro σ d p s hcatalog hdeclared name hrefused
    obtain ⟨body, hbody⟩ := Option.isSome_iff_exists.mp hdeclared
    obtain ⟨q, -, hq⟩ := hfound p.profile body hbody
    have hnone := getElem?_eq_none_of_recordPlacement hrefused
    rw [hcatalog, hq] at hnone
    cases hnone

/-- A profile file is looked up by the names that it declares exactly if all of them are in lower
case.  In any case a profile is found under the lower case of its name unless another declared
name has the same, no name is found that is not in lower case, and a name that is the lower case
of no declared name keeps its built-in profile or stays unknown. -/
theorem findsDeclared_iff :
    (FindsDeclared (declared text) catalog ↔
      ∀ name ∈ (declared text).map Prod.fst, Text.lowercase name = name) ∧
    (∀ name body, (declared text).lookup name = some body →
      (∀ other ∈ (declared text).map Prod.fst,
        Text.lowercase other = Text.lowercase name → other = name) →
      ∃ p, AppProfile.reader body = some p ∧ catalog[Text.lowercase name]? = some p) ∧
    (∀ name, Text.lowercase name ≠ name →
      catalog.require name = .error (.unknownProfile name)) ∧
    ∀ name, (∀ other ∈ (declared text).map Prod.fst, Text.lowercase other ≠ name) →
      catalog[name]? = builtin[name]? := by
  refine ⟨⟨?_, findsDeclared_of_lower hload⟩, ?_, ?_, ?_⟩
  · intro hfinds name hname
    obtain ⟨body, hbody⟩ := Option.isSome_iff_exists.mp (Json.isSome_lookup_iff.mpr hname)
    obtain ⟨p, -, hcatalog, -⟩ := hfinds.found name body hbody
    exact lowercase_of_getElem? hload hcatalog
  · intro name body hbody hapart
    exact getElem?_lowercase_of_declared hload hbody hapart
  · intro name hname
    refine require_of_none (Option.eq_none_iff_forall_ne_some.mpr fun p hp => ?_)
    exact hname (lowercase_of_getElem? hload hp)
  · intro name hname
    exact getElem?_of_undeclared hload hname

end

theorem load_of_file {text : String} {profiles : List (String × AppProfile Float)}
    (hfile : Catalog.reader.file (some text) = .ok profiles) :
    load (some text) = .ok (builtin.extend profiles) := by
  rw [load, hfile]
  rfl

/-- The profiles of a file, each under its name as it is written there. -/
def readings (text : String) : List (String × Option (AppProfile Float)) :=
  (declared text).map fun entry => (entry.1, AppProfile.reader entry.2)

theorem map_fst_readings (text : String) :
    (readings text).map Prod.fst = (declared text).map Prod.fst := by
  rw [readings, List.map_map]
  rfl

theorem FindsDeclared.getElem?_eq {text : String} {catalog : Catalog Float}
    (hfinds : FindsDeclared (declared text) catalog) {name : String} {p : AppProfile Float}
    (hname : (readings text).lookup name = some (some p)) : catalog[name]? = some p := by
  rw [readings, Json.lookup_map_snd] at hname
  obtain ⟨body, hbody, hp⟩ := Option.map_eq_some_iff.mp hname
  obtain ⟨q, hq, hfound, -⟩ := hfinds.found name body hbody
  rw [hfound, ← hq, hp]

/-- Three profiles with names in lower case, one of them at the end of a path and one in the
place of a built-in one. -/
theorem findsDeclared_iff_bench :
    let text := "\x7b\"profiles\": \x7b\"redis\": [0.5, 0.25, 1, 12.5, 300], " ++
      "\"spec-leslie\": [1, 2, 3, 4, 400]\x7d, \"Profiles.nginx\": [5, 6, 7, 8, 9]\x7d"
    ∃ catalog, load (some text) = .ok catalog ∧ FindsDeclared (declared text) catalog ∧
      catalog["redis"]? = some ⟨0.5, 0.25, 1, 12.5, 300⟩ ∧
      catalog["nginx"]? = some ⟨5, 6, 7, 8, 9⟩ ∧
      catalog["spec-leslie"]? = some ⟨1, 2, 3, 4, 400⟩ ∧
      catalog["spec-astar"]? = builtin["spec-astar"]? ∧
      catalog.require "Redis" = .error (.unknownProfile "Redis") := by
  intro text
  have hfile : Catalog.reader.file (some text) = .ok [("nginx", ⟨5, 6, 7, 8, 9⟩),
      ("redis", ⟨0.5, 0.25, 1, 12.5, 300⟩), ("spec-leslie", ⟨1, 2, 3, 4, 400⟩)] := by
    decide +kernel
  have hreadings : readings text = [("nginx", some ⟨5, 6, 7, 8, 9⟩),
      ("redis", some ⟨0.5, 0.25, 1, 12.5, 300⟩), ("spec-leslie", some ⟨1, 2, 3, 4, 400⟩)] := by
    decide +kernel
  have hnames : (declared text).map Prod.fst = ["nginx", "redis", "spec-leslie"] := by
    rw [← map_fst_readings, hreadings]
    rfl
  have hload := load_of_file hfile
  obtain ⟨hiff, -, hunknown, hothers⟩ := findsDeclared_iff hload
  have hfinds := hiff.mpr (by rw [hnames]; decide +kernel)
  refine ⟨_, hload, hfinds, ?_, ?_, ?_, ?_, ?_⟩
  · exact hfinds.getElem?_eq (by rw [hreadings]; rfl)
  · exact hfinds.getElem?_eq (by rw [hreadings]; rfl)
  · exact hfinds.getElem?_eq (by rw [hreadings]; rfl)
  · exact hothers "spec-astar" (by rw [hnames]; decide +kernel)
  · exact hunknown "Redis" (by decide +kernel)

/-- Two profiles with capital letters in their names.  The first is unknown under its name, and
a workload that names it is refused; the second takes the place of a built-in profile whose name
the file does not declare. -/
theorem not_findsDeclared :
    let text := "\x7b\"profiles\": \x7b\"Redis\": [1, 2, 3, 4, 5], " ++
      "\"Spec-Leslie\": [5, 4, 3, 2, 1]\x7d\x7d"
    ∃ catalog, load (some text) = .ok catalog ∧
      (declared text).map Prod.fst = ["Redis", "Spec-Leslie"] ∧
      ¬FindsDeclared (declared text) catalog ∧
      catalog.require "Redis" = .error (.unknownProfile "Redis") ∧
      (∀ s, ({ Deployment.bench with catalog }.recordPlacement ⟨"bench", 1, "Redis", true⟩ s).1 =
        .error (.unknownProfile "Redis")) ∧
      catalog["spec-leslie"]? = some ⟨5, 4, 3, 2, 1⟩ ∧
      builtin["spec-leslie"]? = some ⟨1.5225, 0.3221, 0.1532, 0.1215, 378⟩ := by
  intro text
  have hfile : Catalog.reader.file (some text) =
      .ok [("redis", ⟨1, 2, 3, 4, 5⟩), ("spec-leslie", ⟨5, 4, 3, 2, 1⟩)] := by
    decide +kernel
  obtain ⟨catalog, hload, hreplaced⟩ : ∃ catalog, load (some text) = .ok catalog ∧
      catalog["spec-leslie"]? = some ⟨5, 4, 3, 2, 1⟩ := by
    refine ⟨_, load_of_file hfile, ?_⟩
    rw [getElem?_extend builtin (List.pairwise_pair.mpr (by decide +kernel))]
    rfl
  have hreadings : readings text =
      [("Redis", some ⟨1, 2, 3, 4, 5⟩), ("Spec-Leslie", some ⟨5, 4, 3, 2, 1⟩)] := by
    decide +kernel
  have hnames : (declared text).map Prod.fst = ["Redis", "Spec-Leslie"] := by
    rw [← map_fst_readings, hreadings]
    rfl
  have hcapital : Text.lowercase "Redis" ≠ "Redis" := by
    decide +kernel
  have hnone : catalog["Redis"]? = none :=
    Option.eq_none_iff_forall_ne_some.mpr fun p hp => hcapital (lowercase_of_getElem? hload hp)
  refine ⟨_, hload, hnames, ?_, require_of_none hnone, ?_, hreplaced, by decide +kernel⟩
  · intro hfinds
    have hfound : catalog["Redis"]? = some ⟨1, 2, 3, 4, 5⟩ :=
      hfinds.getElem?_eq (by rw [hreadings]; rfl)
    exact absurd (hnone.symm.trans hfound) nofun
  · intro s
    have hnode : Topology.bench.node? "bench" =
        some { name := "bench", uuid := "b-1", sockets := [⟨0, [0, 1]⟩, ⟨1, [2, 3]⟩] } :=
      rfl
    have hrefused : { Deployment.bench with catalog }.Refuses ⟨"bench", 1, "Redis", true⟩
        (.unknownProfile "Redis") :=
      .unknownProfile hnode (List.mem_of_getElem? (i := 1) rfl) rfl hnone
    rw [Deployment.fst_recordPlacement, Deployment.resolve_eq_error_iff.mpr hrefused]
    rfl

end Catalog

end SocketRanking
