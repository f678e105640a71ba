import SocketRanking.Client.Run
import SocketRanking.Proofs.Client.UrlPaths
import SocketRanking.Proofs.Service.Basis
import SocketRanking.Service.Api

/-!
# Questions about nodes

The client asks about a node under a path in which the name of the node stands as it was typed.
The service finds the node again if the name goes through the path as one segment and comes back
from percent coding, `asks_iff_isPlain`.  Other names lead to other nodes, to other resources or
to nothing.
-/

namespace SocketRanking.Client

/-- A request as the service receives it. -/
def Outbound.request (o : Outbound) : Request where
  method := o.method
  target := o.url.target
  contentType := o.body.map fun _ => Response.jsonType
  body := (o.body.map Json.compact).getD ""

/-- A transport that notes the requests it carries. -/
def noting (answer : Outbound → Option Reply) : Transport (StateM (List Outbound)) :=
  fun o sent => (answer o, sent ++ [o])

def requests (answer : Outbound → Option Reply) (palette : Palette) (i : Invocation) :
    List Outbound :=
  ((run (noting answer) palette i).run.run []).2

/-- What can be asked about a node. -/
inductive Question where
  | score
  | idle

namespace Question

def command : Question → String → Command
  | score => .score
  | idle => .idle

/-- The last segment of the path. -/
def aspect : Question → String
  | score => "score"
  | idle => "idle"

/-- The resource that answers about a node, whose name is percent-coded. -/
def endpoint : Question → String → Endpoint
  | score => .score
  | idle => .idleCapacity

/-- What the service does about a node, whose name is percent-coded. -/
def operation : Question → String → Operation
  | score => .score
  | idle => .showIdleCapacity

/-- What the service answers about a node. -/
def respond {σ : Type} (d : Deployment σ Float) (node : String) (s : State σ Float) :
    Question → Response × State σ Float
  | score =>
    match d.score node s with
    | (.ok result, s) => (.json 200 result.encode, s)
    | (.error trouble, s) => (trouble.response, s)
  | idle =>
    match d.idleCapacity node s with
    | (.ok cores, s) => (.json 200 (IdleCapacity.encode { node, cores }), s)
    | (.error trouble, s) => (trouble.response, s)

/-- A request puts a question about the node of this name. -/
def Asks (q : Question) (node : String) (r : Request) : Prop :=
  r.method = "GET" ∧ ∃ coded, Endpoint.ofPath? r.path = some (q.endpoint coded) ∧
    Text.percentDecode? coded = some node

end Question

/-- A name that is one segment of a path and leads to a place of its own. -/
structure IsSegment (name : String) : Prop where
  unmarked : ∀ c ∈ name.toList, Url.isMark c = false
  notAbove : Url.isAbove name.toList = false
  notHere : Url.isHere name.toList = false

/-- A name without marks of a path and without codes, and not one or two points. -/
structure IsPlain (name : String) : Prop where
  unmarked : ∀ c ∈ name.toList, Url.isMark c = false
  uncoded : Text.holdsCode name.toList = false
  noStep : name ≠ "." ∧ name ≠ ".."

/-! ## Requests -/

/-- The part of a command after its last request sends nothing. -/
theorem snd_run_bind {α β : Type} (x : ExceptT ClientError (StateM (List Outbound)) α)
    {f : α → ExceptT ClientError (StateM (List Outbound)) β}
    (hf : ∀ a sent, ((f a).run.run sent).2 = sent) (sent : List Outbound) :
    ((x >>= f).run.run sent).2 = (x.run.run sent).2 := by
  have hbind : (x >>= f).run.run sent =
      (ExceptT.bindCont f (x.run.run sent).1).run (x.run.run sent).2 :=
    rfl
  rw [hbind]
  rcases x.run.run sent with ⟨e | a, sent'⟩
  · rfl
  · exact hf a sent'

namespace Question

variable (q : Question) (node : String)

theorem requests_eq_exchange (answer : Outbound → Option Reply) (palette : Palette)
    (format : Format) {apiUrl : String} {base : Url} (hbase : Url.parse? apiUrl = some base) :
    requests answer palette ⟨apiUrl, format, q.command node⟩ =
      (((Session.mk base (noting answer)).exchange "GET" (nodePath node q.aspect) none).run.run
        []).2 := by
  rw [requests, run]
  simp only [hbase]
  cases q with
  | score =>
      exact (snd_run_bind _ (fun _ _ => rfl) _).trans (snd_run_bind _ (fun _ _ => rfl) _)
  | idle =>
      exact (snd_run_bind _ (fun _ _ => rfl) _).trans (snd_run_bind _ (fun _ _ => rfl) _)

/-- The one request that is put to a service of the web. -/
theorem requests_command (answer : Outbound → Option Reply) (palette : Palette)
    (format : Format) {apiUrl : String} {base : Url} (hbase : Url.parse? apiUrl = some base) :
    requests answer palette ⟨apiUrl, format, q.command node⟩ =
      match base.resolve? (nodePath node q.aspect) with
      | some url =>
        if Session.schemes.contains url.scheme then [{ method := "GET", url, body := none }] else []
      | none => [] := by
  rw [q.requests_eq_exchange node answer palette format hbase, Session.exchange]
  simp only
  cases base.resolve? (nodePath node q.aspect) with
  | none => rfl
  | some url =>
      simp only
      split
      next =>
        refine (snd_run_bind (ExceptT.lift (noting answer _)) (fun reply sent => ?_) []).trans rfl
        cases reply <;> rfl
      next => rfl

end Question

/-- The path of a request is what its segments make. -/
theorem path_request {o : Outbound} {segments : List String}
    (hsegments : o.url.segments = some segments)
    (hgoes : ∀ s ∈ segments, ∀ c ∈ s.toList, Url.goesOn c = true) :
    o.request.path = "/" ++ "/".intercalate segments := by
  have hpath : ∀ c ∈ ("/" ++ "/".intercalate segments).toList, Url.goesOn c = true := by
    intro c hc
    rw [String.toList_append] at hc
    rcases List.mem_append.mp hc with hc | hc
    · obtain rfl := List.mem_singleton.mp hc
      decide
    · rcases mem_intercalate_slash hc with rfl | ⟨s, hs, hcs⟩
      · decide
      · exact hgoes s hs c hcs
  change String.ofList (o.url.target.toList.takeWhile Url.goesOn) = _
  rw [Url.target, hsegments, Option.getD_some, String.toList_append,
    List.takeWhile_append_of_pos hpath]
  cases o.url.query with
  | none => exact (congrArg String.ofList (List.append_nil _)).trans String.ofList_toList
  | some query =>
      dsimp only
      have hquery : ("?" ++ query).toList = '?' :: query.toList := by
        simp
      rw [hquery, List.takeWhile_cons_of_neg (by decide), List.append_nil, String.ofList_toList]

/-! ## Names in paths -/

namespace Question

variable {q : Question} {node other : String}

/-- The place to which the path of a question leads from the root. -/
def place (q : Question) (node : String) : List String :=
  Url.walk [] (Url.pieces (nodePath node q.aspect).toList)

theorem toList_nodePath (node aspect : String) : (nodePath node aspect).toList =
    "api/v1/nodes".toList ++ '/' :: (node.toList ++ '/' :: aspect.toList) := by
  simp [nodePath]

theorem place_eq_walk (q : Question) (node : String) :
    q.place node = Url.walk ["api", "v1", "nodes"]
      (Url.pieces (node.toList ++ '/' :: q.aspect.toList)) := by
  have hpieces : Url.pieces "api/v1/nodes".toList =
      ["api".toList, "v1".toList, "nodes".toList] := by
    decide
  have hgoes : ∀ c ∈ "api/v1/nodes".toList, Url.goesOn c = true :=
    List.all_eq_true.mp (by decide)
  rw [place, toList_nodePath, Url.pieces_append_slash hgoes, hpieces]
  rw [List.cons_append, List.cons_append, List.cons_append, List.nil_append,
    Url.walk_cons (by decide) (by decide), Url.walk_cons (by decide) (by decide),
    Url.walk_cons (by decide) (by decide)]
  rfl

theorem mem_place {s : String} (hs : s ∈ q.place node) :
    s ∈ ["api", "v1", "nodes", "", "score", "idle"] ∨
      ∃ piece ∈ Url.pieces node.toList, s = Url.encodeSegment piece := by
  have hpieces : ∀ piece ∈ Url.pieces (node.toList ++ '/' :: q.aspect.toList),
      piece = q.aspect.toList ∨ piece ∈ Url.pieces node.toList := by
    intro piece hpiece
    have haspect : Url.pieces q.aspect.toList = [q.aspect.toList] := by
      cases q <;> decide
    by_cases hall : ∀ c ∈ node.toList, Url.goesOn c = true
    · rw [Url.pieces_append_slash hall, haspect] at hpiece
      exact (List.mem_append.mp hpiece).symm.imp_left List.mem_singleton.mp
    · simp only [not_forall, Bool.not_eq_true] at hall
      obtain ⟨c, hc, hend⟩ := hall
      rw [Url.pieces_append_of_mem hc hend] at hpiece
      exact Or.inr hpiece
  rw [place_eq_walk] at hs
  rcases Url.mem_walk hs with hfixed | rfl | ⟨piece, hpiece, rfl⟩
  · exact Or.inl (List.mem_append_left ["", "score", "idle"] hfixed)
  · exact Or.inl (by decide)
  · rcases hpieces piece hpiece with rfl | hpiece
    · refine Or.inl ?_
      cases q <;> decide
    · exact Or.inr ⟨piece, hpiece, rfl⟩

/-- The names that stand in a path at a place where they are found again have no marks. -/
theorem unmarked_of_mem_place {coded : String} (hmem : coded ∈ q.place node)
    (hcoded : Text.percentDecode? coded = some node) : ∀ c ∈ node.toList, Url.isMark c = false := by
  rcases mem_place hmem with hword | ⟨piece, hpiece, rfl⟩
  · have hwords : ∀ word ∈ ["api", "v1", "nodes", "", "score", "idle"],
        Text.holdsCode word.toList = false ∧ word.toList.any Url.isMark = false := by
      decide
    obtain ⟨hcode, hmarks⟩ := hwords coded hword
    rw [Text.percentDecode?_self_iff.mpr hcode] at hcoded
    obtain rfl := Option.some.inj hcoded
    exact Url.isMark_eq_false_of_any hmarks
  · obtain ⟨hsub, hmarks⟩ := Url.of_mem_pieces hpiece
    rw [Url.percentDecode?_encodeSegment] at hcoded
    have hle := Text.length_bytes_le_of_percentDecode? hcoded
    rw [Text.bytes_eq_flatMap, Text.bytes_eq_flatMap, String.toList_ofList] at hle
    rwa [← Url.eq_of_sublist hsub hle]

/-- A name without marks stands in its path as it is. -/
theorem place_of_unmarked (hnode : ∀ c ∈ node.toList, Url.isMark c = false) :
    q.place node = Url.walk ["api", "v1", "nodes"] [node.toList, q.aspect.toList] := by
  have haspect : ∀ c ∈ q.aspect.toList, Url.isMark c = false :=
    Url.isMark_eq_false_of_any (by cases q <;> decide)
  have hgoes : ∀ c ∈ node.toList, Url.goesOn c = true := fun c hc =>
    (Url.isMark_eq_false_iff.mp (hnode c hc)).2.1
  rw [place_eq_walk, Url.pieces_append_slash hgoes, Url.pieces_of_unmarked hnode,
    Url.pieces_of_unmarked haspect]
  rfl

theorem place_of_isSegment (hnode : IsSegment node) :
    q.place node = ["api", "v1", "nodes", Url.encodeSegment node.toList, q.aspect] := by
  rw [place_of_unmarked hnode.unmarked, Url.walk_cons hnode.notAbove hnode.notHere]
  cases q <;> rfl

/-- Where a question arrives at the node that it names, the name is a segment. -/
theorem isSegment_of_place_eq {coded : String}
    (hplace : q.place node = ["api", "v1", "nodes", coded, q.aspect])
    (hcoded : Text.percentDecode? coded = some node) : IsSegment node := by
  have hmem : coded ∈ q.place node := by
    rw [hplace]
    simp
  have hnode := unmarked_of_mem_place hmem hcoded
  rw [place_of_unmarked hnode] at hplace
  -- a step leaves fewer segments than the route has
  have hlength : (Url.walk ["api", "v1", "nodes"] [node.toList, q.aspect.toList]).length = 5 := by
    rw [hplace]
    rfl
  have habove : Url.isAbove node.toList = false := by
    refine Bool.eq_false_iff.mpr fun habove => ?_
    rw [Url.walk_above habove _ (List.cons_ne_nil _ _)] at hlength
    cases q <;> exact absurd hlength (by decide)
  refine ⟨hnode, habove, Bool.eq_false_iff.mpr fun hhere => ?_⟩
  rw [Url.walk_here habove hhere _ (List.cons_ne_nil _ _)] at hlength
  cases q <;> exact absurd hlength (by decide)

theorem isPlain_iff : IsPlain node ↔ IsSegment node ∧ Text.percentDecode? node = some node := by
  rw [Text.percentDecode?_self_iff]
  constructor
  · rintro ⟨hmarks, huncoded, hhere, habove⟩
    refine ⟨⟨hmarks, ?_, ?_⟩, huncoded⟩
    · rw [Url.isAbove, Url.uncodedPoints_of_uncoded huncoded]
      exact decide_eq_false fun h => habove (String.toList_injective h)
    · rw [Url.isHere, Url.uncodedPoints_of_uncoded huncoded]
      exact decide_eq_false fun h => hhere (String.toList_injective h)
  · rintro ⟨⟨hmarks, habove, hhere⟩, huncoded⟩
    refine ⟨hmarks, huncoded, ?_, ?_⟩
    · rintro rfl
      exact absurd hhere (by decide)
    · rintro rfl
      exact absurd habove (by decide)

/-- The route of a path that is made of segments. -/
theorem ofPath?_eq_some_iff {segments : List String} (hne : segments ≠ [])
    (hslash : ∀ s ∈ segments, '/' ∉ s.toList) {coded : String} :
    Endpoint.ofPath? ("/" ++ "/".intercalate segments) = some (q.endpoint coded) ↔
      segments = ["api", "v1", "nodes", coded, q.aspect] := by
  rw [Endpoint.ofPath?, splitOn_slash hne hslash]
  constructor
  · intro hroute
    split at hroute
    next => cases q <;> cases hroute
    next => cases q <;> cases hroute
    next => cases q <;> cases hroute
    next => cases q <;> cases hroute
    next hpath =>
      obtain rfl := (List.cons.inj hpath).2
      cases q <;> cases hroute
      rfl
    next hpath =>
      obtain rfl := (List.cons.inj hpath).2
      cases q <;> cases hroute
      rfl
    next => cases q <;> cases hroute
    next => cases q <;> cases hroute
    next => cases q <;> cases hroute
    next => cases hroute
  · rintro rfl
    cases q <;> rfl

/-- A request under the place of a question asks about a node if the place is the route of that
node. -/
theorem asks_iff {r : Request} (hmethod : r.method = "GET")
    (hpath : r.path = "/" ++ "/".intercalate (q.place node)) :
    q.Asks other r ↔ ∃ coded, q.place node = ["api", "v1", "nodes", coded, q.aspect] ∧
      Text.percentDecode? coded = some other := by
  have hslash : ∀ s ∈ q.place node, '/' ∉ s.toList := fun s hs hc =>
    (Url.of_mem_walk_pieces hs hc).1 rfl
  have hne : q.place node ≠ [] := Url.walk_ne_nil [] (Url.splitSlashes_ne_nil true _)
  rw [Asks, hpath]
  simp only [hmethod, true_and, ofPath?_eq_some_iff hne hslash]

/-- A name that is one segment of a path asks about the node whose name it codes. -/
theorem asks_iff_of_isSegment (hnode : IsSegment node) {r : Request} (hmethod : r.method = "GET")
    (hpath : r.path = "/" ++ "/".intercalate (q.place node)) :
    q.Asks other r ↔ Text.percentDecode? node = some other := by
  have hname : Text.percentDecode? (Url.encodeSegment node.toList) =
      Text.percentDecode? node := by
    rw [Url.percentDecode?_encodeSegment, String.ofList_toList]
  rw [asks_iff hmethod hpath, place_of_isSegment hnode]
  constructor
  · rintro ⟨coded, hroute, hcoded⟩
    obtain rfl : Url.encodeSegment node.toList = coded := by
      simpa using hroute
    rwa [hname] at hcoded
  · exact fun hother => ⟨_, rfl, hname.trans hother⟩

/-- The place of a question is the route of the node that was named if the name is plain. -/
theorem asks_self_iff {r : Request} (hmethod : r.method = "GET")
    (hpath : r.path = "/" ++ "/".intercalate (q.place node)) : q.Asks node r ↔ IsPlain node := by
  rw [isPlain_iff]
  constructor
  · intro hnode
    obtain ⟨coded, hplace, hcoded⟩ := (asks_iff hmethod hpath).mp hnode
    have hwhole := isSegment_of_place_eq hplace hcoded
    exact ⟨hwhole, (asks_iff_of_isSegment hwhole hmethod hpath).mp hnode⟩
  · rintro ⟨hwhole, hself⟩
    exact (asks_iff_of_isSegment hwhole hmethod hpath).mpr hself

end Question

namespace Question

variable {σ : Type} {q : Question} {node other : String}

/-- A request asks about one node at most. -/
theorem Asks.unique {r : Request} (hasks : q.Asks node r) (hother : q.Asks other r) :
    node = other := by
  obtain ⟨-, coded, hpath, hcoded⟩ := hasks
  obtain ⟨-, coded', hpath', hcoded'⟩ := hother
  have hendpoint : q.endpoint coded = q.endpoint coded' :=
    Option.some.inj (hpath.symm.trans hpath')
  obtain rfl : coded = coded' := by
    cases q <;> cases hendpoint <;> rfl
  exact Option.some.inj (hcoded.symm.trans hcoded')

/-- A request that asks about a node is answered about that node. -/
theorem Asks.handle_eq {r : Request} (hasks : q.Asks node r) (d : Deployment σ Float)
    (s : State σ Float) : d.handle r s = q.respond d node s := by
  obtain ⟨hmethod, coded, hpath, hcoded⟩ := hasks
  have hoperation : (q.endpoint coded).operation? "GET" = some (q.operation coded) := by
    cases q <;> rfl
  have hhandle : d.handle r s = d.perform r s (q.operation coded) := by
    have hget : ¬"GET" = "HEAD" := by decide
    rw [Deployment.handle, hpath, hmethod]
    simp only [if_neg hget, hoperation]
  rw [hhandle]
  cases q with
  | score =>
      rw [operation, Deployment.perform, hcoded]
      rfl
  | idle =>
      rw [operation, Deployment.perform, hcoded]
      rfl

/-- The one request by which a service of the web is asked goes to the place of the question. -/
theorem exists_request (q : Question) (node : String) (answer : Outbound → Option Reply)
    (palette : Palette) (format : Format) {apiUrl : String} (horigin : Url.IsOrigin apiUrl)
    {base : Url} (hbase : Url.parse? apiUrl = some base) (hscheme : base.scheme ∈ Session.schemes) :
    ∃ o, requests answer palette ⟨apiUrl, format, q.command node⟩ = [o] ∧
      o.request.method = "GET" ∧ o.request.path = "/" ++ "/".intercalate (q.place node) := by
  have hweb : base.scheme = "http" ∨ base.scheme = "https" := by
    simpa [Session.schemes] using hscheme
  have hfirst : ∀ c ∈ (nodePath node q.aspect).toList.head?, 32 < c.toNat := by
    intro c hc
    rw [toList_nodePath] at hc
    obtain rfl := Option.some.inj hc
    decide
  have hlast : ∀ c ∈ (nodePath node q.aspect).toList.getLast?, 32 < c.toNat := by
    intro c hc
    have hend : (nodePath node q.aspect).toList.getLast? = some 'e' := by
      rw [nodePath, String.toList_append, List.getLast?_append]
      cases q <;> rfl
    rw [hend] at hc
    obtain rfl := Option.some.inj hc
    decide
  obtain ⟨query, hurl⟩ := Url.exists_resolve? (Url.segments_of_isOrigin horigin hbase hweb)
    (Url.isKnownScheme_of_web hweb) hfirst hlast
  have hsent : Session.schemes.contains base.scheme = true := List.contains_iff_mem.mpr hscheme
  refine ⟨⟨"GET", { base with segments := some (q.place node), query }, none⟩, ?_, rfl,
    path_request rfl fun s hs c hc => (Url.of_mem_walk_pieces hs hc).2⟩
  rw [q.requests_command node answer palette format hbase, hurl]
  exact if_pos hsent

/-- The client asks a service of the web about a node by one request.  The request asks about the
node that was named exactly if its name is plain, and is then answered about that node; a name
that is one segment of a path leads to the node for which it is a percent-coded name.  A service
of another scheme is asked nothing. -/
theorem asks_iff_isPlain (q : Question) (node : String) (answer : Outbound → Option Reply)
    (palette : Palette) (format : Format) {apiUrl : String} (horigin : Url.IsOrigin apiUrl)
    {base : Url} (hbase : Url.parse? apiUrl = some base) :
    (base.scheme ∈ Session.schemes → ∃ o,
      requests answer palette ⟨apiUrl, format, q.command node⟩ = [o] ∧
      (q.Asks node o.request ↔ IsPlain node) ∧
      (IsPlain node → ∀ {σ : Type} (d : Deployment σ Float) (s : State σ Float),
        d.handle o.request s = q.respond d node s) ∧
      (IsSegment node → ∀ other, q.Asks other o.request ↔
        Text.percentDecode? node = some other)) ∧
    (base.scheme ∉ Session.schemes →
      requests answer palette ⟨apiUrl, format, q.command node⟩ = []) := by
  refine ⟨fun hscheme => ?_, fun hscheme => ?_⟩
  · obtain ⟨o, hsent, hmethod, hpath⟩ :=
      exists_request q node answer palette format horigin hbase hscheme
    have hplain : q.Asks node o.request ↔ IsPlain node := asks_self_iff hmethod hpath
    exact ⟨o, hsent, hplain, fun hnode _ d s => (hplain.mpr hnode).handle_eq d s,
      fun hnode _ => asks_iff_of_isSegment hnode hmethod hpath⟩
  · rw [q.requests_command node answer palette format hbase, Url.resolve?]
    have hunsent : Session.schemes.contains base.scheme = false :=
      Bool.eq_false_iff.mpr fun h => hscheme (List.contains_iff_mem.mp h)
    cases base.segments with
    | none => rfl
    | some segments => exact if_neg (by simpa using hunsent)

theorem isOrigin_localhost : Url.IsOrigin "http://localhost:8080" := by
  have hhost : "localhost:8080".toList.all (fun c => 32 < c.toNat && !Url.isMark c) = true := by
    decide
  refine ⟨"http", "localhost:8080", rfl, List.all_eq_true.mp (by decide), fun c hc => ?_⟩
  simpa using List.all_eq_true.mp hhost c hc

theorem parse?_localhost : Url.parse? "http://localhost:8080" =
    some ⟨"http", some (.name "localhost"), some 8080, some [""], none⟩ := by
  have hlabels : Host.labels "localhost" = ["localhost".toList] := by
    rw [Host.labels, show "." = String.singleton '.' from rfl, splitOn_singleton]
    decide
  have hhost : Host.ofText? "localhost".toList = some (.name "localhost") := by
    have hdecode : Text.percentDecode? (String.ofList "localhost".toList) = some "localhost" := by
      rw [String.ofList_toList]
      exact Text.percentDecode?_self_iff.mpr (by decide)
    have hnumber : Host.endsInNumber "localhost" = false := by
      rw [Host.endsInNumber, hlabels]
      decide
    have hlower : String.ofList ("localhost".toList.map Char.toLower) = "localhost" := by
      decide
    have hallowed :
        ("localhost".isEmpty || "localhost".toList.any Host.isForbiddenInName) = false := by
      decide
    rw [Host.ofText?, if_neg (by decide), hdecode]
    simp only [hlower, hallowed, hnumber]
    rfl
  have hauthority : Url.authority? "http" "localhost:8080".toList =
      some (.name "localhost", some 8080) := by
    have huser : Url.withoutUser "localhost:8080".toList = ("localhost:8080".toList, false) := by
      decide
    have hparts : Url.splitOutsideBrackets (· = ':') false "localhost:8080".toList =
        ("localhost".toList, ":8080".toList) := by
      decide
    have hport : Url.port? "http" ":8080".toList = some (some 8080) := by
      decide
    rw [Url.authority?, huser]
    simp only [hparts]
    rw [if_neg (by decide), if_pos (by decide), hhost, hport]
    rfl
  have hsplit : Url.splitScheme? (Url.withoutBreaks (Url.trimControls
      "http://localhost:8080".toList)) = some ("http", "//localhost:8080".toList) := by
    decide
  have hslashes : "//localhost:8080".toList.dropWhile (Url.isSlash true) =
      "localhost:8080".toList := by
    decide
  rw [Url.parse?, hsplit]
  change Url.afterSlashes? "http" ("//localhost:8080".toList.dropWhile (Url.isSlash true)) = _
  have hmarks : "localhost:8080".toList.any Url.isMark = false := by
    decide
  rw [hslashes, Url.afterSlashes?_of_unmarked "http" (Url.isMark_eq_false_of_any hmarks),
    hauthority]
  decide

/-- A blank, a letter outside ASCII and a percent sign that codes nothing arrive as they are. -/
theorem asks_iff_isPlain_blank :
    let s := Deployment.bench.start 500 3 .steady
    ∃ o, requests (fun _ => none) .plain
        ⟨"http://localhost:8080", .table, .score "Köln 7, 100%"⟩ = [o] ∧
      score.Asks "Köln 7, 100%" o.request ∧
      Deployment.bench.handle o.request s = score.respond Deployment.bench "Köln 7, 100%" s := by
  intro s
  obtain ⟨hweb, -⟩ := asks_iff_isPlain score "Köln 7, 100%" (fun _ => none) .plain .table
    isOrigin_localhost parse?_localhost
  obtain ⟨o, hsent, hasks, hanswer, -⟩ := hweb (by decide)
  have hplain : IsPlain "Köln 7, 100%" :=
    ⟨Url.isMark_eq_false_of_any (by decide), by decide, by decide⟩
  exact ⟨o, hsent, hasks.mpr hplain, hanswer hplain Deployment.bench s⟩

/-- Names that are not plain: one that is read as the name of another node, one that ends its own
path and so leads to another node, one that climbs to another resource, and one that leads
nowhere. -/
theorem not_asks :
    let sent := fun node => requests (fun _ => none) .plain
      ⟨"http://localhost:8080", .table, .score node⟩
    (∃ o, sent "kube%2d01" = [o] ∧ ¬score.Asks "kube%2d01" o.request ∧
      score.Asks "kube-01" o.request) ∧
    (∃ o, sent "kube-02/score?" = [o] ∧ ¬score.Asks "kube-02/score?" o.request ∧
      score.Asks "kube-02" o.request) ∧
    (∃ o, sent "../../../healthz?" = [o] ∧ Endpoint.ofPath? o.request.path = some .health) ∧
    ∃ o, sent "rack/7" = [o] ∧ Endpoint.ofPath? o.request.path = none := by
  intro sent
  have hrequest (node : String) : ∃ o, sent node = [o] ∧ o.request.method = "GET" ∧
      o.request.path = "/" ++ "/".intercalate (score.place node) :=
    exists_request score node (fun _ => none) .plain .table isOrigin_localhost parse?_localhost
      (by decide)
  refine ⟨?_, ?_, ?_, ?_⟩
  · obtain ⟨o, hsent, hmethod, hpath⟩ := hrequest "kube%2d01"
    have hplace : score.place "kube%2d01" = ["api", "v1", "nodes", "kube%2d01", "score"] := by
      decide +kernel
    have hdecode : Text.percentDecode? "kube%2d01" = some "kube-01" :=
      Text.percentDecode?_eq_some_iff.mpr (by decide +kernel)
    have hother : score.Asks "kube-01" o.request :=
      (asks_iff hmethod hpath).mpr ⟨_, hplace, hdecode⟩
    exact ⟨o, hsent, fun hsame => absurd (hsame.unique hother) (by decide), hother⟩
  · obtain ⟨o, hsent, hmethod, hpath⟩ := hrequest "kube-02/score?"
    have hplace : score.place "kube-02/score?" = ["api", "v1", "nodes", "kube-02", "score"] := by
      decide +kernel
    have hother : score.Asks "kube-02" o.request :=
      (asks_iff hmethod hpath).mpr
        ⟨_, hplace, Text.percentDecode?_self_iff.mpr (by decide)⟩
    exact ⟨o, hsent, fun hsame => absurd (hsame.unique hother) (by decide), hother⟩
  · obtain ⟨o, hsent, hmethod, hpath⟩ := hrequest "../../../healthz?"
    have hplace : score.place "../../../healthz?" = ["healthz"] := by
      decide +kernel
    refine ⟨o, hsent, ?_⟩
    rw [hpath, hplace, Endpoint.ofPath?, splitOn_slash (by decide) (by decide)]
    rfl
  · obtain ⟨o, hsent, hmethod, hpath⟩ := hrequest "rack/7"
    have hplace : score.place "rack/7" = ["api", "v1", "nodes", "rack", "7", "score"] := by
      decide +kernel
    refine ⟨o, hsent, ?_⟩
    rw [hpath, hplace, Endpoint.ofPath?, splitOn_slash (by decide) (by decide)]
    rfl

end Question

end SocketRanking.Client
