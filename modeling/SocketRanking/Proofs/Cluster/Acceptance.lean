import SocketRanking.Proofs.Cluster.SocketKeys

/-!
# Which descriptions are accepted

A topology is built from a description if and only if no class, no node and no pair of nodes
of it is at fault, and otherwise the first fault is named.  What is built loses nothing: it
finds every listed node and socket as it was listed, finds nothing else, and knows of several
classes with one identity the one that is listed last.
-/

namespace SocketRanking

variable {α : Type}

/-! ## Consistent descriptions -/

/-- The nodes have sockets, number them apart, and have names of their own. -/
structure Node.AreApart (nodes : List Node) : Prop where
  sockets : ∀ n ∈ nodes, n.sockets ≠ []
  numbered : ∀ n ∈ nodes, (n.sockets.map Socket.id).Nodup
  named : (nodes.map Node.name).Nodup

theorem Node.areApart_cons_iff {n : Node} {rest : List Node} :
    AreApart (n :: rest) ↔ n.sockets ≠ [] ∧ (n.sockets.map Socket.id).Nodup ∧
      (∀ m ∈ rest, n.name ≠ m.name) ∧ AreApart rest := by
  have hname : n.name ∉ rest.map Node.name ↔ ∀ m ∈ rest, n.name ≠ m.name := by
    simp [eq_comm]
  constructor
  · rintro ⟨hsockets, hnumbered, hnamed⟩
    rw [List.forall_mem_cons] at hsockets hnumbered
    rw [List.map_cons, List.nodup_cons, hname] at hnamed
    exact ⟨hsockets.1, hnumbered.1, hnamed.1, hsockets.2, hnumbered.2, hnamed.2⟩
  · rintro ⟨hsockets, hnumbered, hnew, hrest⟩
    refine ⟨List.forall_mem_cons.mpr ⟨hsockets, hrest.sockets⟩,
      List.forall_mem_cons.mpr ⟨hnumbered, hrest.numbered⟩, ?_⟩
    rw [List.map_cons, List.nodup_cons, hname]
    exact ⟨hnew, hrest.named⟩

/-- A node finds its sockets by their numbers. -/
theorem Node.socket?_eq_some_iff {n : Node} (hnumbered : (n.sockets.map Socket.id).Nodup)
    {id : UInt32} {s : Socket} : n.socket? id = some s ↔ s ∈ n.sockets ∧ s.id = id := by
  constructor
  · intro hfound
    exact ⟨List.mem_of_find?_eq_some hfound, by simpa using List.find?_some hfound⟩
  · rintro ⟨hs, rfl⟩
    have hsome : (n.socket? s.id).isSome := by
      rw [Node.socket?, List.find?_isSome]
      exact ⟨s, hs, decide_eq_true rfl⟩
    obtain ⟨found, hfound⟩ := Option.isSome_iff_exists.mp hsome
    have hid : found.id = s.id := by simpa using List.find?_some hfound
    obtain rfl := List.inj_on_of_nodup_map hnumbered (List.mem_of_find?_eq_some hfound) hs hid
    exact hfound

/-- What is wrong with a node that follows others. -/
inductive Node.IsRefusedFor (before : List Node) (n : Node) : String → Prop
  | noSockets (hsockets : n.sockets = []) :
      IsRefusedFor before n ("node " ++ n.name ++ " has no sockets")
  | socketTwice {earlier later : List Socket} {s : Socket}
      (hsockets : n.sockets = earlier ++ s :: later) (hnumbered : (earlier.map Socket.id).Nodup)
      (hrepeated : s.id ∈ earlier.map Socket.id) :
      IsRefusedFor before n ("node " ++ n.name ++ " declares socket " ++ toString s.id ++ " twice")
  | nameTwice (hsockets : n.sockets ≠ []) (hnumbered : (n.sockets.map Socket.id).Nodup)
      (hrepeated : n.name ∈ before.map Node.name) :
      IsRefusedFor before n ("node " ++ n.name ++ " declared twice")

namespace TopologyFile

/-- Nothing in the description contradicts anything else. -/
structure IsConsistent (file : TopologyFile α) : Prop extends Node.AreApart file.nodes where
  factors : ∀ entry ∈ file.classes, entry.interconnect.length = 2

/-- The first fault of a description, classes before nodes. -/
inductive IsRefusedFor (file : TopologyFile α) : String → Prop
  | factors {before after : List (ClassEntry α)} {entry : ClassEntry α}
      (hclasses : file.classes = before ++ entry :: after)
      (hbefore : ∀ c ∈ before, c.interconnect.length = 2) (hentry : entry.interconnect.length ≠ 2) :
      IsRefusedFor file ("hardware class " ++ entry.uuid ++
        " needs exactly two interconnect factors, got " ++ toString entry.interconnect.length)
  | node {before after : List Node} {n : Node} {reason : String}
      (hclasses : ∀ c ∈ file.classes, c.interconnect.length = 2)
      (hnodes : file.nodes = before ++ n :: after) (hbefore : Node.AreApart before)
      (hn : n.IsRefusedFor before reason) : IsRefusedFor file reason

end TopologyFile

/-- The class as a description lists it. -/
def HardwareClass.entry (c : HardwareClass α) : ClassEntry α :=
  { uuid := c.uuid, interconnect := [c.interconnect.1, c.interconnect.2]
    maxFrequencyGhz := c.maxFrequencyGhz }

namespace Topology

/-- The topology holds what the description lists, and nothing else. -/
structure Represents (t : Topology α) (file : TopologyFile α) : Prop where
  nodes : t.nodes.values.Perm file.nodes
  node : ∀ name n, t.requireNode name = .ok n ↔ n ∈ file.nodes ∧ n.name = name
  unknown : ∀ name, (∀ n ∈ file.nodes, n.name ≠ name) →
    t.requireNode name = .error (.unknownNode name)
  socket : ∀ n ∈ file.nodes, ∀ id s, n.socket? id = some s ↔ s ∈ n.sockets ∧ s.id = id
  lastClass : ∀ n, (t.classOf? n).map HardwareClass.entry =
    file.classes.reverse.find? (·.uuid = n.uuid)

/-! ## Classes -/

theorem classOf_eq_ok_iff {entry : ClassEntry α} {c : HardwareClass α} :
    classOf entry = .ok c ↔ entry = c.entry := by
  obtain ⟨uuid, factors, maxFrequencyGhz⟩ := entry
  obtain ⟨uuid', ⟨a, b⟩, maxFrequencyGhz'⟩ := c
  unfold classOf
  split
  · next a' b' heq =>
      obtain rfl : factors = [a', b'] := heq
      simp [HardwareClass.entry]
  · next hfactors =>
      refine iff_of_false (by simp) fun heq => ?_
      exact hfactors a b (congrArg ClassEntry.interconnect heq)

theorem classOf_eq_error {entry : ClassEntry α} {e : Failure} (he : classOf entry = .error e) :
    entry.interconnect.length ≠ 2 ∧ e = .unreadableConfiguration
      ("hardware class " ++ entry.uuid ++ " needs exactly two interconnect factors, got " ++
        toString entry.interconnect.length) := by
  unfold classOf at he
  split at he
  · cases he
  · next hfactors =>
      refine ⟨fun htwo => ?_, (Except.error.inj he).symm⟩
      obtain ⟨a, b, hab⟩ := List.length_eq_two.mp htwo
      exact hfactors a b hab

/-- The classes of entries are those that are listed like them. -/
theorem classesOf_cases (entries : List (ClassEntry α)) :
    (∃ classes, classesOf entries = .ok classes ∧ entries = classes.map HardwareClass.entry) ∨
    ∃ before entry after e, entries = before ++ entry :: after ∧
      (∀ c ∈ before, c.interconnect.length = 2) ∧ classOf entry = .error e ∧
      classesOf entries = .error e := by
  induction entries with
  | nil => exact Or.inl ⟨[], rfl, rfl⟩
  | cons first rest ih =>
      rw [classesOf]
      cases hfirst : classOf first with
      | error e => exact Or.inr ⟨[], first, rest, e, rfl, by simp, hfirst, rfl⟩
      | ok c =>
          obtain rfl := classOf_eq_ok_iff.mp hfirst
          rcases ih with
            ⟨classes, hclasses, rfl⟩ | ⟨before, entry, after, e, rfl, hbefore, he, hrest⟩
          · rw [hclasses]
            exact Or.inl ⟨c :: classes, rfl, rfl⟩
          · rw [hrest]
            exact Or.inr ⟨c.entry :: before, entry, after, e, rfl,
              List.forall_mem_cons.mpr ⟨rfl, hbefore⟩, he, rfl⟩

theorem exists_classesOf_iff {entries : List (ClassEntry α)} :
    (∃ classes, classesOf entries = .ok classes) ↔
      ∀ entry ∈ entries, entry.interconnect.length = 2 := by
  rcases classesOf_cases entries with
    ⟨classes, hclasses, rfl⟩ | ⟨before, entry, after, e, rfl, -, hentry, herror⟩
  · exact iff_of_true ⟨classes, hclasses⟩ (List.forall_mem_map.mpr fun c _ => rfl)
  · refine iff_of_false ?_ fun hall => ?_
    · rintro ⟨classes, hclasses⟩
      cases herror.symm.trans hclasses
    · exact (classOf_eq_error hentry).1 (hall entry (by simp))

/-- Of several classes with one identity the last is found. -/
theorem getElem?_addClasses (classes : List (HardwareClass α)) (uuid : String) :
    (addClasses classes)[uuid]? = classes.reverse.find? (·.uuid = uuid) := by
  unfold addClasses
  induction classes using List.reverseRecOn with
  | nil => simp
  | append_singleton before last ih =>
      rw [List.foldl_append, List.foldl_cons, List.foldl_nil, Std.TreeMap.getElem?_insert, ih,
        List.reverse_append, List.reverse_singleton, List.singleton_append, List.find?_cons]
      by_cases hlast : last.uuid = uuid <;> simp [hlast]

/-! ## Nodes -/

theorem repeatedSocket?_eq_some {seen : List UInt32} {sockets : List Socket} {id : UInt32}
    (hrepeated : repeatedSocket? seen sockets = some id) :
    ∃ earlier s later, sockets = earlier ++ s :: later ∧ s.id = id ∧
      (earlier.map Socket.id).Nodup ∧ (∀ r ∈ earlier, r.id ∉ seen) ∧
      (id ∈ seen ∨ id ∈ earlier.map Socket.id) := by
  induction sockets generalizing seen with
  | nil => cases hrepeated
  | cons s rest ih =>
      rw [repeatedSocket?] at hrepeated
      by_cases hseen : s.id ∈ seen
      · rw [if_pos (by simpa using hseen)] at hrepeated
        obtain rfl := Option.some.inj hrepeated
        exact ⟨[], s, rest, rfl, rfl, List.nodup_nil, by simp, Or.inl hseen⟩
      · rw [if_neg (by simpa using hseen)] at hrepeated
        obtain ⟨earlier, r, later, rfl, rfl, hnodup, hapart, hagain⟩ := ih hrepeated
        refine ⟨s :: earlier, r, later, rfl, rfl, ?_, ?_, ?_⟩
        · rw [List.map_cons, List.nodup_cons]
          refine ⟨fun hs => ?_, hnodup⟩
          obtain ⟨x, hx, hid⟩ := List.mem_map.mp hs
          exact hapart x hx (hid ▸ List.mem_cons_self)
        · refine List.forall_mem_cons.mpr ⟨hseen, fun x hx hmem => ?_⟩
          exact hapart x hx (List.mem_cons_of_mem _ hmem)
        · rcases hagain with hmem | hearlier
          · rcases List.mem_cons.mp hmem with heq | hbefore
            · exact Or.inr (heq ▸ List.mem_cons_self)
            · exact Or.inl hbefore
          · exact Or.inr (List.mem_cons_of_mem _ hearlier)

/-- A node is refused for want of sockets, for a number that it uses twice, or for its name. -/
theorem addNode_eq_error {nodes : Std.TreeMap String Node} {n : Node} {e : Failure}
    {before : List Node} (hnames : ∀ name, name ∈ nodes ↔ name ∈ before.map Node.name)
    (he : addNode nodes n = .error e) :
    ∃ reason, e = .unreadableConfiguration reason ∧ n.IsRefusedFor before reason := by
  unfold addNode at he
  by_cases hempty : n.sockets = []
  · rw [if_pos (by simpa using hempty)] at he
    exact ⟨_, (Except.error.inj he).symm, .noSockets hempty⟩
  · rw [if_neg (by simpa using hempty)] at he
    cases hrepeated : repeatedSocket? [] n.sockets with
    | some id =>
        rw [hrepeated] at he
        obtain ⟨earlier, s, later, hsockets, rfl, hnodup, -, hagain⟩ :=
          repeatedSocket?_eq_some hrepeated
        have hagain' := hagain.resolve_left List.not_mem_nil
        exact ⟨_, (Except.error.inj he).symm, .socketTwice hsockets hnodup hagain'⟩
    | none =>
        rw [hrepeated] at he
        have hnumbered := (repeatedSocket?_eq_none_iff.mp hrepeated).1
        by_cases hknown : n.name ∈ nodes
        · dsimp only at he
          rw [if_pos (by simpa using hknown)] at he
          exact ⟨_, (Except.error.inj he).symm,
            .nameTwice hempty hnumbered ((hnames n.name).mp hknown)⟩
        · dsimp only at he
          rw [if_neg (by simpa using hknown)] at he
          cases he

/-- Nodes are entered if each of them can be entered and no two have one name. -/
theorem exists_addNodes_iff {nodes : Std.TreeMap String Node} {file : List Node} :
    (∃ nodes', addNodes nodes file = .ok nodes') ↔
      Node.AreApart file ∧ ∀ n ∈ file, n.name ∉ nodes := by
  induction file generalizing nodes with
  | nil =>
      refine iff_of_true ⟨nodes, rfl⟩ ⟨⟨?_, ?_, List.nodup_nil⟩, ?_⟩ <;>
        exact List.forall_mem_nil _
  | cons first rest ih =>
      have hstep : (∃ nodes', addNodes nodes (first :: rest) = .ok nodes') ↔
          ∃ entered, addNode nodes first = .ok entered ∧
            ∃ nodes', addNodes entered rest = .ok nodes' := by
        rw [addNodes]
        cases addNode nodes first with
        | error e => simp [bind, Except.bind]
        | ok entered => simp [bind, Except.bind]
      have hentered : ∀ name, name ∈ nodes.insert first.name first ↔
          first.name = name ∨ name ∈ nodes := by
        intro name
        rw [Std.TreeMap.mem_insert, Std.LawfulEqCmp.compare_eq_iff_eq]
      simp only [hstep, addNode_eq_ok_iff, ih, Node.areApart_cons_iff, List.forall_mem_cons]
      constructor
      · rintro ⟨-, ⟨hsockets, hnumbered, hnew, rfl⟩, hrest, hothers⟩
        simp only [hentered, not_or] at hothers
        exact ⟨⟨hsockets, hnumbered, fun n hn => (hothers n hn).1, hrest⟩, hnew,
          fun n hn => (hothers n hn).2⟩
      · rintro ⟨⟨hsockets, hnumbered, hname, hrest⟩, hnew, hothers⟩
        refine ⟨_, ⟨hsockets, hnumbered, hnew, rfl⟩, hrest, fun n hn => ?_⟩
        rw [hentered, not_or]
        exact ⟨hname n hn, hothers n hn⟩

/-- Nodes are refused by the first of them that cannot be entered. -/
theorem exists_of_addNodes_eq_error {nodes : Std.TreeMap String Node} {file : List Node}
    {e : Failure} (he : addNodes nodes file = .error e) :
    ∃ before n after reached, file = before ++ n :: after ∧
      addNodes nodes before = .ok reached ∧ addNode reached n = .error e := by
  induction file generalizing nodes with
  | nil => cases he
  | cons first rest ih =>
      rw [addNodes] at he
      cases hfirst : addNode nodes first with
      | error e' =>
          rw [hfirst] at he
          obtain rfl := Except.error.inj he
          exact ⟨[], first, rest, nodes, rfl, rfl, hfirst⟩
      | ok entered =>
          rw [hfirst] at he
          obtain ⟨before, n, after, reached, rfl, hreached, hn⟩ := ih he
          refine ⟨first :: before, n, after, reached, rfl, ?_, hn⟩
          rw [addNodes, hfirst]
          exact hreached

/-! ## Whole descriptions -/

theorem isRefusedFor_of_ofFile {file : TopologyFile α} {e : Failure}
    (he : ofFile file = .error e) :
    ∃ reason, e = .unreadableConfiguration reason ∧ file.IsRefusedFor reason := by
  rw [ofFile] at he
  rcases classesOf_cases file.classes with
    ⟨classes, hclasses, hlisted⟩ | ⟨before, entry, after, e', hsplit, hbefore, hentry, hclasses⟩
  · rw [hclasses] at he
    have hfactors : ∀ entry ∈ file.classes, entry.interconnect.length = 2 := by
      rw [hlisted]
      exact List.forall_mem_map.mpr fun c _ => rfl
    cases hnodes : addNodes ∅ file.nodes with
    | ok nodes =>
        rw [hnodes] at he
        cases he
    | error e' =>
        rw [hnodes] at he
        obtain rfl : e' = e := Except.error.inj he
        obtain ⟨before, n, after, reached, hsplit, hreached, hn⟩ :=
          exists_of_addNodes_eq_error hnodes
        -- What was entered so far is what is listed before the node at fault.
        have hnames : ∀ name, name ∈ reached ↔ name ∈ before.map Node.name := by
          intro name
          rw [Std.TreeMap.mem_iff_isSome_getElem?, Option.isSome_iff_exists]
          simp [getElem?_addNodes hreached]
        obtain ⟨reason, rfl, hfault⟩ := addNode_eq_error hnames hn
        have hbefore := (exists_addNodes_iff.mp ⟨reached, hreached⟩).1
        exact ⟨reason, rfl, .node hfactors hsplit hbefore hfault⟩
  · rw [hclasses] at he
    obtain rfl : e' = e := Except.error.inj he
    obtain ⟨hfactors, rfl⟩ := classOf_eq_error hentry
    exact ⟨_, rfl, .factors hsplit hbefore hfactors⟩

/-- A description is accepted exactly if it does not contradict itself. -/
theorem exists_ofFile_iff {file : TopologyFile α} :
    (∃ t, ofFile file = .ok t) ↔ file.IsConsistent := by
  constructor
  · rintro ⟨t, haccepted⟩
    obtain ⟨classes, nodes, hclasses, hnodes, -⟩ := exists_of_ofFile haccepted
    have hapart := (exists_addNodes_iff.mp ⟨nodes, hnodes⟩).1
    exact ⟨hapart, exists_classesOf_iff.mp ⟨classes, hclasses⟩⟩
  · rintro ⟨hapart, hfactors⟩
    obtain ⟨classes, hclasses⟩ := exists_classesOf_iff.mpr hfactors
    obtain ⟨nodes, hnodes⟩ := exists_addNodes_iff.mpr
      ⟨hapart, fun n _ => Std.TreeMap.not_mem_emptyc (k := n.name)⟩
    rw [ofFile, hclasses, hnodes]
    exact ⟨_, rfl⟩

theorem values_perm_of_ofFile {file : TopologyFile α} {t : Topology α}
    (haccepted : ofFile file = .ok t) : t.nodes.values.Perm file.nodes := by
  have hnamed := (exists_ofFile_iff.mp ⟨t, haccepted⟩).named
  have hvalues := pairwise_name_values (isConsistent_of_ofFile haccepted)
  refine (List.perm_ext_iff_of_nodup ?_ (List.Nodup.of_map _ hnamed)).mpr fun n => ?_
  · exact hvalues.imp fun hname heq => hname (congrArg Node.name heq)
  · rw [values_eq_map_toList, List.mem_map]
    constructor
    · rintro ⟨⟨name, n'⟩, hbinding, rfl⟩
      have hn : t.node? name = some n' := Std.TreeMap.mem_toList_iff_getElem?_eq_some.mp hbinding
      exact ((node?_eq_some_iff_of_ofFile haccepted).mp hn).1
    · intro hn
      have hfound := (node?_eq_some_iff_of_ofFile haccepted).mpr ⟨hn, rfl⟩
      exact ⟨(n.name, n), Std.TreeMap.mem_toList_iff_getElem?_eq_some.mpr hfound, rfl⟩

/-- The class of a node is the last one that is listed for its identity. -/
theorem classOf?_of_ofFile {file : TopologyFile α} {t : Topology α}
    (haccepted : ofFile file = .ok t) (n : Node) : (t.classOf? n).map HardwareClass.entry =
      file.classes.reverse.find? (·.uuid = n.uuid) := by
  obtain ⟨classes, nodes, hclasses, -, rfl⟩ := exists_of_ofFile haccepted
  rcases classesOf_cases file.classes with
    ⟨classes', hclasses', hlisted⟩ | ⟨-, -, -, e, -, -, -, he⟩
  · obtain rfl : classes' = classes := Except.ok.inj (hclasses'.symm.trans hclasses)
    rw [hlisted, ← List.map_reverse, List.find?_map, classOf?, getElem?_addClasses]
    rfl
  · cases he.symm.trans hclasses

theorem represents_of_ofFile {file : TopologyFile α} {t : Topology α}
    (haccepted : ofFile file = .ok t) : t.Represents file where
  nodes := values_perm_of_ofFile haccepted
  node name n := requireNode_eq_ok_iff.trans (node?_eq_some_iff_of_ofFile haccepted)
  unknown name hname := by
    rw [requireNode_eq_error_iff, Option.eq_none_iff_forall_ne_some]
    refine ⟨fun n hn => ?_, rfl⟩
    obtain ⟨hlisted, rfl⟩ := (node?_eq_some_iff_of_ofFile haccepted).mp hn
    exact hname n hlisted rfl
  socket n hn id s :=
    Node.socket?_eq_some_iff ((exists_ofFile_iff.mp ⟨t, haccepted⟩).numbered n hn)
  lastClass n := classOf?_of_ofFile haccepted n

/-- A description is accepted if and only if every class has two factors, every node has
sockets and numbers them apart, and no two nodes have one name.  Otherwise it is refused as an
unreadable configuration that names its first fault.  An accepted topology finds every node and
socket of the description as listed, no others, and for a node the class that is listed last
for its identity. -/
theorem ofFile_accepts_consistent (file : TopologyFile α) :
    ((∃ t, ofFile file = .ok t) ↔ file.IsConsistent) ∧
    (∀ e, ofFile file = .error e →
      ∃ reason, e = .unreadableConfiguration reason ∧ file.IsRefusedFor reason) ∧
    ∀ t, ofFile file = .ok t → t.Represents file :=
  ⟨exists_ofFile_iff, fun _ => isRefusedFor_of_ofFile, fun _ => represents_of_ofFile⟩

/-- A description with two classes for one identity, and one that lists its node twice. -/
theorem ofFile_accepts_consistent_bench :
    let listed (ghz : Float) : ClassEntry Float := ⟨"b-1", [3.0, 10.4], ghz⟩
    (∃ t, ofFile { benchFile with classes := [listed 2.2, listed 2.4] } = .ok t ∧
      ∀ n ∈ benchFile.nodes, t.requireNode n.name = .ok n ∧
        (t.classOf? n).map HardwareClass.entry = some (listed 2.4)) ∧
    ({ benchFile with nodes := benchFile.nodes ++ benchFile.nodes } :
      TopologyFile Float).IsRefusedFor "node bench declared twice" := by
  intro listed
  obtain ⟨-, -, hrepresents⟩ :=
    ofFile_accepts_consistent { benchFile with classes := [listed 2.2, listed 2.4] }
  obtain ⟨-, hrefused, -⟩ :=
    ofFile_accepts_consistent { benchFile with nodes := benchFile.nodes ++ benchFile.nodes }
  refine ⟨⟨_, rfl, fun n hn => ?_⟩, ?_⟩
  · have ht := hrepresents _ rfl
    refine ⟨(ht.node n.name n).mpr ⟨hn, rfl⟩, (ht.lastClass n).trans ?_⟩
    obtain rfl := List.mem_singleton.mp hn
    rfl
  · obtain ⟨reason, hreason, hfault⟩ :=
      hrefused (.unreadableConfiguration "node bench declared twice") rfl
    obtain rfl := Failure.unreadableConfiguration.inj hreason
    exact hfault

end Topology

end SocketRanking
