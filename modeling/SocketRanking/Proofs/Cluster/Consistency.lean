import Mathlib.Data.List.Induction
import Mathlib.Data.List.Nodup
import SocketRanking.Cluster.Topology

/-!
# Consistency of accepted topologies

A topology that was built from a description finds every node under its own
name, and no node of it repeats a socket number.  Hence a cache key stands for
one socket of one node, which is what lets the sockets of a call, and the nodes
of a ranking, be considered one by one.
-/

namespace SocketRanking

def Node.key (n : Node) (socket : Socket) : SocketKey :=
  { node := n.name, socket := socket.id }

theorem Node.key_eq_key {n : Node} {socket other : Socket} :
    n.key socket = n.key other ↔ socket.id = other.id := by
  simp [Node.key]

namespace Topology

variable {α : Type}

/-- Nodes are found under their own names and number their sockets apart. -/
structure IsConsistent (t : Topology α) : Prop where
  name_eq {name : String} {n : Node} : t.node? name = some n → n.name = name
  nodup_sockets {name : String} {n : Node} :
    t.node? name = some n → (n.sockets.map Socket.id).Nodup

/-! ## What a description has to satisfy -/

theorem repeatedSocket?_eq_none_iff {seen : List UInt32} {sockets : List Socket} :
    repeatedSocket? seen sockets = none ↔
      (sockets.map Socket.id).Nodup ∧ ∀ s ∈ sockets, s.id ∉ seen := by
  induction sockets generalizing seen with
  | nil => simp [repeatedSocket?]
  | cons s rest ih =>
      rw [repeatedSocket?]
      by_cases hseen : s.id ∈ seen
      · simp [hseen]
      · rw [if_neg (by simpa using hseen), ih]
        simp only [List.map_cons, List.nodup_cons, List.mem_map, List.mem_cons,
          not_exists, not_and, not_or, forall_eq_or_imp]
        constructor
        · rintro ⟨hrest, hapart⟩
          exact ⟨⟨fun x hx => (hapart x hx).1, hrest⟩, hseen,
            fun x hx => (hapart x hx).2⟩
        · rintro ⟨⟨hapart, hrest⟩, -, hunseen⟩
          exact ⟨hrest, fun x hx => ⟨hapart x hx, hunseen x hx⟩⟩

theorem addNode_eq_ok_iff {nodes nodes' : Std.TreeMap String Node} {n : Node} :
    addNode nodes n = .ok nodes' ↔
      n.sockets ≠ [] ∧ (n.sockets.map Socket.id).Nodup ∧ n.name ∉ nodes ∧
        nodes' = nodes.insert n.name n := by
  unfold addNode
  by_cases hempty : n.sockets = []
  · simp [hempty]
  · rw [if_neg (by simpa using hempty)]
    cases hrepeated : repeatedSocket? [] n.sockets with
    | some id =>
        have hnodup : ¬(n.sockets.map Socket.id).Nodup := by
          intro hnodup
          have hnone := repeatedSocket?_eq_none_iff.mpr
            ⟨hnodup, fun s _ => List.not_mem_nil (a := s.id)⟩
          rw [hnone] at hrepeated
          cases hrepeated
        simp [hnodup]
    | none =>
        have hnodup := (repeatedSocket?_eq_none_iff.mp hrepeated).1
        by_cases hknown : n.name ∈ nodes
        · simp [hknown]
        · rw [if_neg (by simpa using hknown), Except.ok.injEq]
          exact ⟨fun hnodes => ⟨hempty, hnodup, hknown, hnodes.symm⟩,
            fun ⟨_, _, _, hnodes⟩ => hnodes.symm⟩

/-- Whatever holds of the listed nodes under their own names holds of all nodes
of the map that they were entered into. -/
theorem addNodes_forall {P : String → Node → Prop} {file : List Node}
    {nodes nodes' : Std.TreeMap String Node}
    (hadd : addNodes nodes file = .ok nodes')
    (hnodes : ∀ name n, nodes[name]? = some n → P name n)
    (hfile : ∀ n ∈ file, n.sockets ≠ [] → (n.sockets.map Socket.id).Nodup → P n.name n) :
    ∀ name n, nodes'[name]? = some n → P name n := by
  induction file generalizing nodes with
  | nil =>
      obtain rfl : nodes = nodes' := Except.ok.inj hadd
      exact hnodes
  | cons first rest ih =>
      rw [addNodes] at hadd
      cases hfirst : addNode nodes first with
      | error e =>
          rw [hfirst] at hadd
          cases hadd
      | ok entered =>
          rw [hfirst] at hadd
          obtain ⟨hsockets, hnodup, -, rfl⟩ := addNode_eq_ok_iff.mp hfirst
          refine ih hadd ?_ fun n hn => hfile n (List.mem_cons_of_mem _ hn)
          intro name n hn
          rw [Std.TreeMap.getElem?_insert] at hn
          by_cases hname : first.name = name
          · obtain rfl : first = n := by simpa [hname] using hn
            exact hname ▸ hfile first List.mem_cons_self hsockets hnodup
          · exact hnodes name n (by simpa [hname] using hn)

/-- A map holds the nodes that it held before and those that were entered, under their own
names. -/
theorem getElem?_addNodes {file : List Node} {nodes nodes' : Std.TreeMap String Node}
    (hadd : addNodes nodes file = .ok nodes') {name : String} {n : Node} :
    nodes'[name]? = some n ↔ nodes[name]? = some n ∨ n ∈ file ∧ n.name = name := by
  induction file generalizing nodes with
  | nil =>
      obtain rfl : nodes = nodes' := Except.ok.inj hadd
      simp
  | cons first rest ih =>
      rw [addNodes] at hadd
      cases hfirst : addNode nodes first with
      | error e =>
          rw [hfirst] at hadd
          cases hadd
      | ok entered =>
          rw [hfirst] at hadd
          obtain ⟨-, -, hnew, rfl⟩ := addNode_eq_ok_iff.mp hfirst
          rw [ih hadd, Std.TreeMap.getElem?_insert, List.mem_cons]
          by_cases hname : first.name = name
          · subst hname
            have hnone : nodes[first.name]? = none := Std.TreeMap.getElem?_eq_none hnew
            simp only [Std.ReflCmp.compare_self, if_true, hnone, Option.some.injEq]
            grind
          · grind

/-- A topology is accepted when its classes and its nodes are. -/
theorem exists_of_ofFile {file : TopologyFile α} {t : Topology α}
    (haccepted : ofFile file = .ok t) :
    ∃ classes nodes, classesOf file.classes = .ok classes ∧ addNodes ∅ file.nodes = .ok nodes ∧
      t = { nodes, classes := addClasses classes } := by
  rw [ofFile] at haccepted
  cases hclasses : classesOf file.classes with
  | error e =>
      rw [hclasses] at haccepted
      cases haccepted
  | ok classes =>
      rw [hclasses] at haccepted
      cases hnodes : addNodes ∅ file.nodes with
      | error e =>
          rw [hnodes] at haccepted
          cases haccepted
      | ok nodes =>
          rw [hnodes] at haccepted
          exact ⟨classes, nodes, rfl, rfl, (Except.ok.inj haccepted).symm⟩

/-- An accepted topology finds the nodes of its description. -/
theorem node?_eq_some_iff_of_ofFile {file : TopologyFile α} {t : Topology α}
    (haccepted : ofFile file = .ok t) {name : String} {n : Node} :
    t.node? name = some n ↔ n ∈ file.nodes ∧ n.name = name := by
  obtain ⟨classes, nodes, -, hnodes, rfl⟩ := exists_of_ofFile haccepted
  exact (getElem?_addNodes hnodes).trans (by simp)

/-- Whatever holds of nodes that have sockets, numbered apart, holds of all nodes of an
accepted topology. -/
theorem forall_of_ofFile {P : String → Node → Prop} {file : TopologyFile α} {t : Topology α}
    (haccepted : ofFile file = .ok t)
    (hnode : ∀ n : Node, n.sockets ≠ [] → (n.sockets.map Socket.id).Nodup → P n.name n)
    {name : String} {n : Node} (hn : t.node? name = some n) : P name n := by
  obtain ⟨classes, nodes, -, hnodes, rfl⟩ := exists_of_ofFile haccepted
  exact addNodes_forall hnodes (by simp) (fun n _ => hnode n) name n hn

theorem isConsistent_of_ofFile {file : TopologyFile α} {t : Topology α}
    (haccepted : ofFile file = .ok t) : t.IsConsistent where
  name_eq hn :=
    forall_of_ofFile (P := fun name n => n.name = name) haccepted (fun _ _ _ => rfl) hn
  nodup_sockets hn :=
    forall_of_ofFile (P := fun _ n => (n.sockets.map Socket.id).Nodup) haccepted
      (fun _ _ hnodup => hnodup) hn

theorem sockets_ne_nil_of_ofFile {file : TopologyFile α} {t : Topology α}
    (haccepted : ofFile file = .ok t) {name : String} {n : Node}
    (hn : t.node? name = some n) : n.sockets ≠ [] :=
  forall_of_ofFile (P := fun _ n => n.sockets ≠ []) haccepted (fun _ hsockets _ => hsockets) hn

/-! ## Classes -/

theorem exists_of_mem_classesOf {entries : List (ClassEntry α)} {classes : List (HardwareClass α)}
    (hclasses : classesOf entries = .ok classes) {c : HardwareClass α} (hc : c ∈ classes) :
    ∃ entry ∈ entries, classOf entry = .ok c := by
  induction entries generalizing classes with
  | nil =>
      obtain rfl : [] = classes := Except.ok.inj hclasses
      cases hc
  | cons entry rest ih =>
      rw [classesOf] at hclasses
      cases hentry : classOf entry with
      | error e =>
          rw [hentry] at hclasses
          cases hclasses
      | ok first =>
          rw [hentry] at hclasses
          cases hrest : classesOf rest with
          | error e =>
              rw [hrest] at hclasses
              cases hclasses
          | ok later =>
              rw [hrest] at hclasses
              obtain rfl : first :: later = classes := Except.ok.inj hclasses
              rcases List.mem_cons.mp hc with rfl | hlater
              · exact ⟨entry, List.mem_cons_self, hentry⟩
              · obtain ⟨entry', hmem, hentry'⟩ := ih hrest hlater
                exact ⟨entry', List.mem_cons_of_mem entry hmem, hentry'⟩

theorem mem_of_getElem?_addClasses {classes : List (HardwareClass α)} {uuid : String}
    {c : HardwareClass α} (hc : (addClasses classes)[uuid]? = some c) : c ∈ classes := by
  unfold addClasses at hc
  induction classes using List.reverseRecOn with
  | nil => simp at hc
  | append_singleton before last ih =>
      rw [List.foldl_append, List.foldl_cons, List.foldl_nil, Std.TreeMap.getElem?_insert] at hc
      split at hc
      · obtain rfl := Option.some.inj hc
        exact List.mem_append_right before List.mem_cons_self
      · exact List.mem_append_left [last] (ih hc)

/-- The class of a node is one of those that the description lists. -/
theorem exists_of_classOf? {file : TopologyFile α} {t : Topology α}
    (haccepted : ofFile file = .ok t) {n : Node} {c : HardwareClass α}
    (hc : t.classOf? n = some c) : ∃ entry ∈ file.classes, classOf entry = .ok c := by
  obtain ⟨classes, nodes, hclasses, -, rfl⟩ := exists_of_ofFile haccepted
  exact exists_of_mem_classesOf hclasses (mem_of_getElem?_addClasses hc)

/-- Descriptions that list the same classes find the same classes. -/
theorem classes_eq_of_ofFile {file file' : TopologyFile α} {t t' : Topology α}
    (haccepted : ofFile file = .ok t) (haccepted' : ofFile file' = .ok t')
    (hclasses : file'.classes = file.classes) : t'.classes = t.classes := by
  obtain ⟨classes, nodes, hlisted, -, rfl⟩ := exists_of_ofFile haccepted
  obtain ⟨classes', nodes', hlisted', -, rfl⟩ := exists_of_ofFile haccepted'
  rw [hclasses, hlisted] at hlisted'
  rw [Except.ok.inj hlisted']

/-- A description of one node with two sockets of two cores each. -/
def benchFile : TopologyFile Float :=
  { nodes := [{ name := "bench", uuid := "b-1", sockets := [⟨0, [0, 1]⟩, ⟨1, [2, 3]⟩] }] }

/-- The topology of `benchFile`. -/
def bench : Topology Float :=
  { nodes := benchFile.nodes.foldl (fun nodes n => nodes.insert n.name n) ∅ }

theorem ofFile_benchFile : ofFile benchFile = .ok bench :=
  rfl

theorem socketKeys_bench : bench.socketKeys = [⟨"bench", 0⟩, ⟨"bench", 1⟩] := by
  have hvalues : bench.nodes.values = benchFile.nodes := rfl
  have hordered : (compare (⟨"bench", 0⟩ : SocketKey) ⟨"bench", 1⟩).isLE = true := by decide
  rw [socketKeys, hvalues]
  change [⟨"bench", 0⟩, ⟨"bench", 1⟩].mergeSort
    (fun a b : SocketKey => (compare a b).isLE) = _
  exact List.mergeSort_of_pairwise (by simp [hordered])

/-! ## Looking up nodes and keys -/

theorem requireNode_eq_ok_iff {t : Topology α} {name : String} {n : Node} :
    t.requireNode name = .ok n ↔ t.node? name = some n := by
  unfold requireNode
  cases t.node? name <;> simp

theorem requireNode_eq_error_iff {t : Topology α} {name : String} {e : Failure} :
    t.requireNode name = .error e ↔ t.node? name = none ∧ e = .unknownNode name := by
  unfold requireNode
  cases t.node? name <;> simp [eq_comm]

/-- A key stands for one socket of one node. -/
theorem IsConsistent.key_inj {t : Topology α} (hconsistent : t.IsConsistent)
    {name name' : String} {n n' : Node} (hn : t.node? name = some n)
    (hn' : t.node? name' = some n') {socket socket' : Socket}
    (hsocket : socket ∈ n.sockets) (hsocket' : socket' ∈ n'.sockets)
    (hkey : n.key socket = n'.key socket') : n = n' ∧ socket = socket' := by
  obtain ⟨hname, hid⟩ := SocketKey.mk.inj hkey
  rw [hconsistent.name_eq hn, hconsistent.name_eq hn'] at hname
  obtain rfl : n = n' := Option.some.inj (hn.symm.trans (hname ▸ hn'))
  exact ⟨rfl, List.inj_on_of_nodup_map (hconsistent.nodup_sockets hn) hsocket hsocket' hid⟩

/-- The values of a map are those of its list of bindings. -/
theorem values_eq_map_toList {β : Type} (m : Std.TreeMap String β) :
    m.values = m.toList.map Prod.snd := by
  have hfoldr : m.values = m.foldr (fun _ v vs => v :: vs) [] := rfl
  rw [hfoldr, Std.TreeMap.foldr_eq_foldr_toList]
  induction m.toList with
  | nil => rfl
  | cons _ _ ih => rw [List.foldr_cons, List.map_cons, ih]

theorem mem_socketKeys {t : Topology α} {name : String} {n : Node}
    (hn : t.node? name = some n) {socket : Socket} (hsocket : socket ∈ n.sockets) :
    n.key socket ∈ t.socketKeys := by
  have hvalue : n ∈ t.nodes.values := by
    rw [values_eq_map_toList]
    exact List.mem_map.mpr
      ⟨(name, n), Std.TreeMap.mem_toList_iff_getElem?_eq_some.mpr hn, rfl⟩
  exact (List.mergeSort_perm _ _).mem_iff.mpr
    (List.mem_flatMap.mpr ⟨n, hvalue, List.mem_map.mpr ⟨socket, hsocket, rfl⟩⟩)

end Topology

end SocketRanking
