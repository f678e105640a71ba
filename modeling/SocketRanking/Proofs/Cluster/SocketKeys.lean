import SocketRanking.Proofs.Cluster.Consistency

/-!
# The socket keys of a topology

A consistent topology lists every socket of every node once, sorted by node and number,
and nothing else.
-/

namespace SocketRanking.Topology

variable {α : Type} {t : Topology α}

/-- A key is listed if and only if its node has its socket. -/
theorem mem_socketKeys_iff (hconsistent : t.IsConsistent) {k : SocketKey} :
    k ∈ t.socketKeys ↔
      ∃ n, t.node? k.node = some n ∧ ∃ socket ∈ n.sockets, socket.id = k.socket := by
  constructor
  · intro hk
    rw [socketKeys, (List.mergeSort_perm _ _).mem_iff, List.mem_flatMap] at hk
    obtain ⟨n, hvalue, hmem⟩ := hk
    obtain ⟨socket, hsocket, rfl⟩ := List.mem_map.mp hmem
    rw [values_eq_map_toList] at hvalue
    obtain ⟨⟨name, n'⟩, hbinding, rfl⟩ := List.mem_map.mp hvalue
    have hn : t.node? name = some n' := Std.TreeMap.mem_toList_iff_getElem?_eq_some.mp hbinding
    refine ⟨n', ?_, socket, hsocket, rfl⟩
    rw [hconsistent.name_eq hn]
    exact hn
  · rintro ⟨n, hn, socket, hsocket, hid⟩
    have hkey : n.key socket = k := by
      rw [Node.key, hconsistent.name_eq hn, hid]
    exact hkey ▸ mem_socketKeys hn hsocket

/-- Nodes have names of their own. -/
theorem pairwise_name_values (hconsistent : t.IsConsistent) :
    t.nodes.values.Pairwise fun n n' => n.name ≠ n'.name := by
  have hnames : ∀ binding ∈ t.nodes.toList, binding.2.name = binding.1 := by
    intro binding hbinding
    exact hconsistent.name_eq (Std.TreeMap.mem_toList_iff_getElem?_eq_some.mp hbinding)
  rw [values_eq_map_toList, List.pairwise_map]
  refine Std.TreeMap.distinct_keys_toList.imp_of_mem ?_
  intro first second hfirst hsecond hapart
  rw [hnames first hfirst, hnames second hsecond]
  exact fun hsame => hapart (Std.LawfulEqCmp.compare_eq_iff_eq.mpr hsame)

theorem nodup_socketKeys (hconsistent : t.IsConsistent) : t.socketKeys.Nodup := by
  rw [socketKeys, (List.mergeSort_perm _ _).nodup_iff, List.nodup_flatMap]
  constructor
  · intro n hvalue
    rw [values_eq_map_toList] at hvalue
    obtain ⟨⟨name, n'⟩, hbinding, rfl⟩ := List.mem_map.mp hvalue
    have hids := hconsistent.nodup_sockets
      (Std.TreeMap.mem_toList_iff_getElem?_eq_some.mp hbinding)
    refine List.Nodup.of_map SocketKey.socket ?_
    rw [List.map_map]
    exact hids
  · refine (pairwise_name_values hconsistent).imp ?_
    intro n n' hapart k hk hk'
    obtain ⟨socket, -, rfl⟩ := List.mem_map.mp hk
    obtain ⟨socket', -, hkey⟩ := List.mem_map.mp hk'
    exact hapart (congrArg SocketKey.node hkey).symm

/-- The listed keys ascend. -/
theorem pairwise_socketKeys (hconsistent : t.IsConsistent) :
    t.socketKeys.Pairwise fun a b => compare a b = .lt := by
  have htotal : ∀ a b : SocketKey, ((compare a b).isLE || (compare b a).isLE) = true := by
    intro a b
    have hswap : compare b a = (compare a b).swap := Std.OrientedCmp.eq_swap
    rw [hswap]
    cases compare a b <;> rfl
  have hsorted : t.socketKeys.Pairwise fun a b => (compare a b).isLE = true :=
    List.pairwise_mergeSort (fun _ _ _ => Std.TransCmp.isLE_trans) htotal _
  refine (hsorted.and (nodup_socketKeys hconsistent)).imp ?_
  rintro a b ⟨hle, hapart⟩
  cases hcompare : compare a b with
  | lt => rfl
  | eq => exact absurd (Std.LawfulEqCmp.eq_of_compare hcompare) hapart
  | gt =>
      rw [hcompare] at hle
      cases hle

end SocketRanking.Topology
