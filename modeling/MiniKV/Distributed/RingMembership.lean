/-
Module: MiniKV.Distributed.RingMembership
Purpose: Whether a ring's lookups depend on its membership alone. A history of constructor,
  `add_node` and `remove_node` calls leaves a member set (`members`). When the labels of the
  nodes it names hash apart, the ring holds exactly the label points of the members, each owned
  by its node (`RingOf`, kept by every call), so two histories with one member set and one
  `virtual_nodes` answer `get_node` and `get_nodes_for_replication` alike
  (`ring_lookups_depend_on_members`). The ring dict is keyed by the point hash alone, with no
  tie break: under a collision the later `add_node` takes the point, so the constructor's order
  picks the owner, and `virtual_nodes = 0` leaves every ring empty
  (`ring_lookups_depend_on_history`).
Trusted boundary: none
Main exports: RingOp.memberStep, members, ConsistentHashRing.RingOf, RingOf.run,
  ring_lookups_depend_on_members, ring_lookups_depend_on_history
-/
import MiniKV.Distributed.RingWalk
import Mathlib.Data.Finset.Basic

namespace MiniKV

/-- The member set after one call. -/
def RingOp.memberStep (s : Finset Nat) : RingOp → Finset Nat
  | .addNode n => insert n s
  | .removeNode n => s.erase n

/-- The nodes a history leaves in the ring: `ConsistentHashRing(nodes)` adds each of `nodes`,
then the calls `ops` add and remove. -/
def members (nodes : List Nat) (ops : List RingOp) : Finset Nat :=
  (nodes.map RingOp.addNode ++ ops).foldl RingOp.memberStep ∅

/-- The constructor is its `add_node` calls on the empty ring. -/
theorem buildRing_eq_foldl (hash : String → Nat) (nodes : List Nat) (V : Nat) (ops : List RingOp) :
    buildRing hash nodes V ops =
      (nodes.map RingOp.addNode ++ ops).foldl (RingOp.apply hash) (ConsistentHashRing.init hash [] V) := by
  rw [List.foldl_append, List.foldl_map]
  rfl

namespace ConsistentHashRing

variable (hash : String → Nat)

/-! ### Rings that hold exactly their members' points -/

/-- `r` holds exactly the label points of the nodes of `s`, each owned by its node. -/
def RingOf (V : Nat) (s : Finset Nat) (r : ConsistentHashRing) : Prop :=
  r.virtualNodes = V ∧ ∀ p m, r.ring.get? p = some m ↔ m ∈ s ∧ ∃ i < V, hash (label m i) = p

section Steps

variable {hash} {ids : List Nat} {V : Nat} (hd : LabelsDistinct hash V ids)
  {s : Finset Nat} {r : ConsistentHashRing} {m : Nat}
include hd

theorem RingOf.addNode (h : RingOf hash V s r) (hs : ∀ x ∈ s, x ∈ ids) (hm : m ∈ ids) :
    RingOf hash V (insert m s) (r.addNode hash m) := by
  refine ⟨h.1, fun p o => ?_⟩
  rw [addNode_get?, h.1, Finset.mem_insert]
  by_cases hp : ∃ i < V, hash (label m i) = p
  · rw [if_pos hp]
    refine ⟨fun ho => by cases ho; exact ⟨.inl rfl, hp⟩, fun ⟨ho, j, hj, hoj⟩ => ?_⟩
    obtain ⟨i, hi, hmi⟩ := hp
    have hoids : o ∈ ids := by rcases ho with rfl | ho; exacts [hm, hs o ho]
    rw [(hd m hm o hoids i hi j hj (hmi.trans hoj.symm)).1]
  · rw [if_neg hp, h.2 p o]
    refine ⟨fun ⟨ho, hl⟩ => ⟨.inr ho, hl⟩, fun ⟨ho, hl⟩ => ⟨?_, hl⟩⟩
    rcases ho with rfl | ho
    exacts [absurd hl hp, ho]

theorem RingOf.removeNode (h : RingOf hash V s r) (hs : ∀ x ∈ s, x ∈ ids) (hm : m ∈ ids) :
    RingOf hash V (s.erase m) (r.removeNode hash m) := by
  refine ⟨h.1, fun p o => ?_⟩
  rw [removeNode_get?, h.1, Finset.mem_erase]
  by_cases hp : ∃ i < V, hash (label m i) = p
  · rw [if_pos hp]
    refine ⟨(fun ho => nomatch ho), fun ⟨⟨hom, ho⟩, j, hj, hoj⟩ => ?_⟩
    obtain ⟨i, hi, hmi⟩ := hp
    exact absurd (hd o (hs o ho) m hm j hj i hi (hoj.trans hmi.symm)).1 hom
  · rw [if_neg hp, h.2 p o]
    exact ⟨fun ⟨ho, hl⟩ => ⟨⟨fun hom => hp (hom ▸ hl), ho⟩, hl⟩, fun ⟨⟨_, ho⟩, hl⟩ => ⟨ho, hl⟩⟩

/-- Any list of calls naming nodes of `ids` keeps a ring holding exactly its members' points. -/
theorem RingOf.run {ops : List RingOp} (hops : ∀ op ∈ ops, op.nodeId ∈ ids)
    (h : RingOf hash V s r) (hs : ∀ x ∈ s, x ∈ ids) :
    RingOf hash V (ops.foldl RingOp.memberStep s) (ops.foldl (RingOp.apply hash) r) := by
  induction ops generalizing s r with
  | nil => exact h
  | cons op ops ih =>
    have hn : op.nodeId ∈ ids := hops op (.head _)
    have hops' : ∀ o ∈ ops, o.nodeId ∈ ids := fun o ho => hops o (.tail _ ho)
    cases op with
    | addNode n =>
      exact ih hops' (h.addNode hd hs hn) fun x hx => by
        rcases Finset.mem_insert.1 hx with rfl | hx
        exacts [hn, hs x hx]
    | removeNode n =>
      exact ih hops' (h.removeNode hd hs hn) fun x hx => hs x (Finset.mem_of_mem_erase hx)

end Steps

theorem ringOf_init (V : Nat) : RingOf hash V ∅ (init hash [] V) :=
  ⟨rfl, fun _ m => ⟨(fun h => nomatch h), fun ⟨h, _⟩ => absurd h (Finset.not_mem_empty m)⟩⟩

/-- With distinct labels, a built ring holds exactly the points of the history's members. -/
theorem ringOf_buildRing {ids : List Nat} {V : Nat} (hd : LabelsDistinct hash V ids)
    {nodes : List Nat} {ops : List RingOp} (hsub : ∀ x ∈ nodes ++ ops.map RingOp.nodeId, x ∈ ids) :
    RingOf hash V (members nodes ops) (buildRing hash nodes V ops) := by
  rw [buildRing_eq_foldl, members]
  refine RingOf.run hd (fun op hop => hsub _ ?_) (ringOf_init hash V) (by simp)
  rcases List.mem_append.1 hop with hop | hop
  · obtain ⟨n, hn, rfl⟩ := List.mem_map.1 hop
    exact List.mem_append_left _ hn
  · exact List.mem_append_right _ (List.mem_map_of_mem _ hop)

theorem RingOf.get?_eq {V : Nat} {s : Finset Nat} {r r' : ConsistentHashRing}
    (h : RingOf hash V s r) (h' : RingOf hash V s r') : r.ring.get? = r'.ring.get? :=
  funext fun p => Option.ext fun o => (h.2 p o).trans (h'.2 p o).symm

/-! ### Lookups read only `get` -/

variable {hash}

theorem sortedKeys_eq_of_get? {r r' : ConsistentHashRing} (h : r.ring.get? = r'.ring.get?) :
    r.sortedKeys = r'.sortedKeys := by
  rw [r.sortedKeys_eq, r'.sortedKeys_eq]
  exact List.eq_of_perm_of_sorted (((List.mergeSort_perm _ _).trans
    (PyDict.keys_perm_of_get?_eq h)).trans (List.mergeSort_perm _ _).symm)
    (sortKeys_sorted _) (sortKeys_sorted _)

theorem getNode_congr {r r' : ConsistentHashRing} (h : r.ring.get? = r'.ring.get?) (key : String) :
    r.getNode hash key = r'.getNode hash key := by
  simp only [getNode, lookup, PyDict.size_eq_of_get?_eq h, sortedKeys_eq_of_get? h, h]

theorem getNodesForReplication_congr {r r' : ConsistentHashRing} (h : r.ring.get? = r'.ring.get?)
    (key : String) (n : Nat) :
    r.getNodesForReplication hash key n = r'.getNodesForReplication hash key n := by
  have hw : r.ownersFrom hash key = r'.ownersFrom hash key := by
    rw [ownersFrom, ownersFrom, clockwiseFrom, clockwiseFrom, ← r.sortedKeys_eq,
      ← r'.sortedKeys_eq, sortedKeys_eq_of_get? h, h]
  rw [getNodesForReplication_eq, getNodesForReplication_eq, hw]

/-- On a ring of one point every key goes to that point's owner. -/
theorem getNode_of_keys_eq_singleton {r : ConsistentHashRing} {p o : Nat} (hk : r.ring.keys = [p])
    (ho : r.ring.get? p = some o) (key : String) : r.getNode hash key = .ok o := by
  have hne : r.ring.size ≠ 0 := fun h0 => by simp [PyDict.size_eq_zero_iff.1 h0 p] at ho
  obtain ⟨p', o', hcw, ho', hget⟩ := getNode_eq_owner hash key hne
  obtain rfl : p' = p := List.mem_singleton.1 (hk ▸ hcw.1)
  rw [hget, Option.some.inj (ho'.symm.trans ho)]

end ConsistentHashRing

open ConsistentHashRing in
/-- Two histories with the same member set and the same `virtual_nodes` answer every lookup
alike, for every key and every `n`, when the labels of all the nodes they name hash apart. -/
theorem ring_lookups_depend_on_members (hash : String → Nat) (V : Nat) (nodes nodes' : List Nat)
    (ops ops' : List RingOp)
    (hd : LabelsDistinct hash V (nodes ++ ops.map RingOp.nodeId ++ (nodes' ++ ops'.map RingOp.nodeId)))
    (hm : members nodes ops = members nodes' ops') (key : String) (n : Nat) :
    (buildRing hash nodes V ops).getNode hash key = (buildRing hash nodes' V ops').getNode hash key ∧
      (buildRing hash nodes V ops).getNodesForReplication hash key n =
        (buildRing hash nodes' V ops').getNodesForReplication hash key n := by
  have h := ringOf_buildRing hash hd fun x hx => List.mem_append_left _ hx
  have h' := ringOf_buildRing hash hd fun x hx => List.mem_append_right _ hx
  rw [hm] at h
  exact ⟨getNode_congr (h.get?_eq hash h') key, getNodesForReplication_congr (h.get?_eq hash h') key n⟩

open ConsistentHashRing in
/-- Nodes `1` and `2` from the constructor, or node `2` first, then `3` and `1` added and `3`
removed, hashing by the first character. -/
theorem ring_lookups_depend_on_members_other_order :
    LabelsDistinct (fun s => s.front.toNat) 1 ([1, 2] ++ ([] : List RingOp).map RingOp.nodeId ++
        ([2] ++ [RingOp.addNode 3, .addNode 1, .removeNode 3].map RingOp.nodeId)) ∧
      members [1, 2] [] = members [2] [.addNode 3, .addNode 1, .removeNode 3] ∧
      (buildRing (fun s => s.front.toNat) [1, 2] 1 []).getNode (fun s => s.front.toNat) "k" =
        (buildRing (fun s => s.front.toNat) [2] 1 [.addNode 3, .addNode 1, .removeNode 3]).getNode
          (fun s => s.front.toNat) "k" ∧
      (buildRing (fun s => s.front.toNat) [1, 2] 1 []).getNodesForReplication
          (fun s => s.front.toNat) "k" 2 =
        (buildRing (fun s => s.front.toNat) [2] 1 [.addNode 3, .addNode 1, .removeNode 3]).getNodesForReplication
          (fun s => s.front.toNat) "k" 2 :=
  ⟨by decide, by decide, ring_lookups_depend_on_members _ 1 [1, 2] [2] []
    [.addNode 3, .addNode 1, .removeNode 3] (by decide) (by decide) "k" 2⟩

open ConsistentHashRing in
/-- The member set alone does not fix `get_node`. Under a hash sending every label to `0`, the
constructor over `[1, 2]` and over `[2, 1]` gives the shared point to the node added last; and
with `virtual_nodes = 0` node `1` has no point. -/
theorem ring_lookups_depend_on_history :
    members [1, 2] [] = members [2, 1] [] ∧
      (buildRing (fun _ => 0) [1, 2] 1 []).getNode (fun _ => 0) "k" = .ok 2 ∧
      (buildRing (fun _ => 0) [2, 1] 1 []).getNode (fun _ => 0) "k" = .ok 1 ∧
      (buildRing (fun _ => 0) [1] 0 []).getNode (fun _ => 0) "k" = .error "No nodes in ring" ∧
      (buildRing (fun _ => 0) [1] 1 []).getNode (fun _ => 0) "k" = .ok 1 :=
  ⟨by decide, getNode_of_keys_eq_singleton (by rfl) (by rfl) "k",
    getNode_of_keys_eq_singleton (by rfl) (by rfl) "k", getNode_of_size_eq_zero _ "k" rfl,
    getNode_of_keys_eq_singleton (by rfl) (by rfl) "k"⟩

end MiniKV
