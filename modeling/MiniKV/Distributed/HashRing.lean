/-
Module: MiniKV.Distributed.HashRing
Purpose: `ConsistentHashRing` of `distributed/consistent_hash.py`: the `ring` dict from point
  hash to node id, `sorted_keys` (carried with its defining equation), `add_node` and
  `remove_node` over the `virtual_nodes` labels `"<id>:<i>"`, `bisect_right` as the binary
  search it is, `get_node` and the clockwise walk of `get_nodes_for_replication`. `_hash`
  (an MD5 digest read as an integer) is a parameter `hash`. Over it sits the abstract reading
  of a lookup: the owner of the first point clockwise of the key's hash (`ClockwisePoint`),
  which `getNode_clockwise` shows `get_node` computes.
Trusted boundary: none
Main exports: ConsistentHashRing, bisectRight, bisectRight_spec, ClockwisePoint,
  ClockwisePoint.unique, getNode_clockwise
-/
import MiniKV.Core.PyDict
import Mathlib.Data.List.Sort
import Mathlib.Data.List.Pairwise

namespace MiniKV

/-! ### `bisect_right` -/

/-- `bisect.bisect_right(a, x)`: the binary search over `[lo, hi)` starting from `[0, len(a))`. -/
def bisectRight (a : List Nat) (x : Nat) : Nat :=
  go 0 a.length
where
  go (lo hi : Nat) : Nat :=
    if lo < hi then
      if x < a.getD ((lo + hi) / 2) 0 then go lo ((lo + hi) / 2) else go ((lo + hi) / 2 + 1) hi
    else lo
  termination_by hi - lo
  decreasing_by all_goals omega

/-- The position `bisect_right` must return in a sorted list: everything before it is `≤ x`,
everything from it on is `> x`. -/
structure BisectRightSpec (a : List Nat) (x i : Nat) : Prop where
  le_length : i ≤ a.length
  le_of_lt : ∀ j (hj : j < i), a[j] ≤ x
  lt_of_ge : ∀ j (hj : j < a.length), i ≤ j → x < a[j]

theorem bisectRight_go_spec {a : List Nat} (hs : a.Sorted (· ≤ ·)) (x : Nat) (lo hi : Nat)
    (hhi : hi ≤ a.length) (hle : lo ≤ hi) (hlo : ∀ j (hj : j < lo), a[j] ≤ x)
    (hup : ∀ j (hj : j < a.length), hi ≤ j → x < a[j]) :
    BisectRightSpec a x (bisectRight.go a x lo hi) := by
  induction lo, hi using bisectRight.go.induct a x with
  | case1 lo hi hlt hx ih =>
    rw [bisectRight.go, if_pos hlt, if_pos hx]
    have hm : (lo + hi) / 2 < a.length := by omega
    rw [List.getD_eq_getElem?_getD, List.getElem?_eq_getElem hm, Option.getD_some] at hx
    exact ih (by omega) (by omega) hlo fun j hj hmj =>
      lt_of_lt_of_le hx (hs.rel_get_of_le (show (⟨_, hm⟩ : Fin a.length) ≤ ⟨j, hj⟩ from hmj))
  | case2 lo hi hlt hx ih =>
    rw [bisectRight.go, if_pos hlt, if_neg hx]
    have hm : (lo + hi) / 2 < a.length := by omega
    rw [List.getD_eq_getElem?_getD, List.getElem?_eq_getElem hm, Option.getD_some] at hx
    refine ih hhi (by omega) (fun j hj => ?_) hup
    exact le_trans (hs.rel_get_of_le (show (⟨j, by omega⟩ : Fin a.length) ≤ ⟨_, hm⟩ by simp; omega))
      (not_lt.1 hx)
  | case3 lo hi hlt =>
    rw [bisectRight.go, if_neg hlt]
    exact ⟨by omega, hlo, fun j hj hij => hup j hj (by omega)⟩

theorem bisectRight_spec {a : List Nat} (hs : a.Sorted (· ≤ ·)) (x : Nat) :
    BisectRightSpec a x (bisectRight a x) :=
  bisectRight_go_spec hs x 0 a.length le_rfl (Nat.zero_le _) (fun _ h => absurd h (by omega))
    (fun _ hj hle => absurd hj (by omega))

/-! ### The ring -/

/-- `sorted(...)` on the ring's integer points. -/
def sortKeys (ks : List Nat) : List Nat := ks.mergeSort (fun a b => decide (a ≤ b))

theorem sortKeys_sorted (ks : List Nat) : (sortKeys ks).Sorted (· ≤ ·) := by
  simpa [sortKeys] using @List.sorted_mergeSort Nat (fun a b => decide (a ≤ b))
    (fun a b c h₁ h₂ => by simp at *; omega) (fun a b => by simp; omega) ks

@[simp] theorem mem_sortKeys {ks : List Nat} {p : Nat} : p ∈ sortKeys ks ↔ p ∈ ks :=
  (List.mergeSort_perm _ _).mem_iff

theorem length_sortKeys (ks : List Nat) : (sortKeys ks).length = ks.length :=
  (List.mergeSort_perm _ _).length_eq

/-- A `ConsistentHashRing`: `virtual_nodes`, the `ring` dict from point hash to node id, and
`sorted_keys`, which every method recomputes as the sorted keys of `ring`. -/
structure ConsistentHashRing where
  virtualNodes : Nat
  ring : PyDict Nat Nat
  sortedKeys : List Nat
  sortedKeys_eq : sortedKeys = sortKeys ring.keys

namespace ConsistentHashRing

/-- The virtual-node label `f"{node_id}:{i}"`. -/
def label (nodeId i : Nat) : String := toString nodeId ++ ":" ++ toString i

/-- Install a new `ring` dict and recompute `sorted_keys`. -/
def withRing (r : ConsistentHashRing) (ring : PyDict Nat Nat) : ConsistentHashRing :=
  ⟨r.virtualNodes, ring, sortKeys ring.keys, rfl⟩

variable (hash : String → Nat)

/-- `add_node(node_id)`: `ring[_hash("<id>:<i>")] = node_id` for each virtual index. -/
def addNode (r : ConsistentHashRing) (nodeId : Nat) : ConsistentHashRing :=
  r.withRing ((List.range r.virtualNodes).foldl
    (fun d i => d.insert (hash (label nodeId i)) nodeId) r.ring)

/-- `remove_node(node_id)`: delete each of the node's virtual points that is in `ring`. -/
def removeNode (r : ConsistentHashRing) (nodeId : Nat) : ConsistentHashRing :=
  r.withRing ((List.range r.virtualNodes).foldl
    (fun d i => if d.contains (hash (label nodeId i)) then d.erase (hash (label nodeId i)) else d)
    r.ring)

/-- `ConsistentHashRing(nodes, virtual_nodes)`. -/
def init (nodes : List Nat) (virtualNodes : Nat) : ConsistentHashRing :=
  nodes.foldl (addNode hash) ⟨virtualNodes, PyDict.empty, [], by simp [sortKeys, PyDict.keys, PyDict.empty]⟩

/-- `self.ring[point]`, raising `KeyError` for a missing point. -/
def lookup (r : ConsistentHashRing) (point : Nat) : Except String Nat :=
  match r.ring.get? point with
  | some nodeId => .ok nodeId
  | none => .error (toString point)

/-- `get_node(key)`: the point at `bisect_right` of the key's hash, wrapping to index 0 past the
end; `ValueError("No nodes in ring")` on an empty ring. -/
def getNode (r : ConsistentHashRing) (key : String) : Except String Nat :=
  if r.ring.size = 0 then .error "No nodes in ring"
  else
    let idx := bisectRight r.sortedKeys (hash key)
    r.lookup (r.sortedKeys.getD (if idx = r.sortedKeys.length then 0 else idx) 0)

/-- `if node_id not in seen_nodes: nodes.append(node_id)` (`seen_nodes` is the set of `nodes`). -/
def gather (nodes : List Nat) (nodeId : Nat) : List Nat :=
  if nodeId ∈ nodes then nodes else nodes ++ [nodeId]

/-- The loop of `get_nodes_for_replication` over the positions left to visit, with the nodes
gathered so far; it stops once `len(nodes) == n`. -/
def replicaWalk (r : ConsistentHashRing) (n : Nat) : List Nat → List Nat → Except String (List Nat)
  | [], nodes => .ok nodes
  | pos :: rest, nodes => do
    let nodeId ← r.lookup (r.sortedKeys.getD pos 0)
    let nodes := gather nodes nodeId
    if nodes.length = n then .ok nodes else replicaWalk r n rest nodes

/-- `get_nodes_for_replication(key, n)`: walk clockwise from `bisect_right` of the key's hash,
visiting positions `(idx + i) % len(sorted_keys)`. -/
def getNodesForReplication (r : ConsistentHashRing) (key : String) (n : Nat) :
    Except String (List Nat) :=
  if r.ring.size = 0 then .ok []
  else
    let idx := bisectRight r.sortedKeys (hash key)
    replicaWalk r n ((List.range r.sortedKeys.length).map (fun i => (idx + i) % r.sortedKeys.length)) []

/-- The loop of `get_key_distribution` over the keys left, with `distribution` so far:
`distribution[node] = distribution.get(node, 0) + 1`, where a `ValueError` of `get_node` (an
empty ring) skips the key and any other error propagates. -/
def countKeys (r : ConsistentHashRing) (distribution : PyDict Nat Nat) :
    List String → Except String (PyDict Nat Nat)
  | [] => .ok distribution
  | key :: keys =>
    match r.getNode hash key with
    | .ok node => countKeys r (distribution.insert node ((distribution.get? node).getD 0 + 1)) keys
    | .error "No nodes in ring" => countKeys r distribution keys
    | .error e => .error e

/-- `get_key_distribution(sample_keys)`. -/
def getKeyDistribution (r : ConsistentHashRing) (sampleKeys : List String) :
    Except String (PyDict Nat Nat) :=
  r.countKeys hash PyDict.empty sampleKeys

end ConsistentHashRing

/-! ### Lookups go clockwise -/

/-- `p` is the first point of `points` clockwise from `h`: the least point above `h`, or the
least point of all when none is above `h` (the wrap past the top of the ring). -/
def ClockwisePoint (points : List Nat) (h p : Nat) : Prop :=
  p ∈ points ∧
    ((h < p ∧ ∀ q ∈ points, h < q → p ≤ q) ∨ ((∀ q ∈ points, q ≤ h) ∧ ∀ q ∈ points, p ≤ q))

theorem ClockwisePoint.unique {points : List Nat} {h p p' : Nat} (hp : ClockwisePoint points h p)
    (hp' : ClockwisePoint points h p') : p = p' := by
  obtain ⟨hm, ⟨hlt, hmin⟩ | ⟨hall, hmin⟩⟩ := hp <;> obtain ⟨hm', ⟨hlt', hmin'⟩ | ⟨hall', hmin'⟩⟩ := hp'
  · exact le_antisymm (hmin p' hm' hlt') (hmin' p hm hlt)
  · exact absurd (hall' p hm) (not_le.2 hlt)
  · exact absurd (hall p' hm') (not_le.2 hlt')
  · exact le_antisymm (hmin p' hm') (hmin' p hm)

/-- The first point clockwise in a set stays first in any subset that still holds it. -/
theorem ClockwisePoint.of_subset {points points' : List Nat} {h p : Nat}
    (hsub : ∀ q ∈ points', q ∈ points) (hp : p ∈ points') (hcw : ClockwisePoint points h p) :
    ClockwisePoint points' h p := by
  obtain ⟨-, ⟨hlt, hmin⟩ | ⟨hall, hmin⟩⟩ := hcw
  · exact ⟨hp, .inl ⟨hlt, fun q hq => hmin q (hsub q hq)⟩⟩
  · exact ⟨hp, .inr ⟨fun q hq => hall q (hsub q hq), fun q hq => hmin q (hsub q hq)⟩⟩

namespace ConsistentHashRing

variable (hash : String → Nat)

theorem lookup_of_get? {r : ConsistentHashRing} {p o : Nat} (h : r.ring.get? p = some o) :
    r.lookup p = .ok o := by
  simp [lookup, h]

/-- `get_node` reads the owner of the first point clockwise from the key's hash. -/
theorem getNode_clockwise (r : ConsistentHashRing) (key : String) (hne : r.ring.size ≠ 0) :
    ∃ p, ClockwisePoint r.ring.keys (hash key) p ∧ r.getNode hash key = r.lookup p := by
  have hs := r.sortedKeys_eq ▸ sortKeys_sorted r.ring.keys
  have hmem : ∀ q, q ∈ r.sortedKeys ↔ q ∈ r.ring.keys := fun q => by rw [r.sortedKeys_eq, mem_sortKeys]
  have hlen : 0 < r.sortedKeys.length := by
    rw [r.sortedKeys_eq, length_sortKeys]; simpa [PyDict.size, PyDict.keys, Nat.pos_iff_ne_zero] using hne
  obtain ⟨hle, hbelow, habove⟩ := bisectRight_spec hs (hash key)
  simp only [getNode, if_neg hne]
  by_cases hend : bisectRight r.sortedKeys (hash key) = r.sortedKeys.length
  · refine ⟨r.sortedKeys[0], ⟨(hmem _).1 (List.getElem_mem _), .inr ⟨fun q hq => ?_, fun q hq => ?_⟩⟩,
      by simp [hend, hlen]⟩
    · obtain ⟨j, hj, rfl⟩ := List.mem_iff_getElem.1 ((hmem q).2 hq)
      exact hbelow j (by omega)
    · obtain ⟨j, hj, rfl⟩ := List.mem_iff_getElem.1 ((hmem q).2 hq)
      exact hs.rel_get_of_le (show (⟨0, hlen⟩ : Fin r.sortedKeys.length) ≤ ⟨j, hj⟩ from Nat.zero_le _)
  · have hidx : bisectRight r.sortedKeys (hash key) < r.sortedKeys.length := by omega
    refine ⟨r.sortedKeys[_], ⟨(hmem _).1 (List.getElem_mem hidx),
      .inl ⟨habove _ hidx le_rfl, fun q hq hlt => ?_⟩⟩, by simp [hend, hidx]⟩
    obtain ⟨j, hj, rfl⟩ := List.mem_iff_getElem.1 ((hmem q).2 hq)
    by_cases hji : j < bisectRight r.sortedKeys (hash key)
    · exact absurd (hbelow j hji) (not_le.2 hlt)
    · exact hs.rel_get_of_le (show (⟨_, hidx⟩ : Fin r.sortedKeys.length) ≤ ⟨j, hj⟩ by simp; omega)

end ConsistentHashRing

/-! ### What `add_node` and `remove_node` do to the ring -/

namespace ConsistentHashRing

variable (hash : String → Nat)

theorem get?_foldl_insert {β : Type} (f : Nat → Nat) (v : β) (is : List Nat) (d : PyDict Nat β)
    (p : Nat) : (is.foldl (fun d i => d.insert (f i) v) d).get? p =
      if ∃ i ∈ is, f i = p then some v else d.get? p := by
  induction is generalizing d with
  | nil => simp
  | cons i is ih =>
    rw [List.foldl_cons, ih]
    by_cases h : f i = p <;> by_cases h' : ∃ i ∈ is, f i = p <;> simp [h, h']

theorem get?_foldl_erase {β : Type} (f : Nat → Nat) (is : List Nat) (d : PyDict Nat β) (p : Nat) :
    (is.foldl (fun d i => if d.contains (f i) then d.erase (f i) else d) d).get? p =
      if ∃ i ∈ is, f i = p then none else d.get? p := by
  induction is generalizing d with
  | nil => simp
  | cons i is ih =>
    rw [List.foldl_cons, ih]
    have step : (if d.contains (f i) then d.erase (f i) else d).get? p =
        if f i = p then none else d.get? p := by
      by_cases hc : d.contains (f i) = true
      · simp [hc]
      · rw [if_neg hc]
        by_cases h : f i = p
        · subst h; simpa [PyDict.contains_iff] using hc
        · simp [h]
    rw [step]
    by_cases h : f i = p <;> by_cases h' : ∃ i ∈ is, f i = p <;> simp [h, h']

@[simp] theorem addNode_virtualNodes (r : ConsistentHashRing) (m : Nat) :
    (r.addNode hash m).virtualNodes = r.virtualNodes := rfl

@[simp] theorem removeNode_virtualNodes (r : ConsistentHashRing) (m : Nat) :
    (r.removeNode hash m).virtualNodes = r.virtualNodes := rfl

/-- `add_node(m)` points every label of `m` at `m` and leaves the other points alone. -/
@[simp] theorem addNode_get? (r : ConsistentHashRing) (m p : Nat) :
    (r.addNode hash m).ring.get? p =
      if ∃ i < r.virtualNodes, hash (label m i) = p then some m else r.ring.get? p := by
  simp [addNode, withRing, get?_foldl_insert]

/-- `remove_node(m)` deletes every label point of `m`, whoever owns it, and nothing else. -/
@[simp] theorem removeNode_get? (r : ConsistentHashRing) (m p : Nat) :
    (r.removeNode hash m).ring.get? p =
      if ∃ i < r.virtualNodes, hash (label m i) = p then none else r.ring.get? p := by
  simp only [removeNode, withRing]
  rw [get?_foldl_erase]
  simp [List.mem_range]

/-- The owner at a point of the ring, read through `lookup`. -/
theorem exists_get?_of_size {r : ConsistentHashRing} {p : Nat} (hp : p ∈ r.ring.keys) :
    ∃ o, r.ring.get? p = some o :=
  Option.ne_none_iff_exists'.1 (PyDict.mem_keys_iff.1 hp)

/-- A lookup on a ring reads the owner of its first clockwise point. -/
theorem getNode_eq_owner {r : ConsistentHashRing} (key : String) (hne : r.ring.size ≠ 0) :
    ∃ p o, ClockwisePoint r.ring.keys (hash key) p ∧ r.ring.get? p = some o ∧
      r.getNode hash key = .ok o := by
  obtain ⟨p, hcw, hget⟩ := getNode_clockwise hash r key hne
  obtain ⟨o, ho⟩ := exists_get?_of_size hcw.1
  exact ⟨p, o, hcw, ho, hget.trans (lookup_of_get? ho)⟩

/-- On an empty ring `get_node` fails with `No nodes in ring`. -/
theorem getNode_of_size_eq_zero {r : ConsistentHashRing} (key : String) (h : r.ring.size = 0) :
    r.getNode hash key = .error "No nodes in ring" := by
  simp [getNode, h]

/-- After `add_node(m)` a key keeps its owner or moves to `m`, on every ring. -/
theorem getNode_addNode (r : ConsistentHashRing) (m : Nat) (key : String) :
    (r.addNode hash m).getNode hash key = r.getNode hash key ∨
      (r.addNode hash m).getNode hash key = .ok m := by
  have hsub : ∀ q ∈ r.ring.keys, q ∈ (r.addNode hash m).ring.keys := fun q hq => by
    rw [PyDict.mem_keys_iff] at hq ⊢
    rw [addNode_get?]; split_ifs <;> simp [hq]
  by_cases h' : (r.addNode hash m).ring.size = 0
  · have h : r.ring.size = 0 := PyDict.size_eq_zero_iff.2 fun q => by
      by_contra hq
      exact absurd (PyDict.size_eq_zero_iff.1 h' q) (PyDict.mem_keys_iff.1 (hsub q (PyDict.mem_keys_iff.2 hq)))
    exact .inl (by rw [getNode_of_size_eq_zero hash key h', getNode_of_size_eq_zero hash key h])
  obtain ⟨p, o, hcw, ho, hget⟩ := getNode_eq_owner hash key h'
  rw [hget]
  rw [addNode_get?] at ho
  split_ifs at ho
  · exact .inr (by rw [Option.some.inj ho])
  · have hp : p ∈ r.ring.keys := PyDict.mem_keys_iff.2 (by simp [ho])
    have hne : r.ring.size ≠ 0 := fun h0 => by simp [PyDict.size_eq_zero_iff.1 h0 p] at ho
    obtain ⟨p₀, o₀, hcw₀, ho₀, hget₀⟩ := getNode_eq_owner hash key hne
    obtain rfl := (hcw.of_subset hsub hp).unique hcw₀
    exact .inl (by rw [hget₀, Option.some.inj (ho.symm.trans ho₀)])

/-- Every point of the ring is the hash of a label of its owner, and the owner is in `ids`. -/
def PointsLabelled (ids : List Nat) (r : ConsistentHashRing) : Prop :=
  ∀ p o, r.ring.get? p = some o → o ∈ ids ∧ ∃ i < r.virtualNodes, hash (label o i) = p

/-- The hashes of the labels `"<id>:<i>"`, for `id ∈ ids` and `i < V`, are pairwise distinct. -/
def LabelsDistinct (V : Nat) (ids : List Nat) : Prop :=
  ∀ a ∈ ids, ∀ b ∈ ids, ∀ i < V, ∀ j < V, hash (label a i) = hash (label b j) → a = b ∧ i = j

instance (V : Nat) (ids : List Nat) : Decidable (LabelsDistinct hash V ids) :=
  inferInstanceAs (Decidable (∀ a ∈ ids, ∀ b ∈ ids, ∀ i < V, ∀ j < V,
    hash (label a i) = hash (label b j) → a = b ∧ i = j))

/-- Distinct label hashes, read off one list: the hashes of every label of every node. -/
theorem labelsDistinct_of_nodup {V : Nat} {ids : List Nat}
    (h : (ids.flatMap fun a => (List.range V).map fun i => hash (label a i)).Nodup) :
    LabelsDistinct hash V ids := by
  intro a ha b hb i hi j hj hij
  obtain ⟨hin, hdis⟩ := List.nodup_flatMap.1 h
  by_cases hab : a = b
  · subst hab
    exact ⟨rfl, List.inj_on_of_nodup_map (hin a ha) (List.mem_range.2 hi) (List.mem_range.2 hj) hij⟩
  · have hsym : Symmetric (List.Disjoint on fun a => (List.range V).map fun i => hash (label a i)) :=
      fun _ _ hxy _ h₁ h₂ => hxy h₂ h₁
    exact absurd hij fun he => hdis.forall hsym ha hb hab
      (List.mem_map.2 ⟨i, List.mem_range.2 hi, rfl⟩) (List.mem_map.2 ⟨j, List.mem_range.2 hj, he.symm⟩)

theorem keys_removeNode_subset (r : ConsistentHashRing) (m : Nat) :
    ∀ q ∈ (r.removeNode hash m).ring.keys, q ∈ r.ring.keys := fun q hq => by
  rw [PyDict.mem_keys_iff] at hq ⊢
  rw [removeNode_get?] at hq
  split_ifs at hq
  · exact absurd rfl hq
  · exact hq

/-- `remove_node(m)` never leaves a key with `m`: all of `m`'s points are its labels. -/
theorem getNode_removeNode_ne {ids : List Nat} {r : ConsistentHashRing}
    (hinv : PointsLabelled hash ids r) (m : Nat) (key : String) :
    (r.removeNode hash m).getNode hash key ≠ .ok m := by
  intro h
  by_cases h' : (r.removeNode hash m).ring.size = 0
  · rw [getNode_of_size_eq_zero hash key h'] at h; cases h
  obtain ⟨p, o, -, ho, hget⟩ := getNode_eq_owner hash key h'
  obtain rfl : o = m := by rw [hget] at h; cases h; rfl
  rw [removeNode_get?] at ho
  split_ifs at ho with hlab
  exact hlab (hinv p o ho).2

/-- With distinct labels, `remove_node(m)` keeps the owner of every key not owned by `m`. -/
theorem getNode_removeNode_of_ne {ids : List Nat} {r : ConsistentHashRing}
    (hinv : PointsLabelled hash ids r) (hd : LabelsDistinct hash r.virtualNodes ids)
    {m : Nat} (hm : m ∈ ids) (key : String) (hne : r.getNode hash key ≠ .ok m) :
    (r.removeNode hash m).getNode hash key = r.getNode hash key := by
  by_cases h : r.ring.size = 0
  · have h' : (r.removeNode hash m).ring.size = 0 := PyDict.size_eq_zero_iff.2 fun q => by
      by_contra hq
      exact absurd (PyDict.size_eq_zero_iff.1 h q)
        (PyDict.mem_keys_iff.1 (keys_removeNode_subset hash r m q (PyDict.mem_keys_iff.2 hq)))
    rw [getNode_of_size_eq_zero hash key h', getNode_of_size_eq_zero hash key h]
  obtain ⟨p, o, hcw, ho, hget⟩ := getNode_eq_owner hash key h
  rw [hget] at hne ⊢
  have hkeep : ¬ ∃ i < r.virtualNodes, hash (label m i) = p := by
    rintro ⟨i, hi, rfl⟩
    obtain ⟨hoids, j, hj, hpj⟩ := hinv _ o ho
    exact hne (by rw [(hd o hoids m hm j hj i hi hpj).1])
  have ho' : (r.removeNode hash m).ring.get? p = some o := by rw [removeNode_get?, if_neg hkeep, ho]
  have hp' : p ∈ (r.removeNode hash m).ring.keys := PyDict.mem_keys_iff.2 (by simp [ho'])
  have hne' : (r.removeNode hash m).ring.size ≠ 0 := fun h0 => by
    simp [PyDict.size_eq_zero_iff.1 h0 p] at ho'
  obtain ⟨p', o', hcw', ho'', hget'⟩ := getNode_eq_owner hash key hne'
  obtain rfl := (hcw.of_subset (keys_removeNode_subset hash r m) hp').unique hcw'
  rw [hget', Option.some.inj (ho''.symm.trans ho')]

theorem pointsLabelled_addNode {ids : List Nat} {r : ConsistentHashRing}
    (hinv : PointsLabelled hash ids r) {m : Nat} (hm : m ∈ ids) :
    PointsLabelled hash ids (r.addNode hash m) := fun p o ho => by
  rw [addNode_get?] at ho
  split_ifs at ho with hlab
  · obtain rfl := Option.some.inj ho; exact ⟨hm, hlab⟩
  · exact hinv p o ho

theorem pointsLabelled_removeNode {ids : List Nat} {r : ConsistentHashRing}
    (hinv : PointsLabelled hash ids r) (m : Nat) :
    PointsLabelled hash ids (r.removeNode hash m) := fun p o ho => by
  rw [removeNode_get?] at ho
  split_ifs at ho
  exact hinv p o ho

end ConsistentHashRing

/-! ### Rings reachable by the constructor and the membership calls -/

/-- A membership call on a ring. -/
inductive RingOp where
  | addNode (nodeId : Nat)
  | removeNode (nodeId : Nat)

/-- The node a membership call names. -/
def RingOp.nodeId : RingOp → Nat
  | .addNode n => n
  | .removeNode n => n

/-- Run one membership call. -/
def RingOp.apply (hash : String → Nat) (r : ConsistentHashRing) : RingOp → ConsistentHashRing
  | .addNode n => r.addNode hash n
  | .removeNode n => r.removeNode hash n

/-- `ConsistentHashRing(nodes, virtual_nodes)` followed by the calls `ops`. -/
def buildRing (hash : String → Nat) (nodes : List Nat) (virtualNodes : Nat) (ops : List RingOp) :
    ConsistentHashRing :=
  ops.foldl (RingOp.apply hash) (ConsistentHashRing.init hash nodes virtualNodes)

namespace ConsistentHashRing

variable (hash : String → Nat)

theorem init_virtualNodes (nodes : List Nat) (V : Nat) : (init hash nodes V).virtualNodes = V := by
  suffices ∀ (r : ConsistentHashRing), (nodes.foldl (addNode hash) r).virtualNodes = r.virtualNodes from
    this _
  induction nodes with
  | nil => exact fun _ => rfl
  | cons n ns ih => exact fun r => ih _

theorem pointsLabelled_init {ids : List Nat} (nodes : List Nat) (V : Nat) (h : ∀ n ∈ nodes, n ∈ ids) :
    PointsLabelled hash ids (init hash nodes V) := by
  suffices ∀ (r : ConsistentHashRing), PointsLabelled hash ids r →
      PointsLabelled hash ids (nodes.foldl (addNode hash) r) from
    this _ fun p o ho => by simp at ho
  induction nodes with
  | nil => exact fun _ h => h
  | cons n ns ih =>
    exact fun r hr => ih (fun k hk => h k (List.mem_cons_of_mem _ hk)) _
      (pointsLabelled_addNode hash hr (h n (List.mem_cons_self _ _)))

end ConsistentHashRing

open ConsistentHashRing in
/-- A reachable ring: its virtual-node count is the constructor's, and each point is a label
hash of its owner, which is a node the history named. -/
theorem buildRing_invariant (hash : String → Nat) (nodes : List Nat) (V : Nat) (ops : List RingOp) :
    (buildRing hash nodes V ops).virtualNodes = V ∧
      PointsLabelled hash (nodes ++ ops.map RingOp.nodeId) (buildRing hash nodes V ops) := by
  suffices ∀ (r : ConsistentHashRing) (done : List RingOp),
      r.virtualNodes = V ∧ PointsLabelled hash (nodes ++ (done ++ ops).map RingOp.nodeId) r →
      (ops.foldl (RingOp.apply hash) r).virtualNodes = V ∧
        PointsLabelled hash (nodes ++ (done ++ ops).map RingOp.nodeId)
          (ops.foldl (RingOp.apply hash) r) from
    this _ [] ⟨init_virtualNodes hash nodes V,
      pointsLabelled_init hash nodes V fun n hn => List.mem_append_left _ hn⟩
  induction ops with
  | nil => exact fun _ _ h => h
  | cons op ops ih =>
    intro r done ⟨hv, hl⟩
    have := ih (op.apply hash r) (done ++ [op])
    simp only [List.append_assoc, List.singleton_append] at this
    refine this ⟨by cases op <;> simpa [RingOp.apply] using hv, ?_⟩
    cases op with
    | addNode n => exact pointsLabelled_addNode hash hl (by simp [RingOp.nodeId])
    | removeNode n => exact pointsLabelled_removeNode hash hl n

theorem ConsistentHashRing.PointsLabelled.mono {hash : String → Nat} {ids ids' : List Nat}
    {r : ConsistentHashRing} (hsub : ∀ x ∈ ids, x ∈ ids') (h : r.PointsLabelled hash ids) :
    r.PointsLabelled hash ids' := fun p o ho => ⟨hsub o (h p o ho).1, (h p o ho).2⟩

open ConsistentHashRing in
/-- Consistent hashing moves a key only to or from the node that joins or leaves. On a ring
reached by the constructor and membership calls, when the labels of every node named, `m`
included, hash apart: after `add_node(m)` each key keeps its owner or goes to `m`; after
`remove_node(m)` each key `m` did not own keeps its owner, and no key is answered with `m`. -/
theorem getNode_minimal_disruption (hash : String → Nat) (nodes : List Nat) (V : Nat)
    (ops : List RingOp) (m : Nat) (key : String)
    (hd : LabelsDistinct hash V (m :: (nodes ++ ops.map RingOp.nodeId))) :
    let r := buildRing hash nodes V ops
    ((r.addNode hash m).getNode hash key = r.getNode hash key ∨
        (r.addNode hash m).getNode hash key = .ok m) ∧
      (r.getNode hash key ≠ .ok m → (r.removeNode hash m).getNode hash key = r.getNode hash key) ∧
      (r.removeNode hash m).getNode hash key ≠ .ok m := by
  obtain ⟨hv, hl⟩ := buildRing_invariant hash nodes V ops
  have hl' : (buildRing hash nodes V ops).PointsLabelled hash
      (m :: (nodes ++ ops.map RingOp.nodeId)) := hl.mono fun x hx => List.mem_cons_of_mem _ hx
  exact ⟨getNode_addNode hash _ m key,
    getNode_removeNode_of_ne hash hl' (by rw [hv]; exact hd) (List.mem_cons_self _ _) key,
    getNode_removeNode_ne hash hl m key⟩

/-- A ring of node `1` with one virtual point, `22` joining or leaving, hashing by length. -/
theorem getNode_minimal_disruption_length_hash :
    ConsistentHashRing.LabelsDistinct String.length 1 (22 :: ([1] ++ ([] : List RingOp).map RingOp.nodeId)) ∧
      let r := buildRing String.length [1] 1 []
      ((r.addNode String.length 22).getNode String.length "k" = r.getNode String.length "k" ∨
          (r.addNode String.length 22).getNode String.length "k" = .ok 22) ∧
        (r.getNode String.length "k" ≠ .ok 22 →
          (r.removeNode String.length 22).getNode String.length "k" = r.getNode String.length "k") ∧
        (r.removeNode String.length 22).getNode String.length "k" ≠ .ok 22 :=
  ⟨by decide, getNode_minimal_disruption String.length [1] 1 [] 22 "k" (by decide)⟩

/-! ### Who owns points -/

namespace ConsistentHashRing

variable (hash : String → Nat)

/-- `n` owns at least one point of the ring. -/
def OwnsPoint (r : ConsistentHashRing) (n : Nat) : Prop := ∃ p, r.ring.get? p = some n

theorem lookup_eq_ok {r : ConsistentHashRing} {p o : Nat} :
    r.lookup p = .ok o ↔ r.ring.get? p = some o := by
  unfold lookup
  split <;> simp_all

/-- `get_node` answers an owner of a point. -/
theorem ownsPoint_of_getNode {r : ConsistentHashRing} {key : String} {n : Nat}
    (h : r.getNode hash key = .ok n) : r.OwnsPoint n := by
  unfold getNode at h
  split at h
  · cases h
  · exact ⟨_, lookup_eq_ok.1 h⟩

/-- Every node the replica walk gathers was already gathered or owns a point. -/
theorem mem_replicaWalk {r : ConsistentHashRing} {n : Nat} {ps nodes out : List Nat}
    (h : r.replicaWalk n ps nodes = .ok out) {x : Nat} (hx : x ∈ out) : x ∈ nodes ∨ r.OwnsPoint x := by
  induction ps generalizing nodes with
  | nil => cases h; exact .inl hx
  | cons pos rest ih =>
    simp only [replicaWalk] at h
    cases hl : r.lookup (r.sortedKeys.getD pos 0) with
    | error e => rw [hl] at h; cases h
    | ok nodeId =>
      have hown : r.OwnsPoint nodeId := ⟨_, lookup_eq_ok.1 hl⟩
      have hstep : ∀ y, y ∈ gather nodes nodeId → y ∈ nodes ∨ r.OwnsPoint y := fun y hy => by
        unfold gather at hy
        split at hy
        · exact .inl hy
        · rcases List.mem_append.1 hy with hy | hy
          · exact .inl hy
          · exact .inr (by rw [List.mem_singleton.1 hy]; exact hown)
      rw [hl] at h
      simp only [bind, Except.bind] at h
      split at h
      · cases h; exact hstep x hx
      · rcases ih h with hx' | hx'
        · exact hstep x hx'
        · exact .inr hx'

/-- Every node of `get_nodes_for_replication` owns a point. -/
theorem ownsPoint_of_getNodesForReplication {r : ConsistentHashRing} {key : String} {n : Nat}
    {l : List Nat} (h : r.getNodesForReplication hash key n = .ok l) {x : Nat} (hx : x ∈ l) :
    r.OwnsPoint x := by
  unfold getNodesForReplication at h
  split at h
  · cases h; simp at hx
  · simpa using mem_replicaWalk h hx

/-- With distinct labels, `add_node(m)` makes `m` an owner and keeps every other owner. -/
theorem ownsPoint_addNode {ids : List Nat} {r : ConsistentHashRing} (hl : r.PointsLabelled hash ids)
    (hd : LabelsDistinct hash r.virtualNodes ids) {m : Nat} (hm : m ∈ ids) (hV : 0 < r.virtualNodes)
    (x : Nat) : (r.addNode hash m).OwnsPoint x ↔ x = m ∨ r.OwnsPoint x := by
  constructor
  · rintro ⟨p, hp⟩
    rw [addNode_get?] at hp
    split_ifs at hp
    · exact .inl (Option.some.inj hp).symm
    · exact .inr ⟨p, hp⟩
  · rintro (rfl | ⟨p, hp⟩)
    · exact ⟨hash (label x 0), by rw [addNode_get?, if_pos ⟨0, hV, rfl⟩]⟩
    · by_cases hxm : x = m
      · exact ⟨hash (label x 0), by rw [addNode_get?, if_pos ⟨0, hV, by rw [hxm]⟩, hxm]⟩
      have hkeep : ¬ ∃ i < r.virtualNodes, hash (label m i) = p := by
        rintro ⟨i, hi, rfl⟩
        obtain ⟨hx, j, hj, hpj⟩ := hl _ x hp
        exact hxm (hd x hx m hm j hj i hi hpj).1
      exact ⟨p, by rw [addNode_get?, if_neg hkeep, hp]⟩

/-- With distinct labels, `remove_node(m)` takes away every point of `m` and no other owner's. -/
theorem ownsPoint_removeNode {ids : List Nat} {r : ConsistentHashRing} (hl : r.PointsLabelled hash ids)
    (hd : LabelsDistinct hash r.virtualNodes ids) {m : Nat} (hm : m ∈ ids) (x : Nat) :
    (r.removeNode hash m).OwnsPoint x ↔ x ≠ m ∧ r.OwnsPoint x := by
  constructor
  · rintro ⟨p, hp⟩
    rw [removeNode_get?] at hp
    split_ifs at hp with hlab
    refine ⟨fun hxm => hlab ?_, p, hp⟩
    obtain ⟨-, j, hj, hpj⟩ := hl p x hp
    exact ⟨j, hj, by rw [← hxm, hpj]⟩
  · rintro ⟨hxm, p, hp⟩
    have hkeep : ¬ ∃ i < r.virtualNodes, hash (label m i) = p := by
      rintro ⟨i, hi, rfl⟩
      obtain ⟨hx, j, hj, hpj⟩ := hl _ x hp
      exact hxm (hd x hx m hm j hj i hi hpj).1
    exact ⟨p, by rw [removeNode_get?, if_neg hkeep, hp]⟩

/-- With distinct labels and at least one virtual node, the owners of a freshly built ring are
exactly the nodes it was built over. -/
theorem ownsPoint_init {ids : List Nat} {V : Nat} (nodes : List Nat) (hsub : ∀ n ∈ nodes, n ∈ ids)
    (hd : LabelsDistinct hash V ids) (hV : 0 < V) (x : Nat) :
    (init hash nodes V).OwnsPoint x ↔ x ∈ nodes := by
  suffices ∀ (ns : List Nat) (r : ConsistentHashRing) (P : Nat → Prop), (∀ n ∈ ns, n ∈ ids) →
      r.virtualNodes = V → r.PointsLabelled hash ids → (∀ x, r.OwnsPoint x ↔ P x) →
      ∀ x, (ns.foldl (addNode hash) r).OwnsPoint x ↔ P x ∨ x ∈ ns by
    simpa using this nodes _ (fun _ => False) hsub rfl (fun p o ho => by simp at ho)
      (fun x => ⟨fun ⟨p, hp⟩ => by simp at hp, False.elim⟩) x
  intro ns
  induction ns with
  | nil => simp
  | cons n ns ih =>
    intro r P hns hv hl hP x
    have hn := hns n (List.mem_cons_self _ _)
    rw [List.foldl_cons, ih _ (fun y => y = n ∨ P y) (fun y hy => hns y (List.mem_cons_of_mem _ hy))
      (by simpa using hv) (pointsLabelled_addNode hash hl hn)
      (fun y => by rw [ownsPoint_addNode hash hl (hv ▸ hd) hn (hv ▸ hV), hP])]
    simp only [List.mem_cons]
    tauto

/-! ### The key distribution -/

/-- Assigning `v` to `k` replaces the value `k` had in the total of the values. -/
theorem total_setEntry (k v : Nat) (es : List (Nat × Nat)) :
    ((setEntry k v es).map Prod.snd).foldr (· + ·) 0 + (lookupEntry k es).getD 0 =
      (es.map Prod.snd).foldr (· + ·) 0 + v := by
  induction es with
  | nil => simp [setEntry, lookupEntry]
  | cons e es ih =>
    obtain ⟨k', v'⟩ := e
    by_cases hk : k' = k
    · simp only [setEntry, lookupEntry, hk, if_true, List.map_cons, List.foldr_cons, Option.getD_some]
      omega
    · simp only [setEntry, lookupEntry, hk, if_false, List.map_cons, List.foldr_cons]
      omega

/-- A key's lookup succeeds, or the ring is empty and it raises `ValueError`. -/
theorem getNode_ok_or_empty (r : ConsistentHashRing) (key : String) :
    (∃ o, r.getNode hash key = .ok o) ∨ (r.ring.size = 0 ∧ r.getNode hash key = .error "No nodes in ring") := by
  by_cases hne : r.ring.size = 0
  · exact .inr ⟨hne, getNode_of_size_eq_zero hash key hne⟩
  · obtain ⟨_, o, -, -, ho⟩ := getNode_eq_owner hash key hne
    exact .inl ⟨o, ho⟩

/-- The loop adds, to each node's count, the keys left that `get_node` sends to it; the nodes it
adds own a point, and the total grows by the keys that have a node. -/
theorem countKeys_spec (r : ConsistentHashRing) (keys : List String) (dist : PyDict Nat Nat) :
    ∃ d, r.countKeys hash dist keys = .ok d ∧
      (∀ n, (d.get? n).getD 0 =
        (dist.get? n).getD 0 + keys.countP fun k => (r.getNode hash k).toOption == some n) ∧
      (∀ n ∈ d.keys, n ∈ dist.keys ∨ r.OwnsPoint n) ∧
      d.values.foldr (· + ·) 0 =
        dist.values.foldr (· + ·) 0 + keys.countP fun k => (r.getNode hash k).toOption.isSome := by
  induction keys generalizing dist with
  | nil => exact ⟨dist, rfl, by simp, fun n hn => .inl hn, by simp⟩
  | cons key keys ih =>
    rcases getNode_ok_or_empty hash r key with ⟨o, ho⟩ | ⟨-, ho⟩
    · have hto : (r.getNode hash key).toOption = some o := by rw [ho]; rfl
      obtain ⟨d, hd, hcount, hkeys, hsum⟩ := ih (dist.insert o ((dist.get? o).getD 0 + 1))
      have hdist : (dist.insert o ((dist.get? o).getD 0 + 1)).values.foldr (· + ·) 0 + (dist.get? o).getD 0 =
          dist.values.foldr (· + ·) 0 + ((dist.get? o).getD 0 + 1) := total_setEntry _ _ dist.entries
      refine ⟨d, by simp only [countKeys, ho, hd], fun n => ?_, fun n hn => ?_, ?_⟩
      · rw [hcount n, PyDict.get?_insert, List.countP_cons, hto]
        by_cases hn : o = n
        · subst hn; simp; omega
        · simp [hn]
      · rcases hkeys n hn with h | h
        · rcases mem_keys_setEntry.1 h with rfl | h
          · exact .inr (ownsPoint_of_getNode hash ho)
          · exact .inl h
        · exact .inr h
      · rw [hsum, List.countP_cons, hto]
        simp only [Option.isSome_some, if_true]
        omega
    · have hto : (r.getNode hash key).toOption = none := by rw [ho]; rfl
      obtain ⟨d, hd, hcount, hkeys, hsum⟩ := ih dist
      refine ⟨d, by simp only [countKeys, ho, hd], fun n => ?_, hkeys, ?_⟩
      · rw [hcount n, List.countP_cons, hto]; rfl
      · rw [hsum, List.countP_cons, hto]; rfl

/-- `get_key_distribution` counts, for every node, the sample keys `get_node` sends to it; only
nodes that own a point appear, and the counts add up to the number of keys, or to nothing on an
empty ring. -/
theorem getKeyDistribution_counts (r : ConsistentHashRing) (sampleKeys : List String) :
    ∃ d, r.getKeyDistribution hash sampleKeys = .ok d ∧
      (∀ n, (d.get? n).getD 0 = sampleKeys.countP fun k => (r.getNode hash k).toOption == some n) ∧
      (∀ n ∈ d.keys, r.OwnsPoint n) ∧
      d.values.foldr (· + ·) 0 = if r.ring.size = 0 then 0 else sampleKeys.length := by
  obtain ⟨d, hd, hcount, hkeys, hsum⟩ := r.countKeys_spec hash sampleKeys PyDict.empty
  refine ⟨d, hd, fun n => by simpa using hcount n, fun n hn => (hkeys n hn).resolve_left (by simp [PyDict.keys, PyDict.empty]), ?_⟩
  rw [hsum, show (PyDict.empty : PyDict Nat Nat).values.foldr (· + ·) 0 = 0 from rfl, Nat.zero_add]
  split_ifs with hne
  · simp [List.countP_eq_zero, getNode_of_size_eq_zero hash _ hne, Except.toOption]
  · rw [List.countP_eq_length]
    intro k _
    obtain ⟨_, o, -, -, ho⟩ := getNode_eq_owner hash k hne
    simp [ho, Except.toOption]

end ConsistentHashRing

end MiniKV
