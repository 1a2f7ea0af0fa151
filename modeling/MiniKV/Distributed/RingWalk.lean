/-
Module: MiniKV.Distributed.RingWalk
Purpose: What `get_nodes_for_replication` returns, and where `get_node` looks. Abstractly, the
  points met walking clockwise from a key are the points above its hash in increasing order,
  then, past the top of the ring, the others from the smallest (`clockwiseFrom`), and a replica
  list is the owners met, each at its first point (`firstOccurrences`). The loop of the source
  refines this reading (`replicaWalk_eq`): positions `(idx + i) % len` from `bisect_right`
  are `sorted_keys` rotated to the first point above the key. So the list has distinct nodes,
  starts with `get_node(key)`, and has `min(n, d)` of them for `n ≥ 1`, where `d` counts the
  owners; for `n = 0` the length check after the append never fires and the walk returns all
  `d` owners (`getNodesForReplication_walk`). The lookup is "first point above the key's
  hash", as `bisect_right` is, not "at or above": a key that lands on a point, such as the
  label `"1:0"`, is answered by the next point's owner (`getNode_skips_point_of_key`).
Trusted boundary: none
Main exports: firstOccurrences, clockwiseFrom, replicaWalk_eq, getNodesForReplication_walk,
  ClockwisePointGe, mem_ownersFrom_iff, getNode_skips_point_of_key
-/
import MiniKV.Distributed.HashRing
import Mathlib.Data.List.Rotate
import Mathlib.Data.List.Dedup

namespace MiniKV

/-! ### First occurrences -/

section FirstOccurrences

variable {α : Type} [DecidableEq α]

/-- The elements of a list at their first occurrence, in order. -/
def firstOccurrences : List α → List α
  | [] => []
  | a :: l => a :: (firstOccurrences l).erase a

@[simp] theorem firstOccurrences_nil : firstOccurrences ([] : List α) = [] := rfl

theorem firstOccurrences_cons (a : α) (l : List α) :
    firstOccurrences (a :: l) = a :: (firstOccurrences l).erase a := rfl

theorem nodup_firstOccurrences : ∀ l : List α, (firstOccurrences l).Nodup
  | [] => List.nodup_nil
  | a :: l => List.nodup_cons.2
      ⟨(nodup_firstOccurrences l).not_mem_erase, (nodup_firstOccurrences l).erase a⟩

@[simp] theorem mem_firstOccurrences {x : α} : ∀ {l : List α}, x ∈ firstOccurrences l ↔ x ∈ l
  | [] => Iff.rfl
  | a :: l => by
    rw [firstOccurrences_cons, List.mem_cons, (nodup_firstOccurrences l).mem_erase_iff,
      mem_firstOccurrences, List.mem_cons]
    by_cases h : x = a <;> simp [h]

/-- A walk meets as many distinct elements as it holds. -/
theorem length_firstOccurrences (l : List α) : (firstOccurrences l).length = l.dedup.length :=
  ((List.perm_ext_iff_of_nodup (nodup_firstOccurrences l) (List.nodup_dedup l)).2
    fun x => by simp).length_eq

end FirstOccurrences

/-! ### The clockwise order of the points -/

/-- The points of a ring in the order a walk clockwise from hash `h` meets them: those above `h`
from the smallest up, then, past the top of the ring, the others from the smallest. -/
def clockwiseFrom (h : Nat) (points : List Nat) : List Nat :=
  (sortKeys points).filter (h < ·) ++ (sortKeys points).filter (· ≤ h)

theorem clockwiseFrom_perm (h : Nat) (points : List Nat) : (clockwiseFrom h points).Perm points := by
  have hle : (sortKeys points).filter (· ≤ h) = (sortKeys points).filter fun x => !decide (h < x) :=
    List.filter_congr fun x _ => by simp only [← decide_not, Nat.not_lt]
  rw [clockwiseFrom, hle]
  exact (List.filter_append_perm _ _).trans (List.mergeSort_perm _ _)

theorem BisectRightSpec.le_of_mem_take {a : List Nat} {x i : Nat} (h : BisectRightSpec a x i)
    {y : Nat} (hy : y ∈ a.take i) : y ≤ x := by
  obtain ⟨j, hj, rfl⟩ := List.mem_iff_getElem.1 hy
  rw [List.getElem_take]
  exact h.le_of_lt j (by rw [List.length_take] at hj; omega)

theorem BisectRightSpec.lt_of_mem_drop {a : List Nat} {x i : Nat} (h : BisectRightSpec a x i)
    {y : Nat} (hy : y ∈ a.drop i) : x < y := by
  obtain ⟨j, hj, rfl⟩ := List.mem_iff_getElem.1 hy
  rw [List.getElem_drop]
  exact h.lt_of_ge _ _ (by omega)

/-- Rotating a sorted list to `bisect_right` of `x` puts the points above `x` first. -/
theorem rotate_bisectRight {l : List Nat} (hs : l.Sorted (· ≤ ·)) (x : Nat) :
    l.rotate (bisectRight l x) = l.filter (x < ·) ++ l.filter (· ≤ x) := by
  have h := bisectRight_spec hs x
  have hp : (l.take (bisectRight l x)).filter (x < ·) = [] :=
    List.filter_eq_nil_iff.2 fun a ha => by simpa using h.le_of_mem_take ha
  have hq : (l.take (bisectRight l x)).filter (· ≤ x) = l.take (bisectRight l x) :=
    List.filter_eq_self.2 fun a ha => by simpa using h.le_of_mem_take ha
  have hp' : (l.drop (bisectRight l x)).filter (x < ·) = l.drop (bisectRight l x) :=
    List.filter_eq_self.2 fun a ha => by simpa using h.lt_of_mem_drop ha
  have hq' : (l.drop (bisectRight l x)).filter (· ≤ x) = [] :=
    List.filter_eq_nil_iff.2 fun a ha => by simpa using h.lt_of_mem_drop ha
  conv_rhs => rw [← List.take_append_drop (bisectRight l x) l]
  rw [List.rotate_eq_drop_append_take h.le_length, List.filter_append, List.filter_append, hp, hq,
    hp', hq', List.nil_append, List.append_nil]

/-- The positions `(idx + i) % len(l)` of the loop read `l` rotated to `idx`. -/
theorem map_getD_positions (l : List Nat) (idx : Nat) :
    ((List.range l.length).map fun i => (idx + i) % l.length).map (l.getD · 0) = l.rotate idx := by
  apply List.ext_getElem
  · simp
  · intro j hj₁ hj₂
    have hl : 0 < l.length := by simp at hj₂; omega
    simp [List.getElem_rotate, List.getD_eq_getElem?_getD, Nat.mod_lt _ hl, Nat.add_comm]

/-! ### The walk of `get_nodes_for_replication` -/

namespace ConsistentHashRing

theorem mem_gather_self (acc : List Nat) (a : Nat) : a ∈ gather acc a := by
  unfold gather; split <;> simp_all

theorem nodup_gather {acc : List Nat} (h : acc.Nodup) (a : Nat) : (gather acc a).Nodup := by
  unfold gather; split
  · exact h
  · exact h.append (List.nodup_singleton a) (by simpa)

theorem length_gather_le (acc : List Nat) (a : Nat) : (gather acc a).length ≤ acc.length + 1 := by
  unfold gather; split <;> simp

/-- Gathering `a`, then the first occurrences of the rest, gathers the first occurrences of
`a :: w`. -/
theorem gather_append_filter (acc : List Nat) (a : Nat) (w : List Nat) :
    acc ++ (firstOccurrences (a :: w)).filter (· ∉ acc) =
      gather acc a ++ (firstOccurrences w).filter (· ∉ gather acc a) := by
  rw [firstOccurrences_cons, (nodup_firstOccurrences w).erase_eq_filter, List.filter_cons,
    List.filter_filter]
  unfold gather
  by_cases ha : a ∈ acc
  · simp only [ha, not_true_eq_false, decide_False, if_false, if_true]
    exact congrArg _ (List.filter_congr fun x _ => by
      by_cases hx : x ∈ acc
      · simp [hx]
      · simp [hx, show x ≠ a from fun e => hx (e ▸ ha)])
  · simp only [ha, not_false_eq_true, decide_True, if_true, if_false, List.append_assoc,
      List.singleton_append]
    exact congrArg _ (congrArg _ (List.filter_congr fun x _ => by
      by_cases hx : x ∈ acc <;> by_cases hxa : x = a <;> simp [hx, hxa]))

/-- The loop gathers the first occurrences of the owners at the positions it visits, and stops
after `n` of them unless `n = 0`, where the check after the append never fires. -/
theorem replicaWalk_eq {r : ConsistentHashRing} {n : Nat} : ∀ {ps acc : List Nat},
    (∀ pos ∈ ps, (r.ring.get? (r.sortedKeys.getD pos 0)).isSome) → acc.Nodup →
    (n = 0 ∨ acc.length < n) →
    r.replicaWalk n ps acc = .ok ((if n = 0 then id else List.take n)
      (acc ++ (firstOccurrences (ps.filterMap fun pos => r.ring.get? (r.sortedKeys.getD pos 0))).filter
        (· ∉ acc)))
  | [], acc, _, _, hn => by
    rcases hn with rfl | hn
    · simp [replicaWalk]
    · simp [replicaWalk, Nat.ne_of_gt (lt_of_le_of_lt (Nat.zero_le _) hn), List.take_of_length_le hn.le]
  | pos :: ps, acc, hps, hacc, hn => by
    obtain ⟨o, ho⟩ := Option.isSome_iff_exists.1 (hps pos (.head _))
    simp only [replicaWalk, lookup_of_get? ho, bind, Except.bind, List.filterMap_cons, ho,
      gather_append_filter]
    split
    · rename_i hlen
      have hn0 : n ≠ 0 := fun h0 => by
        have := List.length_pos_of_mem (mem_gather_self acc o); omega
      simp only [hn0, if_false, List.take_left' hlen]
    · rename_i hlen
      refine replicaWalk_eq (fun p hp => hps p (.tail _ hp)) (nodup_gather hacc o) ?_
      rcases hn with hn | hn
      · exact .inl hn
      · have := length_gather_le acc o; exact .inr (by omega)

variable (hash : String → Nat)

/-- The owners met walking clockwise from a key, one per point, repeats included. -/
def ownersFrom (r : ConsistentHashRing) (key : String) : List Nat :=
  (clockwiseFrom (hash key) r.ring.keys).filterMap r.ring.get?

/-- The number of distinct nodes owning a point of the ring. -/
def ownerCount (r : ConsistentHashRing) : Nat := r.ring.values.dedup.length

theorem length_sortedKeys (r : ConsistentHashRing) : r.sortedKeys.length = r.ring.size := by
  rw [r.sortedKeys_eq, length_sortKeys]; simp [PyDict.keys, PyDict.size]

theorem isSome_get?_getD (r : ConsistentHashRing) {pos : Nat} (h : pos < r.sortedKeys.length) :
    (r.ring.get? (r.sortedKeys.getD pos 0)).isSome := by
  have hmem : r.sortedKeys.getD pos 0 ∈ r.ring.keys := by
    rw [List.getD_eq_getElem?_getD, List.getElem?_eq_getElem h, Option.getD_some, ← mem_sortKeys,
      ← r.sortedKeys_eq]
    exact List.getElem_mem h
  exact Option.ne_none_iff_isSome.1 (PyDict.mem_keys_iff.1 hmem)

/-- `sorted_keys` rotated to `bisect_right` of `h` is the clockwise order from `h`. -/
theorem sortedKeys_rotate (r : ConsistentHashRing) (h : Nat) :
    r.sortedKeys.rotate (bisectRight r.sortedKeys h) = clockwiseFrom h r.ring.keys := by
  rw [rotate_bisectRight (r.sortedKeys_eq ▸ sortKeys_sorted r.ring.keys), r.sortedKeys_eq]
  rfl

/-- `get_nodes_for_replication(key, n)` gathers the owners met clockwise from the key, each at
its first point, and keeps `n` of them unless `n = 0`. -/
theorem getNodesForReplication_eq (r : ConsistentHashRing) (key : String) (n : Nat) :
    r.getNodesForReplication hash key n =
      .ok ((if n = 0 then id else List.take n) (firstOccurrences (r.ownersFrom hash key))) := by
  unfold getNodesForReplication
  split
  · rename_i h0
    have hk : r.ring.keys = [] :=
      List.eq_nil_of_length_eq_zero (by simpa [PyDict.keys, PyDict.size] using h0)
    simp only [ownersFrom, clockwiseFrom, hk, sortKeys, List.mergeSort_nil, List.filter_nil,
      List.append_nil, List.filterMap_nil, firstOccurrences_nil]
    split <;> simp
  · have hps : ∀ pos ∈ (List.range r.sortedKeys.length).map
        (fun i => (bisectRight r.sortedKeys (hash key) + i) % r.sortedKeys.length),
        (r.ring.get? (r.sortedKeys.getD pos 0)).isSome := fun pos hpos => by
      obtain ⟨i, -, rfl⟩ := List.mem_map.1 hpos
      exact r.isSome_get?_getD (Nat.mod_lt _ (by rw [length_sortedKeys]; omega))
    have hw : ((List.range r.sortedKeys.length).map
        (fun i => (bisectRight r.sortedKeys (hash key) + i) % r.sortedKeys.length)).filterMap
        (fun pos => r.ring.get? (r.sortedKeys.getD pos 0)) = r.ownersFrom hash key := by
      rw [ownersFrom, ← sortedKeys_rotate, ← map_getD_positions]
      simp only [List.filterMap_map]
      rfl
    rw [replicaWalk_eq hps List.nodup_nil (Nat.eq_zero_or_pos n), hw]
    simp

/-- `get_node`'s wrap `if idx == len: idx = 0` is the walk's first position `(idx + 0) % len`. -/
theorem wrap_eq_mod {idx len : Nat} (h : idx ≤ len) :
    (if idx = len then 0 else idx) = idx % len := by
  split
  · subst idx; exact (Nat.mod_self _).symm
  · exact (Nat.mod_eq_of_lt (by omega)).symm

/-- `get_node(key)` answers the first owner met clockwise from the key. -/
theorem getNode_eq_head (r : ConsistentHashRing) (key : String) (hne : r.ring.size ≠ 0) :
    ∃ o, r.getNode hash key = .ok o ∧ (r.ownersFrom hash key).head? = some o := by
  have hl : 0 < r.sortedKeys.length := by rw [length_sortedKeys]; omega
  have hlt := Nat.mod_lt (bisectRight r.sortedKeys (hash key)) hl
  obtain ⟨o, ho⟩ := Option.isSome_iff_exists.1 (r.isSome_get?_getD hlt)
  refine ⟨o, ?_, ?_⟩
  · simp only [getNode, if_neg hne]
    rw [wrap_eq_mod (bisectRight_spec (r.sortedKeys_eq ▸ sortKeys_sorted _) _).le_length]
    exact lookup_of_get? ho
  · rw [List.getD_eq_getElem?_getD, List.getElem?_eq_getElem hlt, Option.getD_some] at ho
    rw [ownersFrom, ← sortedKeys_rotate, ← List.rotate_mod, List.rotate_eq_drop_append_take hlt.le,
      List.drop_eq_getElem_cons hlt, List.cons_append, List.filterMap_cons, ho]
    rfl

/-- The walk meets every owner: its distinct owners are the ring's. -/
theorem length_firstOccurrences_ownersFrom (r : ConsistentHashRing) (key : String) :
    (firstOccurrences (r.ownersFrom hash key)).length = r.ownerCount := by
  rw [length_firstOccurrences, ownerCount, ← PyDict.filterMap_get?_keys]
  exact ((clockwiseFrom_perm _ _).filterMap _).dedup.length_eq

/-- The walk from any key meets exactly the nodes that own a point. -/
theorem mem_ownersFrom_iff (r : ConsistentHashRing) (key : String) (n : Nat) :
    n ∈ r.ownersFrom hash key ↔ r.OwnsPoint n := by
  simp only [ownersFrom, List.mem_filterMap, (clockwiseFrom_perm _ _).mem_iff, OwnsPoint]
  exact ⟨fun ⟨p, _, hp⟩ => ⟨p, hp⟩, fun ⟨p, hp⟩ => ⟨p, PyDict.mem_keys_iff.2 (by simp [hp]), hp⟩⟩

theorem head?_cut_firstOccurrences (n : Nat) (w : List Nat) :
    ((if n = 0 then id else List.take n) (firstOccurrences w)).head? = w.head? := by
  have hfirst : (firstOccurrences w).head? = w.head? := by cases w <;> rfl
  split
  · exact hfirst
  · rw [List.head?_take, if_neg ‹_›, hfirst]

/-- What `get_nodes_for_replication(key, n)` returns, on every ring, for every key and every
`n`: distinct nodes, in the order a walk clockwise from the key first meets them, `min(n, d)`
of them for `n ≥ 1` and all `d` owners for `n = 0`, starting with `get_node(key)`. -/
theorem getNodesForReplication_walk (r : ConsistentHashRing) (key : String) (n : Nat) :
    ∃ l, r.getNodesForReplication hash key n = .ok l ∧ l.Nodup ∧
      l = (if n = 0 then id else List.take n) (firstOccurrences (r.ownersFrom hash key)) ∧
      l.length = (if n = 0 then r.ownerCount else min n r.ownerCount) ∧
      (r.ring.size ≠ 0 → ∃ o, r.getNode hash key = .ok o ∧ l.head? = some o) := by
  refine ⟨_, getNodesForReplication_eq hash r key n, ?_, rfl, ?_, fun hne => ?_⟩
  · split
    · exact nodup_firstOccurrences _
    · exact (nodup_firstOccurrences _).sublist (List.take_sublist _ _)
  · split <;> simp [length_firstOccurrences_ownersFrom]
  · obtain ⟨o, hget, hhead⟩ := getNode_eq_head hash r key hne
    exact ⟨o, hget, (head?_cut_firstOccurrences n _).trans hhead⟩

/-- On the ring of node `1` alone, `get_nodes_for_replication(key, 0)` returns `[1]`, not `[]`:
the length check comes after the append. -/
theorem getNodesForReplication_zero_replicas (key : String) :
    (init hash [1] 1).getNodesForReplication hash key 0 = .ok [1] := by
  have hring : (init hash [1] 1).ring.keys = [hash (label 1 0)] := rfl
  have hcw : clockwiseFrom (hash key) [hash (label 1 0)] = [hash (label 1 0)] := by
    by_cases h : hash key < hash (label 1 0)
    · simp [clockwiseFrom, sortKeys, h]
    · simp [clockwiseFrom, sortKeys, h, Nat.le_of_not_lt h]
  rw [getNodesForReplication_eq, ownersFrom, hring, hcw]
  simp [init, addNode, withRing, show List.range 1 = [0] from rfl, firstOccurrences_cons]

end ConsistentHashRing

/-! ### "At or above" against "above" -/

/-- The lookup rule as `get_node`'s comment words it: the point with the least hash `≥ h`, or
the least point when every point is below `h`. -/
def ClockwisePointGe (points : List Nat) (h p : Nat) : Prop :=
  p ∈ points ∧ ((h ≤ p ∧ ∀ q ∈ points, h ≤ q → p ≤ q) ∨ ((∀ q ∈ points, q < h) ∧ ∀ q ∈ points, p ≤ q))

/-- Under the `≥` rule a key whose hash is a point is answered by that point. -/
theorem ClockwisePointGe.eq_of_mem {points : List Nat} {h p : Nat} (hp : ClockwisePointGe points h p)
    (hh : h ∈ points) : p = h := by
  rcases hp.2 with ⟨hle, hmin⟩ | ⟨hlt, -⟩
  · exact le_antisymm (hmin h hh le_rfl) hle
  · exact absurd (hlt h hh) (lt_irrefl h)

/-- `get_node`'s rule passes over a point equal to the key's hash unless it is the only point. -/
theorem ClockwisePoint.ne_of_mem {points : List Nat} {h p q : Nat} (hp : ClockwisePoint points h p)
    (hq : q ∈ points) (hqh : q ≠ h) : p ≠ h := by
  rintro rfl
  rcases hp.2 with ⟨hlt, -⟩ | ⟨hle, hmin⟩
  · exact lt_irrefl p hlt
  · exact hqh (le_antisymm (hle q hq) (hmin q hq))

namespace ConsistentHashRing

variable (hash : String → Nat)

theorem init_one_two_get? (p : Nat) :
    (init hash [1, 2] 1).ring.get? p =
      if hash "2:0" = p then some 2 else if hash "1:0" = p then some 1 else none := by
  simp [init, Nat.lt_one_iff, show label 1 0 = "1:0" from rfl, show label 2 0 = "2:0" from rfl]

variable {hash} (hne : hash "1:0" ≠ hash "2:0")
include hne

theorem mem_keys_init_one_two (q : Nat) :
    q ∈ (init hash [1, 2] 1).ring.keys ↔ q = hash "2:0" ∨ q = hash "1:0" := by
  rw [PyDict.mem_keys_iff, init_one_two_get?]
  by_cases h2 : hash "2:0" = q
  · subst h2; simp
  by_cases h1 : hash "1:0" = q
  · subst h1; simp [hne.symm]
  · simp [h1, h2, Ne.symm h1, Ne.symm h2]

theorem size_init_one_two : (init hash [1, 2] 1).ring.size ≠ 0 := fun h0 => by
  have h1 := PyDict.size_eq_zero_iff.1 h0 (hash "1:0")
  rw [init_one_two_get?, if_neg hne.symm, if_pos rfl] at h1
  cases h1

end ConsistentHashRing

open ConsistentHashRing in
/-- Nodes `1` and `2` with one virtual point each, under any hash keeping the two labels apart:
key `"1:0"` lands on node `1`'s point, which the `≥` rule gives it to, yet `get_node` and the
start of `get_nodes_for_replication` answer node `2`. -/
theorem getNode_skips_point_of_key (hash : String → Nat) (hne : hash "1:0" ≠ hash "2:0") :
    (init hash [1, 2] 1).getNode hash "1:0" = .ok 2 ∧
      (∀ n, ∃ l, (init hash [1, 2] 1).getNodesForReplication hash "1:0" n = .ok l ∧
        l.head? = some 2) ∧
      ∀ p, ClockwisePointGe (init hash [1, 2] 1).ring.keys (hash "1:0") p →
        (init hash [1, 2] 1).ring.get? p = some 1 := by
  have hmem := mem_keys_init_one_two hne
  have hget : (init hash [1, 2] 1).getNode hash "1:0" = .ok 2 := by
    obtain ⟨p, hcw, hlook⟩ := getNode_clockwise hash _ "1:0" (size_init_one_two hne)
    obtain rfl : p = hash "2:0" :=
      ((hmem p).1 hcw.1).resolve_right (hcw.ne_of_mem ((hmem _).2 (.inl rfl)) hne.symm)
    rw [hlook, lookup_eq_ok, init_one_two_get?, if_pos rfl]
  refine ⟨hget, fun n => ?_, fun p hp => ?_⟩
  · obtain ⟨l, hl, -, -, -, hhead⟩ :=
      getNodesForReplication_walk hash (init hash [1, 2] 1) "1:0" n
    obtain ⟨o, ho, hlo⟩ := hhead (size_init_one_two hne)
    exact ⟨l, hl, by rw [hlo, Except.ok.inj (ho.symm.trans hget)]⟩
  · rw [hp.eq_of_mem ((hmem _).2 (.inr rfl)), init_one_two_get?, if_neg hne.symm, if_pos rfl]

open ConsistentHashRing in
/-- Hashing by the first character keeps the labels `"1:0"` and `"2:0"` apart. -/
theorem getNode_skips_point_of_key_front_hash :
    (fun s : String => s.front.toNat) "1:0" ≠ (fun s : String => s.front.toNat) "2:0" ∧
      (init (fun s => s.front.toNat) [1, 2] 1).getNode (fun s => s.front.toNat) "1:0" = .ok 2 ∧
      (∀ n, ∃ l, (init (fun s => s.front.toNat) [1, 2] 1).getNodesForReplication
        (fun s => s.front.toNat) "1:0" n = .ok l ∧ l.head? = some 2) ∧
      ∀ p, ClockwisePointGe (init (fun s => s.front.toNat) [1, 2] 1).ring.keys ("1:0".front.toNat) p →
        (init (fun s => s.front.toNat) [1, 2] 1).ring.get? p = some 1 :=
  ⟨by decide, getNode_skips_point_of_key _ (by decide)⟩

end MiniKV
