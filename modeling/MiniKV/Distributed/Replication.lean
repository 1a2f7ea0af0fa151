/-
Module: MiniKV.Distributed.Replication
Purpose: How much node-to-node traffic one client request causes. `set_key` guards its
  fan-out with `is_replica`, but `delete_key` replicates every delete it serves, replicated or
  not, and `_read_repair` reads peers through `GET /get/{key}`, whose handler starts a read
  repair of its own for any value but `None`. In a two-node cluster whose nodes know each
  other, one client `DELETE` (or one `GET` of a key both nodes hold with a value that is not
  `None`) therefore echoes between the nodes without end:
  `deleteEcho_reachable`, `readEcho_reachable`, and `replication_traffic_unbounded`.
Trusted boundary: none
Main exports: pairOfNodes, deleteEcho, readEcho, deleteEcho_reachable, readEcho_reachable,
  replication_traffic_unbounded
-/
import MiniKV.Distributed.NodeServer
import Mathlib.Logic.Relation

namespace MiniKV

open Cluster

variable {V : Type}

/-- The registry `ClusterManager.register_peers` leaves on a node whose only peer is `p`. -/
def onlyPeer (p : Nat) : PyDict Nat String := ⟨[(p, "http://localhost:800" ++ toString p)], by simp⟩

/-- Nodes `1` and `2` over the given stores, each registered as the other's peer. -/
def pairOfNodes (s₁ s₂ : KeyValueStore V) (i : Nat) : NodeServer V :=
  if i = 1 then ⟨1, s₁, onlyPeer 2⟩ else if i = 2 then ⟨2, s₂, onlyPeer 1⟩ else ⟨i, s₁, PyDict.empty⟩

/-- The sender of the `i`-th echo: node `1` on even rounds, node `2` on odd ones. -/
def echoFrom (i : Nat) : Nat := if i % 2 = 0 then 1 else 2

/-- The receiver of the `i`-th echo. -/
def echoTo (i : Nat) : Nat := if i % 2 = 0 then 2 else 1

theorem echoTo_eq_echoFrom_succ (i : Nat) : echoTo i = echoFrom (i + 1) := by
  unfold echoTo echoFrom; split <;> split <;> omega

theorem echoFrom_eq_echoTo_succ (i : Nat) : echoFrom i = echoTo (i + 1) := by
  unfold echoTo echoFrom; split <;> split <;> omega

theorem pairOfNodes_echoTo (s₁ s₂ : KeyValueStore V) (i : Nat) :
    (pairOfNodes s₁ s₂ (echoTo i)).peers = onlyPeer (echoFrom i) ∧
      (pairOfNodes s₁ s₂ (echoTo i)).nodeId = echoTo i := by
  unfold echoTo echoFrom; split <;> simp [pairOfNodes]

/-! ### A replicated delete -/

/-- After `i` node-to-node requests, the replicated delete in flight. -/
def deleteEcho (s₁ s₂ : KeyValueStore V) (key : String) (i : Nat) : Cluster V :=
  ⟨pairOfNodes s₁ s₂, [.request (some (echoFrom i)) (echoTo i) (.delete key)], i⟩

/-- Deleting an absent key changes no node, yet is replicated to every peer. -/
theorem deleteKey_absent (n : NodeServer V) {key : String} (h : n.store.data.contains key = false) :
    n.deleteKey key = ⟨n, .deleted false n.nodeId,
      if n.peers.size ≠ 0 then n.replicateDelete key else []⟩ := by
  simp [NodeServer.deleteKey, KeyValueStore.delete, h]

theorem pairOfNodes_absent {s₁ s₂ : KeyValueStore V} {key : String}
    (h₁ : s₁.data.contains key = false) (h₂ : s₂.data.contains key = false) (i : Nat) :
    (pairOfNodes s₁ s₂ i).store.data.contains key = false := by
  unfold pairOfNodes; split
  · exact h₁
  · split
    · exact h₂
    · exact h₁

theorem deleteEcho_step [DecidableEq V] [PyNone V] {s₁ s₂ : KeyValueStore V} {key : String}
    (h₁ : s₁.data.contains key = false) (h₂ : s₂.data.contains key = false) (i : Nat) :
    Step (deleteEcho s₁ s₂ key i) (deleteEcho s₁ s₂ key (i + 1)) := by
  have e : (deleteEcho s₁ s₂ key i).deliver [] (some (echoFrom i)) (echoTo i) (.delete key) =
      deleteEcho s₁ s₂ key (i + 1) := by
    obtain ⟨hp, hid⟩ := pairOfNodes_echoTo s₁ s₂ i
    simp only [Cluster.deliver, deleteEcho, NodeServer.handle,
      deleteKey_absent _ (pairOfNodes_absent h₁ h₂ _), Function.update_eq_self, sentBy]
    simp [NodeServer.replicateDelete, NodeServer.fanOut, hp, hid, onlyPeer, PyDict.size,
      PyDict.keys, ← echoTo_eq_echoFrom_succ, ← echoFrom_eq_echoTo_succ]
  exact e ▸ Step.deliver [] [] _ _ _ rfl

/-- A client `DELETE` of an absent key at node `1` reaches the first echo, then every echo. -/
theorem deleteEcho_reachable [DecidableEq V] [PyNone V] {s₁ s₂ : KeyValueStore V} {key : String}
    (h₁ : s₁.data.contains key = false) (h₂ : s₂.data.contains key = false) (n : Nat) :
    Relation.ReflTransGen Step ⟨pairOfNodes s₁ s₂, [.request none 1 (.delete key)], 0⟩
      (deleteEcho s₁ s₂ key n) := by
  induction n with
  | zero =>
    have e : (⟨pairOfNodes s₁ s₂, [.request none 1 (.delete key)], 0⟩ : Cluster V).deliver [] none 1
        (.delete key) = deleteEcho s₁ s₂ key 0 := by
      simp only [Cluster.deliver, NodeServer.handle,
        deleteKey_absent _ (pairOfNodes_absent h₁ h₂ _), Function.update_eq_self, sentBy]
      simp [deleteEcho, pairOfNodes, NodeServer.replicateDelete, NodeServer.fanOut, onlyPeer,
        PyDict.size, PyDict.keys, echoFrom, echoTo]
    exact .single (e ▸ Step.deliver [] [] _ _ _ rfl)
  | succ n ih => exact ih.tail (deleteEcho_step h₁ h₂ n)

/-! ### A read repair -/

/-- After `i` node-to-node requests, the read-repair task in flight. -/
def readEcho (s₁ s₂ : KeyValueStore V) (key : String) (v : V) (i : Nat) : Cluster V :=
  ⟨pairOfNodes s₁ s₂, [.readRepair (echoFrom i) key v [echoTo i]], i⟩

theorem pairOfNodes_get {s₁ s₂ : KeyValueStore V} {key : String} {v : V} (h₁ : s₁.get key = some v)
    (h₂ : s₂.get key = some v) (i : Nat) (hi : i = 1 ∨ i = 2) : (pairOfNodes s₁ s₂ i).store.get key = some v := by
  rcases hi with rfl | rfl <;> simpa [pairOfNodes]

theorem echoTo_mem (i : Nat) : echoTo i = 1 ∨ echoTo i = 2 := by unfold echoTo; split <;> simp

theorem readEcho_step [DecidableEq V] [PyNone V] {s₁ s₂ : KeyValueStore V} {key : String} {v : V}
    (hv : PyNone.isNone v = false) (h₁ : s₁.get key = some v) (h₂ : s₂.get key = some v) (i : Nat) :
    Step (readEcho s₁ s₂ key v i) (readEcho s₁ s₂ key v (i + 1)) := by
  have e : (readEcho s₁ s₂ key v i).readNext [] (echoFrom i) key v (echoTo i) [] =
      readEcho s₁ s₂ key v (i + 1) := by
    obtain ⟨hp, hid⟩ := pairOfNodes_echoTo s₁ s₂ i
    have hget := pairOfNodes_get h₁ h₂ _ (echoTo_mem i)
    simp only [Cluster.readNext, readEcho, NodeServer.getKey, Function.update_eq_self, hget, hv]
    simp [hp, hid, onlyPeer, PyDict.size, PyDict.keys, ← echoTo_eq_echoFrom_succ,
      ← echoFrom_eq_echoTo_succ]
  exact e ▸ Step.readNext [] [] _ _ _ _ _ rfl

/-- A client `GET` at node `1` of a key both nodes hold with a value that is not `None` reaches
the first read repair, then every echo of it. -/
theorem readEcho_reachable [DecidableEq V] [PyNone V] {s₁ s₂ : KeyValueStore V} {key : String} {v : V}
    (hv : PyNone.isNone v = false) (h₁ : s₁.get key = some v) (h₂ : s₂.get key = some v) (n : Nat) :
    Relation.ReflTransGen Step ⟨pairOfNodes s₁ s₂, [.request none 1 (.get key)], 0⟩
      (readEcho s₁ s₂ key v n) := by
  induction n with
  | zero =>
    have e : (⟨pairOfNodes s₁ s₂, [.request none 1 (.get key)], 0⟩ : Cluster V).deliver [] none 1
        (.get key) = readEcho s₁ s₂ key v 0 := by
      have hget := pairOfNodes_get h₁ h₂ 1 (.inl rfl)
      simp only [Cluster.deliver, NodeServer.handle, NodeServer.getKey, Function.update_eq_self,
        hget, hv, sentBy]
      simp [readEcho, pairOfNodes, onlyPeer, PyDict.size, PyDict.keys, echoFrom, echoTo]
    exact .single (e ▸ Step.deliver [] [] _ _ _ rfl)
  | succ n ih => exact ih.tail (readEcho_step hv h₁ h₂ n)

/-- One client request to one node of a two-node cluster, each node registered as the other's
peer, can cause any number of node-to-node requests: a `DELETE` on fresh stores, and a `GET`
of a key both nodes hold with a value that is not `None`. -/
theorem replication_traffic_unbounded [DecidableEq V] [PyNone V] (v : V) (hv : PyNone.isNone v = false)
    (n : Nat) :
    (∃ c, Relation.ReflTransGen Step ⟨pairOfNodes (KeyValueStore.openDisk (⟨[], PyDict.empty⟩ : Disk V))
        (KeyValueStore.openDisk ⟨[], PyDict.empty⟩), [.request none 1 (.delete "k")], 0⟩ c ∧
        n ≤ c.interNode) ∧
      ∃ c, Relation.ReflTransGen Step
        ⟨pairOfNodes ((KeyValueStore.openDisk ⟨[], PyDict.empty⟩).set "k" v)
          ((KeyValueStore.openDisk ⟨[], PyDict.empty⟩).set "k" v), [.request none 1 (.get "k")], 0⟩ c ∧
        n ≤ c.interNode := by
  exact ⟨⟨_, @deleteEcho_reachable V _ _ (KeyValueStore.openDisk ⟨[], PyDict.empty⟩)
      (KeyValueStore.openDisk ⟨[], PyDict.empty⟩) "k" rfl rfl n, le_rfl⟩,
    ⟨_, @readEcho_reachable V _ _ ((KeyValueStore.openDisk ⟨[], PyDict.empty⟩).set "k" v)
      ((KeyValueStore.openDisk ⟨[], PyDict.empty⟩).set "k" v) "k" v hv rfl rfl n, le_rfl⟩⟩

theorem replication_traffic_unbounded_true :
    PyNone.isNone (Json.bool true) = false ∧
      (∃ c, Relation.ReflTransGen Step ⟨pairOfNodes (KeyValueStore.openDisk (⟨[], PyDict.empty⟩ : Disk Json))
        (KeyValueStore.openDisk ⟨[], PyDict.empty⟩), [.request none 1 (.delete "k")], 0⟩ c ∧
        3 ≤ c.interNode) ∧
      ∃ c, Relation.ReflTransGen Step
        ⟨pairOfNodes ((KeyValueStore.openDisk (⟨[], PyDict.empty⟩ : Disk Json)).set "k" (.bool true))
          ((KeyValueStore.openDisk ⟨[], PyDict.empty⟩).set "k" (.bool true)), [.request none 1 (.get "k")], 0⟩ c ∧
        3 ≤ c.interNode :=
  ⟨rfl, replication_traffic_unbounded (.bool true) rfl 3⟩

end MiniKV
