/-
Module: MiniKV.Distributed.Restart
Purpose: The gateway and its nodes across node restarts. A deployment starts as
  `Gateway(nodes)` in front of fresh node processes, which `ClusterManager.register_peers`
  registers with each other (`Deployment.init`). Then clients write through the gateway, the
  network delivers, loses or advances work in flight, the health monitor checks nodes with any
  outcome (`ServeStep`), and a node process may restart over its own data files
  (`Deployment.restart`): `NodeServer.__init__` reopens the store and starts with an empty
  `peers` map, which nothing fills again. Without restarts every `SET` the gateway accepts is
  fanned out by the node it reaches to every other node of the ring's replica list
  (`writes_reach_replicas_without_restart`); once a node has restarted and the health monitor
  has put it back on the ring, it acknowledges primary writes and replicates none
  (`restarted_primary_skips_replicas`).
Trusted boundary: none
Main exports: NodeServer.start, Cluster.registerPeers, Deployment, Deployment.init,
  Deployment.restart, ServeStep, DeploymentStep, WritesReachReplicas, RegistryIntact, ServeInv,
  writes_reach_replicas_without_restart, restartScenario, restarted_primary_skips_replicas
-/
import MiniKV.Distributed.Gateway
import MiniKV.Distributed.NodeServer
import MiniKV.Distributed.RingWalk
import MiniKV.Json.Value
import Mathlib.Logic.Relation

namespace MiniKV

variable {V : Type}

/-- `NodeServer(node_id, ...)` over its files: the store reopened from the WAL and the table,
and no peers. -/
def NodeServer.start (nodeId : Nat) (d : Disk V) : NodeServer V :=
  ⟨nodeId, KeyValueStore.openDisk d, PyDict.empty⟩

/-- `ClusterManager.register_peers` with every call answered: for each node, in registry order,
`POST /register_peer` of every other node. -/
def Cluster.registerPeers (nodes : PyDict Nat String) (c : Cluster V) : Cluster V :=
  nodes.entries.foldl (fun c e => nodes.entries.foldl (fun c p =>
    if p.1 ≠ e.1 then { c with node := Function.update c.node e.1 ((c.node e.1).registerPeer p.1 p.2) }
    else c) c) c

/-- The gateway and the cluster of nodes behind it. -/
structure Deployment where
  gateway : Gateway
  cluster : Cluster Json

namespace Deployment

variable (hash : String → Nat)

/-- `Gateway(nodes)` in front of fresh node processes over the files `disks`, after
`ClusterManager.register_peers`. -/
def init (nodes : PyDict Nat String) (disks : Nat → Disk Json) : Deployment :=
  ⟨Gateway.init hash nodes, Cluster.registerPeers nodes ⟨fun n => NodeServer.start n (disks n), [], 0⟩⟩

/-- Node `n`'s process restarts over its own files. -/
def restart (d : Deployment) (n : Nat) : Deployment :=
  ⟨d.gateway, { d.cluster with
    node := Function.update d.cluster.node n (NodeServer.start n (d.cluster.node n).store.disk) }⟩

end Deployment

/-- A step with no restart: a client `SET` or `DELETE` through the gateway, handled by the
node it is forwarded to; a step of the network; or one health check of a configured node. -/
inductive ServeStep (hash : String → Nat) (nodes : PyDict Nat String) : Deployment → Deployment → Prop
  | set {d : Deployment} {key : String} {value : Json} {n : Nat}
      (ht : d.gateway.setKeyTarget hash key = .ok n) :
      ServeStep hash nodes d ⟨d.gateway, d.cluster.deliver d.cluster.pending none n (.set key value false)⟩
  | delete {d : Deployment} {key : String} {n : Nat}
      (ht : d.gateway.deleteKeyTarget hash key = .ok n) :
      ServeStep hash nodes d ⟨d.gateway, d.cluster.deliver d.cluster.pending none n (.delete key)⟩
  | network {d : Deployment} {c : Cluster Json} (h : Cluster.Step d.cluster c) :
      ServeStep hash nodes d ⟨d.gateway, c⟩
  | health {d : Deployment} {n : Nat} (o : HealthOutcome) (hn : n ∈ nodes.keys) :
      ServeStep hash nodes d ⟨d.gateway.checkNode hash n o, d.cluster⟩

/-- Any step, node restarts included. -/
inductive DeploymentStep (hash : String → Nat) (nodes : PyDict Nat String) :
    Deployment → Deployment → Prop
  | serve {d d' : Deployment} (h : ServeStep hash nodes d d') : DeploymentStep hash nodes d d'
  | restart {d : Deployment} {n : Nat} (hn : n ∈ nodes.keys) :
      DeploymentStep hash nodes d (d.restart n)

/-- Every `SET` the gateway accepts for `key` is forwarded to a node whose handler sends a
replica write to every other node of the ring's `get_nodes_for_replication(key, 2)`. -/
def WritesReachReplicas (hash : String → Nat) (d : Deployment) : Prop :=
  ∀ key value n replicas, d.gateway.setKeyTarget hash key = .ok n →
    d.gateway.hashRing.getNodesForReplication hash key 2 = .ok replicas →
    ∀ m ∈ replicas, m ≠ n →
      .request (some n) m (.set key value true) ∈ ((d.cluster.node n).handle (.set key value false)).spawned

/-! ### A deployment of two nodes -/

/-- A label hash that reads a label's first character: node `1`'s labels all hash to `49`,
node `2`'s to `50`, and key `"k"` to `107`, past both. -/
def frontHash (s : String) : Nat := s.front.toNat

/-- Two nodes, as `ClusterManager` configures them. -/
def twoNodes : PyDict Nat String := ⟨[(1, "http://localhost:8001"), (2, "http://localhost:8002")], by decide⟩

/-! ### Without restarts the peer registry stays whole -/

/-- Every configured node `n` knows its id and has every other configured node as a peer. -/
def RegistryIntact (nodes : PyDict Nat String) (c : Cluster V) : Prop :=
  ∀ n ∈ nodes.keys, (c.node n).nodeId = n ∧ ∀ m ∈ nodes.keys, m ≠ n → m ∈ (c.node n).peers.keys

/-- `c'` keeps every node's id and every peer each node has in `c`. -/
def KeepsPeers (c c' : Cluster V) : Prop :=
  ∀ k, (c'.node k).nodeId = (c.node k).nodeId ∧ ∀ m ∈ (c.node k).peers.keys, m ∈ (c'.node k).peers.keys

namespace KeepsPeers

theorem refl (c : Cluster V) : KeepsPeers c c := fun _ => ⟨rfl, fun _ h => h⟩

theorem trans {c₁ c₂ c₃ : Cluster V} (h₁ : KeepsPeers c₁ c₂) (h₂ : KeepsPeers c₂ c₃) :
    KeepsPeers c₁ c₃ := fun k =>
  ⟨(h₂ k).1.trans (h₁ k).1, fun m hm => (h₂ k).2 m ((h₁ k).2 m hm)⟩

/-- Replacing node `k` by one with its id and at least its peers. -/
theorem update {c : Cluster V} {k : Nat} {n : NodeServer V} (hid : n.nodeId = (c.node k).nodeId)
    (hp : ∀ m ∈ (c.node k).peers.keys, m ∈ n.peers.keys) (pending : List (Pending V)) (count : Nat) :
    KeepsPeers c ⟨Function.update c.node k n, pending, count⟩ := fun j => by
  by_cases hj : j = k
  · subst hj; simpa using ⟨hid, hp⟩
  · simp [Function.update_noteq hj]

theorem registryIntact {nodes : PyDict Nat String} {c c' : Cluster V} (h : KeepsPeers c c')
    (hr : RegistryIntact nodes c) : RegistryIntact nodes c' := fun n hn =>
  ⟨(h n).1.trans (hr n hn).1, fun m hm hmn => (h n).2 m ((hr n hn).2 m hm hmn)⟩

theorem foldl {α : Type} {f : Cluster V → α → Cluster V} (hf : ∀ c a, KeepsPeers c (f c a)) :
    ∀ (as : List α) (c : Cluster V), KeepsPeers c (as.foldl f c)
  | [], c => refl c
  | a :: as, c => (hf c a).trans (foldl hf as _)

/-- A peer that one step of a fold registers stays registered to the end of the fold. -/
theorem mem_peers_foldl {α : Type} {f : Cluster V → α → Cluster V} (hf : ∀ c a, KeepsPeers c (f c a))
    {k m : Nat} {a : α} (ha : ∀ c, m ∈ ((f c a).node k).peers.keys) :
    ∀ {as : List α} (c : Cluster V), a ∈ as → m ∈ ((as.foldl f c).node k).peers.keys
  | b :: as, c, hmem => by
    rw [List.foldl_cons]
    rcases List.mem_cons.1 hmem with rfl | hmem
    · exact (foldl hf as _ k).2 m (ha c)
    · exact mem_peers_foldl hf ha _ hmem

end KeepsPeers

theorem mem_keys_registerPeer (n : NodeServer V) (p : Nat) (url : String) (m : Nat) :
    m ∈ (n.registerPeer p url).peers.keys ↔ m = p ∨ m ∈ n.peers.keys := by
  simp only [NodeServer.registerPeer, PyDict.mem_keys_iff, PyDict.get?_insert]
  by_cases h : p = m <;> simp [h, eq_comm]

/-- One `POST /register_peer` of `register_peers`: node `e.1` registers `p` unless it is itself. -/
def Cluster.registerOne (e : Nat × String) (c : Cluster V) (p : Nat × String) : Cluster V :=
  if p.1 ≠ e.1 then { c with node := Function.update c.node e.1 ((c.node e.1).registerPeer p.1 p.2) }
  else c

theorem keepsPeers_registerOne (e : Nat × String) (c : Cluster V) (p : Nat × String) :
    KeepsPeers c (Cluster.registerOne e c p) := by
  unfold Cluster.registerOne
  split
  · refine KeepsPeers.update ?_ ?_ _ _
    · rfl
    · exact fun m hm => (mem_keys_registerPeer _ _ _ m).2 (.inr hm)
  · exact KeepsPeers.refl c

theorem registerPeers_eq (nodes : PyDict Nat String) (c : Cluster V) :
    Cluster.registerPeers nodes c =
      nodes.entries.foldl (fun c e => nodes.entries.foldl (Cluster.registerOne e) c) c := rfl

/-- After `register_peers` every configured node has every other one as a peer. -/
theorem registryIntact_registerPeers {nodes : PyDict Nat String} {c : Cluster V}
    (hid : ∀ n ∈ nodes.keys, (c.node n).nodeId = n) : RegistryIntact nodes (Cluster.registerPeers nodes c) := by
  have hkeep : ∀ (c : Cluster V) e, KeepsPeers c (nodes.entries.foldl (Cluster.registerOne e) c) := fun _ e =>
    KeepsPeers.foldl (keepsPeers_registerOne e) _ _
  rw [registerPeers_eq]
  refine fun n hn => ⟨((KeepsPeers.foldl hkeep _ c) n).1.trans (hid n hn), fun m hm hmn => ?_⟩
  obtain ⟨e, he, rfl⟩ := List.mem_map.1 hn
  obtain ⟨p, hp, rfl⟩ := List.mem_map.1 hm
  refine KeepsPeers.mem_peers_foldl hkeep (fun c => ?_) c he
  refine KeepsPeers.mem_peers_foldl (keepsPeers_registerOne e) (fun c => ?_) c hp
  simp [Cluster.registerOne, hmn, mem_keys_registerPeer]

theorem keepsPeers_deliver [PyNone V] (c : Cluster V) (rest : List (Pending V)) (src : Option Nat) (dst : Nat)
    (req : Request V) : KeepsPeers c (c.deliver rest src dst req) :=
  KeepsPeers.update (by simp) (by simp) _ _

section Network

variable [DecidableEq V] [PyNone V]

/-- The network never touches a node's id or registry: handlers keep both, and `GET` changes
no node at all. -/
theorem keepsPeers_step {c c' : Cluster V} (h : Cluster.Step c c') : KeepsPeers c c' := by
  cases h with
  | deliver pre post src dst req _ => exact keepsPeers_deliver c _ src dst req
  | drop => exact KeepsPeers.refl c
  | readNext pre post origin key expected peer peers _ =>
    exact KeepsPeers.update rfl (fun _ h => h) _ _
  | readFail => exact KeepsPeers.refl c

end Network

/-- What every state reached without a restart satisfies: the gateway is one the health
monitor can reach, and the peer registry `register_peers` built is whole. -/
structure ServeInv (hash : String → Nat) (nodes : PyDict Nat String) (d : Deployment) : Prop where
  gateway : Gateway.Reachable hash nodes d.gateway
  registry : RegistryIntact nodes d.cluster

namespace ServeInv

variable {hash : String → Nat} {nodes : PyDict Nat String}

theorem init (disks : Nat → Disk Json) : ServeInv hash nodes (Deployment.init hash nodes disks) :=
  ⟨.init, registryIntact_registerPeers fun _ _ => rfl⟩

theorem step {d d' : Deployment} (h : ServeInv hash nodes d) (hs : ServeStep hash nodes d d') :
    ServeInv hash nodes d' := by
  cases hs with
  | set ht => exact ⟨h.gateway, (keepsPeers_deliver _ _ _ _ _).registryIntact h.registry⟩
  | delete ht => exact ⟨h.gateway, (keepsPeers_deliver _ _ _ _ _).registryIntact h.registry⟩
  | network hc => exact ⟨h.gateway, (keepsPeers_step hc).registryIntact h.registry⟩
  | health o hn => exact ⟨.check _ o hn h.gateway, h.registry⟩

theorem run {disks : Nat → Disk Json} {d : Deployment}
    (h : Relation.ReflTransGen (ServeStep hash nodes) (Deployment.init hash nodes disks) d) :
    ServeInv hash nodes d := by
  induction h with
  | refl => exact init disks
  | tail _ hs ih => exact ih.step hs

/-- With the registry whole, the node a `SET` reaches sends the replica write to every other
node of the replica list: both own ring points, so both are configured nodes. -/
theorem writesReachReplicas {d : Deployment} (h : ServeInv hash nodes d) : WritesReachReplicas hash d := by
  intro key value n replicas ht hrep m hm hmn
  have hcfg : ∀ x, d.gateway.hashRing.OwnsPoint x → x ∈ nodes.keys := fun x ⟨p, hp⟩ =>
    (h.gateway.pointsLabelled hash p x hp).1
  have hn := hcfg n (Gateway.setKeyTarget_ownsPoint hash ht)
  have hpeer := (h.registry n hn).2 m (hcfg m (ConsistentHashRing.ownsPoint_of_getNodesForReplication hash hrep hm)) hmn
  simpa only [(h.registry n hn).1] using NodeServer.request_mem_handle_set hpeer key value

end ServeInv

/-- Without node restarts, every `SET` the gateway accepts reaches the whole replica list of its
key. From `Gateway(nodes)` and `ClusterManager.register_peers`, through any client writes and
deletes, any delivery, loss or reordering of work in flight, and any health checks with any
outcomes, the node the gateway forwards a `SET` to sends a replica write to every other node of
`get_nodes_for_replication(key, 2)`, whatever the label hashes. -/
theorem writes_reach_replicas_without_restart (hash : String → Nat) (nodes : PyDict Nat String)
    (disks : Nat → Disk Json) {d : Deployment}
    (h : Relation.ReflTransGen (ServeStep hash nodes) (Deployment.init hash nodes disks) d) :
    WritesReachReplicas hash d :=
  (ServeInv.run h).writesReachReplicas

/-- Two fresh nodes over empty files, after a health check has found node `2` down. -/
def nodeTwoDown : Deployment :=
  let d := Deployment.init frontHash twoNodes fun _ => ⟨[], PyDict.empty⟩
  ⟨d.gateway.checkNode frontHash 2 .unreachable, d.cluster⟩

theorem writes_reach_replicas_node_two_down :
    Relation.ReflTransGen (ServeStep frontHash twoNodes)
        (Deployment.init frontHash twoNodes fun _ => ⟨[], PyDict.empty⟩) nodeTwoDown ∧
      WritesReachReplicas frontHash nodeTwoDown :=
  have h := Relation.ReflTransGen.single (ServeStep.health .unreachable (by decide))
  ⟨h, writes_reach_replicas_without_restart frontHash twoNodes _ h⟩

/-! ### A restarted primary replicates nothing -/

/-- Node `1`'s process restarts over its files; one health check sees it down and the next sees
it back, so the gateway adds it to the ring again. -/
def restartScenario (disks : Nat → Disk Json) : Deployment :=
  ⟨(((Deployment.init frontHash twoNodes disks).restart 1).gateway.checkNode frontHash 1 .unreachable).checkNode
      frontHash 1 .ok,
    ((Deployment.init frontHash twoNodes disks).restart 1).cluster⟩

/-- The ring of `restartScenario`: node `1` at point `49` again, node `2` at point `50`. -/
def twoPoints : PyDict Nat Nat := ⟨[(49, 1), (50, 2)], by decide⟩

open ConsistentHashRing in
theorem restartScenario_get? (disks : Nat → Disk Json) :
    (restartScenario disks).gateway.hashRing.ring.get? = twoPoints.get? := funext fun p => by
  have h1 : ∀ i, frontHash (label 1 i) = 49 := fun _ => rfl
  have h2 : ∀ i, frontHash (label 2 i) = 50 := fun _ => rfl
  simp [show twoNodes.keys = [1, 2] from rfl, restartScenario, Deployment.restart, Deployment.init,
    Gateway.init, Gateway.checkNode, init, h1, h2, show ∃ i : Nat, i < 150 from ⟨0, by decide⟩]
  by_cases h : 49 = p <;> simp [h, twoPoints, PyDict.get?, lookupEntry]

open ConsistentHashRing in
/-- Key `"k"` walks the ring from `107` past the top to `49`, then `50`. -/
theorem restartScenario_ownersFrom (disks : Nat → Disk Json) :
    (restartScenario disks).gateway.hashRing.ownersFrom frontHash "k" = [1, 2] := by
  have hget := restartScenario_get? disks
  have hsort : sortKeys (restartScenario disks).gateway.hashRing.ring.keys = [49, 50] :=
    List.eq_of_perm_of_sorted ((List.mergeSort_perm _ _).trans (PyDict.keys_perm_of_get?_eq hget))
      (sortKeys_sorted _) (by decide)
  rw [ownersFrom, clockwiseFrom, hsort, hget]
  rfl

open ConsistentHashRing in
theorem restartScenario_getNode (disks : Nat → Disk Json) :
    (restartScenario disks).gateway.hashRing.getNode frontHash "k" = .ok 1 := by
  have hne : (restartScenario disks).gateway.hashRing.ring.size ≠ 0 := by
    rw [PyDict.size_eq_of_get?_eq (restartScenario_get? disks)]; decide
  obtain ⟨o, hget, hhead⟩ := getNode_eq_head frontHash _ "k" hne
  rw [restartScenario_ownersFrom] at hhead
  rw [hget, Option.some.inj hhead.symm]

open ConsistentHashRing in
/-- Node `1` restarts under a deployment of two nodes, and the health monitor sees it down and
back. This is reachable from `Gateway(nodes)` after `register_peers`, where every accepted `SET`
reaches its replicas. Afterwards the gateway forwards a `SET` of `"k"` to node `1`, whose replica
list for `n=2` is `[1, 2]`. Node `1` acknowledges the write and sends nothing, since its `peers`
is empty. -/
theorem restarted_primary_skips_replicas (disks : Nat → Disk Json) (value : Json) :
    WritesReachReplicas frontHash (Deployment.init frontHash twoNodes disks) ∧
      Relation.ReflTransGen (DeploymentStep frontHash twoNodes) (Deployment.init frontHash twoNodes disks)
        (restartScenario disks) ∧
      (restartScenario disks).gateway.setKeyTarget frontHash "k" = .ok 1 ∧
      (restartScenario disks).gateway.hashRing.getNodesForReplication frontHash "k" 2 = .ok [1, 2] ∧
      (((restartScenario disks).cluster.node 1).handle (.set "k" value false)).spawned = [] ∧
      ¬ WritesReachReplicas frontHash (restartScenario disks) := by
  have hn : 1 ∈ twoNodes.keys := by decide
  have hset : (restartScenario disks).gateway.setKeyTarget frontHash "k" = .ok 1 := by
    rw [Gateway.setKeyTarget, restartScenario_getNode]
    exact if_pos (Gateway.mem_healthyNodes_checkNode_ok frontHash _ 1)
  have hrep : (restartScenario disks).gateway.hashRing.getNodesForReplication frontHash "k" 2 = .ok [1, 2] := by
    rw [getNodesForReplication_eq, restartScenario_ownersFrom]; rfl
  have hspawn : (((restartScenario disks).cluster.node 1).handle (.set "k" value false)).spawned = [] := by
    simp [restartScenario, Deployment.restart, NodeServer.start, NodeServer.handle, NodeServer.setKey,
      PyDict.size, PyDict.empty]
  refine ⟨(ServeInv.init disks).writesReachReplicas,
    .tail (.tail (.single (.restart hn)) (.serve (.health .unreachable hn))) (.serve (.health .ok hn)),
    hset, hrep, hspawn, fun h => ?_⟩
  have := h "k" value 1 [1, 2] hset hrep 2 (by decide) (by decide)
  rw [hspawn] at this
  cases this

end MiniKV
