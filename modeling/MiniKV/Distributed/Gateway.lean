/-
Module: MiniKV.Distributed.Gateway
Purpose: The routing half of `distributed/gateway.py`: the configured `nodes`, `hash_ring` over
  them with the default 150 virtual nodes, the `healthy_nodes` set, one check of
  `_health_check_loop` per node with any outcome (200, another status, an exception), and the
  node each request handler forwards to. A handler runs between two checks, so it may observe
  the state after any check of a round. With the labels of the configured nodes hashing apart,
  the nodes owning ring points are exactly `healthy_nodes` in every reachable state
  (`Gateway.Reachable.consistent`), hence every handler forwards only to healthy nodes.
Trusted boundary: none
Main exports: HttpError, Gateway, Gateway.init, HealthOutcome, Gateway.checkNode,
  Gateway.healthCheckRound, Gateway.Reachable, Gateway.setKeyTarget, Gateway.getKeyTargets,
  Gateway.deleteKeyTarget, Gateway.existsKeyTarget
-/
import MiniKV.Distributed.HashRing
import Mathlib.Data.Finset.Basic

namespace MiniKV

/-- An `HTTPException` as a client sees it: status code and detail text. -/
structure HttpError where
  status : Nat
  detail : String
deriving DecidableEq, Repr

/-- The gateway state the routing and the health monitor read and write. -/
structure Gateway where
  nodes : PyDict Nat String
  hashRing : ConsistentHashRing
  healthyNodes : Finset Nat

/-- The result of one `GET /health` in `_health_check_loop`. -/
inductive HealthOutcome where
  | ok
  | notOk
  | unreachable
deriving DecidableEq, Repr

namespace Gateway

variable (hash : String → Nat)

/-- `Gateway(nodes)`: a ring over every configured node, all assumed healthy. -/
def init (nodes : PyDict Nat String) : Gateway :=
  ⟨nodes, ConsistentHashRing.init hash nodes.keys 150, nodes.keys.toFinset⟩

/-- One node's turn in a round of `_health_check_loop`: a 200 adds a node that was not
healthy back to the ring; a non-200 status or an exception removes a healthy node. -/
def checkNode (g : Gateway) (nodeId : Nat) : HealthOutcome → Gateway
  | .ok =>
    if nodeId ∉ g.healthyNodes then
      { g with hashRing := g.hashRing.addNode hash nodeId, healthyNodes := insert nodeId g.healthyNodes }
    else g
  | .notOk | .unreachable =>
    if nodeId ∈ g.healthyNodes then
      { g with hashRing := g.hashRing.removeNode hash nodeId, healthyNodes := g.healthyNodes.erase nodeId }
    else g

/-- One round of `_health_check_loop`: every configured node, in order, with its outcome. -/
def healthCheckRound (g : Gateway) (outcome : Nat → HealthOutcome) : Gateway :=
  g.nodes.keys.foldl (fun g n => g.checkNode hash n (outcome n)) g

/-- The states a request handler can observe: the constructor, then single checks of
configured nodes, with any outcomes. -/
inductive Reachable (nodes : PyDict Nat String) : Gateway → Prop
  | init : Reachable nodes (init hash nodes)
  | check {g : Gateway} (n : Nat) (o : HealthOutcome) (hn : n ∈ nodes.keys) :
      Reachable nodes g → Reachable nodes (g.checkNode hash n o)

@[simp] theorem checkNode_nodes (g : Gateway) (n : Nat) (o : HealthOutcome) :
    (g.checkNode hash n o).nodes = g.nodes := by
  cases o <;> simp only [checkNode] <;> split <;> rfl

/-- After a 200 the node is healthy, whether it was before or not. -/
theorem mem_healthyNodes_checkNode_ok (g : Gateway) (n : Nat) : n ∈ (g.checkNode hash n .ok).healthyNodes := by
  simp only [checkNode]
  split
  · exact Finset.mem_insert_self n _
  · exact not_not.1 ‹_›

theorem reachable_nodes {nodes : PyDict Nat String} {g : Gateway} (h : Reachable hash nodes g) :
    g.nodes = nodes := by
  induction h with
  | init => rfl
  | check n o hn _ ih => rw [checkNode_nodes, ih]

/-- A whole round is a sequence of checks, so its end state is reachable. -/
theorem reachable_healthCheckRound {nodes : PyDict Nat String} {g : Gateway}
    (h : Reachable hash nodes g) (outcome : Nat → HealthOutcome) :
    Reachable hash nodes (g.healthCheckRound hash outcome) := by
  unfold healthCheckRound
  rw [reachable_nodes hash h]
  suffices ∀ (ks : List Nat) (g : Gateway), (∀ k ∈ ks, k ∈ nodes.keys) → Reachable hash nodes g →
      Reachable hash nodes (ks.foldl (fun g n => g.checkNode hash n (outcome n)) g) from
    this _ g (fun _ hk => hk) h
  intro ks
  induction ks with
  | nil => exact fun _ _ h => h
  | cons k ks ih =>
    exact fun g hks h => ih _ (fun j hj => hks j (List.mem_cons_of_mem _ hj))
      (.check k (outcome k) (hks k (List.mem_cons_self _ _)) h)

/-! ### Routing -/

/-- The `HTTPException(500, str(e))` every handler turns an exception into. -/
def internalError (detail : String) : HttpError := ⟨500, detail⟩

/-- The node `set_key` posts to: the primary if healthy, else `replica_nodes[1]`. Its own
503 is raised inside the `try` and so reaches the client as a 500. -/
def setKeyTarget (g : Gateway) (key : String) : Except HttpError Nat :=
  match g.hashRing.getNode hash key with
  | .error e => .error (internalError e)
  | .ok nodeId =>
    if nodeId ∈ g.healthyNodes then .ok nodeId
    else
      match g.hashRing.getNodesForReplication hash key 2 with
      | .error e => .error (internalError e)
      | .ok replicas =>
        match replicas with
        | _ :: replica :: _ => .ok replica
        | _ => .error (internalError
            ("503: Primary node " ++ toString nodeId ++ " is down and no replicas available"))

/-- The nodes `get_key` tries, in order: the healthy members of the replica list for `n=2`. -/
def getKeyTargets (g : Gateway) (key : String) : Except HttpError (List Nat) :=
  match g.hashRing.getNodesForReplication hash key 2 with
  | .error e => .error (internalError e)
  | .ok replicas => .ok (replicas.filter (· ∈ g.healthyNodes))

/-- The node `delete_key` sends to: the primary, or a 503 (surfacing as a 500) when it is down. -/
def deleteKeyTarget (g : Gateway) (key : String) : Except HttpError Nat :=
  match g.hashRing.getNode hash key with
  | .error e => .error (internalError e)
  | .ok nodeId =>
    if nodeId ∈ g.healthyNodes then .ok nodeId
    else .error (internalError ("503: Primary node " ++ toString nodeId ++ " is down"))

/-- The node `exists_key` sends to: the primary, with no health check. -/
def existsKeyTarget (g : Gateway) (key : String) : Except HttpError Nat :=
  match g.hashRing.getNode hash key with
  | .error e => .error (internalError e)
  | .ok nodeId => .ok nodeId

/-! ### The ring tracks `healthy_nodes` -/

open ConsistentHashRing

/-- What the health monitor keeps true: the ring has its 150 virtual nodes per member, each
point is a label of its owner, and the owners are exactly the healthy nodes. -/
structure Consistent (g : Gateway) : Prop where
  virtualNodes : g.hashRing.virtualNodes = 150
  labelled : g.hashRing.PointsLabelled hash g.nodes.keys
  owners : ∀ n, g.hashRing.OwnsPoint n ↔ n ∈ g.healthyNodes

theorem consistent_init (nodes : PyDict Nat String) (hd : LabelsDistinct hash 150 nodes.keys) :
    Consistent hash (init hash nodes) where
  virtualNodes := init_virtualNodes hash _ _
  labelled := pointsLabelled_init hash _ _ fun _ h => h
  owners n := by
    rw [init, ownsPoint_init hash _ (fun _ h => h) hd (by decide)]
    simp

/-- One check of the health monitor keeps the ring and `healthy_nodes` in step. -/
theorem Consistent.checkNode {g : Gateway} (hc : Consistent hash g)
    (hd : LabelsDistinct hash 150 g.nodes.keys) {n : Nat} (hn : n ∈ g.nodes.keys)
    (o : HealthOutcome) : Consistent hash (g.checkNode hash n o) := by
  have hd' : LabelsDistinct hash g.hashRing.virtualNodes g.nodes.keys := hc.virtualNodes ▸ hd
  cases o <;> simp only [Gateway.checkNode] <;> split
  case ok.isTrue hh =>
    refine ⟨hc.virtualNodes, pointsLabelled_addNode hash hc.labelled hn, fun x => ?_⟩
    rw [ownsPoint_addNode hash hc.labelled hd' hn (by rw [hc.virtualNodes]; decide), hc.owners,
      Finset.mem_insert]
  case notOk.isTrue hh | unreachable.isTrue hh =>
    refine ⟨hc.virtualNodes, pointsLabelled_removeNode hash hc.labelled n, fun x => ?_⟩
    rw [ownsPoint_removeNode hash hc.labelled hd' hn, hc.owners, Finset.mem_erase]
  all_goals exact hc

theorem Reachable.consistent {nodes : PyDict Nat String} (hd : LabelsDistinct hash 150 nodes.keys)
    {g : Gateway} (h : Reachable hash nodes g) : Consistent hash g := by
  induction h with
  | init => exact consistent_init hash nodes hd
  | check n o hn hr ih =>
    rw [← reachable_nodes hash hr] at hd hn
    exact ih.checkNode hash hd hn o

/-- `set_key` posts to an owner of a ring point: the primary, or the second replica. -/
theorem setKeyTarget_ownsPoint {g : Gateway} {key : String} {n : Nat}
    (h : g.setKeyTarget hash key = .ok n) : g.hashRing.OwnsPoint n := by
  unfold setKeyTarget at h
  split at h
  · cases h
  · rename_i hget
    split at h
    · cases h; exact ownsPoint_of_getNode hash hget
    · split at h
      · cases h
      · rename_i replicas hrep
        split at h
        · cases h; exact ownsPoint_of_getNodesForReplication hash hrep (by simp)
        · cases h

/-- In a consistent state `set_key` posts only to a healthy node. -/
theorem Consistent.setKeyTarget_healthy {g : Gateway} (hc : Consistent hash g) {key : String}
    {n : Nat} (h : g.setKeyTarget hash key = .ok n) : n ∈ g.healthyNodes :=
  (hc.owners n).1 (setKeyTarget_ownsPoint hash h)

/-- Whatever the label hashes, every point of a reachable ring is a label of a configured node. -/
theorem Reachable.pointsLabelled {nodes : PyDict Nat String} {g : Gateway} (h : Reachable hash nodes g) :
    g.hashRing.PointsLabelled hash nodes.keys := by
  induction h with
  | init => exact pointsLabelled_init hash _ _ fun _ h => h
  | check n o hn _ ih =>
    cases o <;> simp only [checkNode] <;> split
    case ok.isTrue => exact pointsLabelled_addNode hash ih hn
    case notOk.isTrue | unreachable.isTrue => exact pointsLabelled_removeNode hash ih n
    all_goals exact ih

end Gateway

/-- Every lookup of `g`'s ring answers a healthy node, and every request handler forwards only
to healthy nodes; `get_node` succeeds once some node is healthy. -/
def Gateway.RoutesOnlyToHealthy (hash : String → Nat) (g : Gateway) : Prop :=
  ∀ key,
    (g.healthyNodes.Nonempty → ∃ n, g.hashRing.getNode hash key = .ok n) ∧
    (∀ n, g.hashRing.getNode hash key = .ok n → n ∈ g.healthyNodes) ∧
    (∀ l, g.hashRing.getNodesForReplication hash key 2 = .ok l → ∀ n ∈ l, n ∈ g.healthyNodes) ∧
    (∀ n, g.setKeyTarget hash key = .ok n → n ∈ g.healthyNodes) ∧
    (∀ l, g.getKeyTargets hash key = .ok l → ∀ n ∈ l, n ∈ g.healthyNodes) ∧
    (∀ n, g.deleteKeyTarget hash key = .ok n → n ∈ g.healthyNodes) ∧
    (∀ n, g.existsKeyTarget hash key = .ok n → n ∈ g.healthyNodes)

/-- The gateway's routing never leaves the healthy set. From `Gateway(nodes)`, after any
health checks with any outcomes, when the labels of the configured nodes hash apart, the nodes
owning ring points are exactly `healthy_nodes`, and so every lookup and handler stays on
healthy nodes. -/
theorem gateway_routes_to_healthy (hash : String → Nat) (nodes : PyDict Nat String)
    (hd : ConsistentHashRing.LabelsDistinct hash 150 nodes.keys) {g : Gateway}
    (hg : Gateway.Reachable hash nodes g) :
    (∀ n, g.hashRing.OwnsPoint n ↔ n ∈ g.healthyNodes) ∧ g.RoutesOnlyToHealthy hash := by
  have hc := hg.consistent hash hd
  refine ⟨hc.owners, fun key => ⟨fun ⟨m, hm⟩ => ?_, fun n h => ?_, fun l h n hn => ?_,
    fun n h => hc.setKeyTarget_healthy hash h, fun l h n hn => ?_, fun n h => ?_, fun n h => ?_⟩⟩
  · obtain ⟨p, hp⟩ := (hc.owners m).2 hm
    have hne : g.hashRing.ring.size ≠ 0 := fun h0 => by simp [PyDict.size_eq_zero_iff.1 h0 p] at hp
    obtain ⟨_, o, -, -, hget⟩ := ConsistentHashRing.getNode_eq_owner hash key hne
    exact ⟨o, hget⟩
  · exact (hc.owners n).1 (ConsistentHashRing.ownsPoint_of_getNode hash h)
  · exact (hc.owners n).1 (ConsistentHashRing.ownsPoint_of_getNodesForReplication hash h hn)
  · unfold Gateway.getKeyTargets at h
    split at h
    · cases h
    · cases h; simpa using (List.mem_filter.1 hn).2
  · unfold Gateway.deleteKeyTarget at h
    split at h
    · cases h
    · split at h
      · cases h; assumption
      · cases h
  · unfold Gateway.existsKeyTarget at h
    split at h
    · cases h
    · rename_i hget; cases h
      exact (hc.owners n).1 (ConsistentHashRing.ownsPoint_of_getNode hash hget)

/-- A list whose adjacent pairs increase is strictly increasing: a check of linear length that
`decide` runs where `Nodup` would compare every pair. -/
theorem pairwise_lt_of_zip_tail : ∀ {l : List Nat},
    (l.zip l.tail).all (fun p => decide (p.1 < p.2)) = true → l.Pairwise (· < ·)
  | [], _ => .nil
  | [_], _ => List.pairwise_singleton _ _
  | a :: b :: l, h => by
    simp only [List.tail_cons, List.zip_cons_cons, List.all_cons, Bool.and_eq_true,
      decide_eq_true_eq] at h
    have hl := pairwise_lt_of_zip_tail h.2
    exact List.pairwise_cons.2 ⟨fun x hx => (List.mem_cons.1 hx).elim (· ▸ h.1)
      fun hx => h.1.trans (List.rel_of_pairwise_cons hl hx), hl⟩

/-- A label's bytes as a base-256 number, under its first character: every label of node `1`
hashes below every label of node `2`, and a node's labels increase with their index. -/
def prefixHash (s : String) : Nat :=
  (s.toList.headD ' ').toNat * 2 ^ 64 + s.toList.foldl (fun acc c => acc * 256 + c.toNat) 0

set_option maxRecDepth 4000 in
/-- Two configured nodes, node `2`'s health check has just failed: node `1` alone is healthy and
owns the ring. -/
theorem gateway_routes_to_healthy_node_down :
    let nodes : PyDict Nat String := ⟨[(1, "http://localhost:8001"), (2, "http://localhost:8002")], by decide⟩
    let g := (Gateway.init prefixHash nodes).checkNode prefixHash 2 .unreachable
    ConsistentHashRing.LabelsDistinct prefixHash 150 nodes.keys ∧ Gateway.Reachable prefixHash nodes g ∧
      g.healthyNodes = {1} ∧ (∀ n, g.hashRing.OwnsPoint n ↔ n ∈ g.healthyNodes) ∧
      g.RoutesOnlyToHealthy prefixHash :=
  have hd := ConsistentHashRing.labelsDistinct_of_nodup _
    ((pairwise_lt_of_zip_tail (by decide)).imp ne_of_lt)
  have hg := Gateway.Reachable.check 2 .unreachable (by decide) .init
  ⟨hd, hg, by decide, gateway_routes_to_healthy _ _ hd hg⟩

end MiniKV
