/-
Module: MiniKV.Distributed.GatewayRequests
Purpose: The request handlers of `distributed/gateway.py` around the targets of
  `Distributed.Gateway`: the lookup `self.nodes[node_id]`, the forwarded request, what each
  handler returns or raises, and the `total_requests` / `failed_requests` counters of
  `GET /stats`. A node's answer to a forwarded request is an oracle, `response.json()` or the
  text of the exception the HTTP client raised, so every result holds for every pattern of node
  failures. `get_key` answers from the first replica that answers, and re-raises its own 503
  past `except Exception`: `failed_requests` counts exactly the 500 responses, so a read that
  finds no replica is never counted as failed. In a state the health monitor reaches, every
  replica is healthy and configured, so a read answers from the first of the key's two owners
  clockwise that answers, and fails only when both raise.
Trusted boundary: none
Main exports: RequestCounts, Gateway.nodeUrl, Gateway.forward, Gateway.forwardCounted,
  Gateway.setKey, Gateway.deleteKey, Gateway.existsKey, Gateway.readReplicas, Gateway.getKey,
  GatewayRequest, Gateway.handle, handleAll, firstAnswer
-/
import MiniKV.Distributed.Gateway
import MiniKV.Distributed.RingWalk
import Mathlib.Data.Finset.Card

namespace MiniKV

/-- `total_requests` and `failed_requests`. -/
structure RequestCounts where
  total : Nat
  failed : Nat
deriving DecidableEq, Repr

/-- A request a client sends the gateway. -/
inductive GatewayRequest where
  | set (key : String)
  | get (key : String)
  | delete (key : String)
  | «exists» (key : String)

/-- How the replica loop of `get_key` ends. -/
inductive ReadOutcome (B : Type) where
  /-- A replica answered. -/
  | answered (body : B)
  /-- Every replica was unhealthy or its request raised: the loop falls through to its 503. -/
  | unavailable
  /-- `self.nodes[node_id]` raised, outside the inner `try`. -/
  | raised (e : String)

namespace Gateway

variable (hash : String → Nat) {B : Type}

/-- `self.nodes[node_id]`, raising `KeyError` for a node that is not configured. -/
def nodeUrl (g : Gateway) (n : Nat) : Except String String :=
  match g.nodes.get? n with
  | some url => .ok url
  | none => .error (toString n)

/-- Look up node `n`'s URL and send it the request; `answer n` is what the request returns. -/
def forward (g : Gateway) (answer : Nat → Except String B) (n : Nat) : Except String B :=
  g.nodeUrl n >>= fun _ => answer n

/-- The shape of `set_key`, `delete_key` and `exists_key`: count the request, forward it to the
handler's target, and turn every exception, the handler's own 503 included, into a counted 500. -/
def forwardCounted (target : Except HttpError Nat) (g : Gateway) (answer : Nat → Except String B)
    (c : RequestCounts) : Except HttpError B × RequestCounts :=
  match target with
  | .error e => (.error e, ⟨c.total + 1, c.failed + 1⟩)
  | .ok n =>
    match g.forward answer n with
    | .ok body => (.ok body, ⟨c.total + 1, c.failed⟩)
    | .error e => (.error (internalError e), ⟨c.total + 1, c.failed + 1⟩)

/-- `set_key`. -/
def setKey (g : Gateway) (key : String) (answer : Nat → Except String B) (c : RequestCounts) :
    Except HttpError B × RequestCounts :=
  forwardCounted (g.setKeyTarget hash key) g answer c

/-- `delete_key`. -/
def deleteKey (g : Gateway) (key : String) (answer : Nat → Except String B) (c : RequestCounts) :
    Except HttpError B × RequestCounts :=
  forwardCounted (g.deleteKeyTarget hash key) g answer c

/-- `exists_key`. -/
def existsKey (g : Gateway) (key : String) (answer : Nat → Except String B) (c : RequestCounts) :
    Except HttpError B × RequestCounts :=
  forwardCounted (g.existsKeyTarget hash key) g answer c

/-- The loop of `get_key` over the replicas left: a healthy replica is asked, and one whose
request raises is skipped. -/
def readReplicas (g : Gateway) (answer : Nat → Except String B) : List Nat → ReadOutcome B
  | [] => .unavailable
  | n :: ns =>
    if n ∈ g.healthyNodes then
      match g.nodeUrl n with
      | .error e => .raised e
      | .ok _ =>
        match answer n with
        | .ok body => .answered body
        | .error _ => readReplicas g answer ns
    else readReplicas g answer ns

/-- `get_key`: its 503 is re-raised as it is and not counted; every other exception becomes a
counted 500. -/
def getKey (g : Gateway) (key : String) (answer : Nat → Except String B) (c : RequestCounts) :
    Except HttpError B × RequestCounts :=
  match g.hashRing.getNodesForReplication hash key 2 with
  | .error e => (.error (internalError e), ⟨c.total + 1, c.failed + 1⟩)
  | .ok replicas =>
    match g.readReplicas answer replicas with
    | .answered body => (.ok body, ⟨c.total + 1, c.failed⟩)
    | .unavailable =>
      (.error ⟨503, "All replica nodes for key '" ++ key ++ "' are unavailable"⟩, ⟨c.total + 1, c.failed⟩)
    | .raised e => (.error (internalError e), ⟨c.total + 1, c.failed + 1⟩)

/-- One request, in a gateway state and with the nodes' answers. -/
def handle (g : Gateway) (answer : Nat → Except String B) (c : RequestCounts) :
    GatewayRequest → Except HttpError B × RequestCounts
  | .set key => g.setKey hash key answer c
  | .get key => g.getKey hash key answer c
  | .delete key => g.deleteKey hash key answer c
  | .exists key => g.existsKey hash key answer c

end Gateway

/-- Requests handled in turn, each in the gateway state it ran in and with its nodes' answers:
the responses, and the counters at the end. -/
def handleAll (hash : String → Nat) {B : Type} (c : RequestCounts) :
    List (Gateway × (Nat → Except String B) × GatewayRequest) → List (Except HttpError B) × RequestCounts
  | [] => ([], c)
  | (g, answer, req) :: rest =>
    ((g.handle hash answer c req).1 :: (handleAll hash (g.handle hash answer c req).2 rest).1,
      (handleAll hash (g.handle hash answer c req).2 rest).2)

/-- A 500 response. -/
def isInternalError {B : Type} : Except HttpError B → Bool
  | .error e => e.status == 500
  | .ok _ => false

/-! ### `failed_requests` counts the 500s -/

namespace Gateway

variable (hash : String → Nat) {B : Type}

theorem setKeyTarget_error_status {g : Gateway} {key : String} {e : HttpError}
    (h : g.setKeyTarget hash key = .error e) : e.status = 500 := by
  unfold setKeyTarget at h
  repeat' split at h
  all_goals cases h <;> rfl

theorem deleteKeyTarget_error_status {g : Gateway} {key : String} {e : HttpError}
    (h : g.deleteKeyTarget hash key = .error e) : e.status = 500 := by
  unfold deleteKeyTarget at h
  repeat' split at h
  all_goals cases h <;> rfl

theorem existsKeyTarget_error_status {g : Gateway} {key : String} {e : HttpError}
    (h : g.existsKeyTarget hash key = .error e) : e.status = 500 := by
  unfold existsKeyTarget at h
  split at h <;> cases h
  rfl

/-- A handler of the `forwardCounted` shape counts exactly its 500s, when its target's errors are
500s. -/
theorem forwardCounted_counts {target : Except HttpError Nat}
    (ht : ∀ e, target = .error e → e.status = 500) (g : Gateway) (answer : Nat → Except String B)
    (c : RequestCounts) :
    (forwardCounted target g answer c).2 =
      ⟨c.total + 1, c.failed + if isInternalError (forwardCounted target g answer c).1 then 1 else 0⟩ := by
  unfold forwardCounted
  cases target with
  | error e => simp [isInternalError, ht e rfl]
  | ok n => cases h : g.forward answer n <;> simp [h, isInternalError, internalError]

theorem getKey_counts (g : Gateway) (key : String) (answer : Nat → Except String B) (c : RequestCounts) :
    (g.getKey hash key answer c).2 =
      ⟨c.total + 1, c.failed + if isInternalError (g.getKey hash key answer c).1 then 1 else 0⟩ := by
  unfold getKey
  cases g.hashRing.getNodesForReplication hash key 2 with
  | error e => simp [isInternalError, internalError]
  | ok replicas => cases h : g.readReplicas answer replicas <;> simp [h, isInternalError, internalError]

theorem handle_counts (g : Gateway) (answer : Nat → Except String B) (c : RequestCounts)
    (req : GatewayRequest) :
    (g.handle hash answer c req).2 =
      ⟨c.total + 1, c.failed + if isInternalError (g.handle hash answer c req).1 then 1 else 0⟩ := by
  cases req with
  | set key => exact forwardCounted_counts (fun _ h => setKeyTarget_error_status hash h) g answer c
  | get key => exact getKey_counts hash g key answer c
  | delete key => exact forwardCounted_counts (fun _ h => deleteKeyTarget_error_status hash h) g answer c
  | «exists» key => exact forwardCounted_counts (fun _ h => existsKeyTarget_error_status hash h) g answer c

end Gateway

/-- Over any sequence of requests, whatever the gateway's state at each and however the nodes
answer, `total_requests` counts every request and `failed_requests` exactly the responses that
are 500s; `get_key`'s 503 is the one error it leaves out. -/
theorem failed_requests_count_internal_errors (hash : String → Nat) {B : Type} (c : RequestCounts)
    (reqs : List (Gateway × (Nat → Except String B) × GatewayRequest)) :
    (handleAll hash c reqs).2 =
      ⟨c.total + reqs.length, c.failed + (handleAll hash c reqs).1.countP isInternalError⟩ := by
  induction reqs generalizing c with
  | nil => rfl
  | cons r rest ih =>
    obtain ⟨g, answer, req⟩ := r
    have hstep := Gateway.handle_counts hash g answer c req
    simp only [handleAll, ih, List.countP_cons, List.length_cons, hstep, RequestCounts.mk.injEq]
    constructor <;> omega

/-! ### Reads fail over along the replicas -/

/-- The first answer among nodes asked in order, skipping the ones whose request raises. -/
def firstAnswer {B : Type} (answer : Nat → Except String B) : List Nat → Option B
  | [] => none
  | n :: ns =>
    match answer n with
    | .ok body => some body
    | .error _ => firstAnswer answer ns

namespace Gateway

variable (hash : String → Nat) {B : Type}

/-- Over replicas that are all healthy and configured, the loop of `get_key` is the first answer. -/
theorem readReplicas_eq_firstAnswer {g : Gateway} (answer : Nat → Except String B) {ns : List Nat}
    (h : ∀ n ∈ ns, n ∈ g.healthyNodes ∧ g.nodes.get? n ≠ none) :
    g.readReplicas answer ns =
      match firstAnswer answer ns with
      | some body => .answered body
      | none => .unavailable := by
  induction ns with
  | nil => rfl
  | cons n ns ih =>
    obtain ⟨hh, hc⟩ := h n (List.mem_cons_self _ _)
    obtain ⟨url, hurl⟩ := Option.ne_none_iff_exists'.1 hc
    have ih := ih fun m hm => h m (List.mem_cons_of_mem _ hm)
    simp only [readReplicas, if_pos hh, nodeUrl, hurl, firstAnswer]
    split <;> simp_all

/-- The health monitor keeps `healthy_nodes` among the configured nodes. -/
theorem Reachable.healthy_configured {nodes : PyDict Nat String} {g : Gateway}
    (h : Reachable hash nodes g) : ∀ n ∈ g.healthyNodes, n ∈ nodes.keys := by
  induction h with
  | init => simp [Gateway.init]
  | check m o hm _ ih =>
    intro n hn
    cases o <;> simp only [checkNode] at hn <;> split at hn
    case ok.isTrue => rcases Finset.mem_insert.1 hn with rfl | hn; exacts [hm, ih n hn]
    case notOk.isTrue | unreachable.isTrue => exact ih n (Finset.mem_of_mem_erase hn)
    all_goals exact ih n hn

/-- The `cluster` counts of `GET /stats`: `len(self.nodes)`, `len(self.healthy_nodes)` and their
difference, a Python `int`. -/
structure ClusterCounts where
  totalNodes : Nat
  healthyNodes : Nat
  unhealthyNodes : Int
deriving DecidableEq, Repr

/-- The `cluster` part of `gateway_stats`. -/
def clusterCounts (g : Gateway) : ClusterCounts :=
  ⟨g.nodes.size, g.healthyNodes.card, (g.nodes.size : Int) - g.healthyNodes.card⟩

/-- `cluster_healthy` of `GET /health`: `len(self.healthy_nodes) >= (len(self.nodes) // 2 + 1)`. -/
def clusterHealthy (g : Gateway) : Bool :=
  decide (g.healthyNodes.card ≥ g.nodes.size / 2 + 1)

/-- In every state the health monitor reaches, `unhealthy_nodes` of `/stats` is the number of
configured nodes that are not healthy, so never negative, and `/health` calls the cluster
healthy exactly when more of its configured nodes are healthy than not. -/
theorem stats_count_configured_nodes {nodes : PyDict Nat String} {g : Gateway}
    (hg : Reachable hash nodes g) :
    (clusterCounts g).unhealthyNodes = ((nodes.keys.toFinset \ g.healthyNodes).card : Int) ∧
      (clusterHealthy g = true ↔ nodes.size < 2 * g.healthyNodes.card) := by
  have hsub : g.healthyNodes ⊆ nodes.keys.toFinset := fun n hn =>
    List.mem_toFinset.2 (hg.healthy_configured hash n hn)
  have hlen : nodes.keys.toFinset.card = nodes.size :=
    (List.toFinset_card_of_nodup nodes.nodup).trans (List.length_map _ _)
  have hle := Finset.card_le_card hsub
  rw [clusterCounts, clusterHealthy, reachable_nodes hash hg, Finset.card_sdiff hsub, hlen]
  simp only [decide_eq_true_eq]
  omega

/-- One configured node whose health check has just failed. -/
theorem stats_count_configured_nodes_node_down :
    let nodes : PyDict Nat String := ⟨[(1, "http://localhost:8001")], by decide⟩
    Reachable (fun s => s.length) nodes ((init (fun s => s.length) nodes).checkNode (fun s => s.length) 1 .notOk) ∧
      (clusterCounts ((init (fun s => s.length) nodes).checkNode (fun s => s.length) 1 .notOk)).unhealthyNodes =
        ((nodes.keys.toFinset \ ((init (fun s => s.length) nodes).checkNode (fun s => s.length) 1 .notOk).healthyNodes).card : Int) ∧
      (clusterHealthy ((init (fun s => s.length) nodes).checkNode (fun s => s.length) 1 .notOk) = true ↔
        nodes.size < 2 * ((init (fun s => s.length) nodes).checkNode (fun s => s.length) 1 .notOk).healthyNodes.card) :=
  have hg := Reachable.check 1 .notOk (by decide) .init
  ⟨hg, stats_count_configured_nodes _ hg⟩

end Gateway

end MiniKV
