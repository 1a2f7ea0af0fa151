/-
Module: MiniKV.Distributed.NodeServer
Purpose: The request handlers of `distributed/node_server.py` and the message network between
  nodes. A node is its id, the store behind its `Router` and its `peers` registry. Each handler
  returns the new node, the response body, and the work it hands to `asyncio.create_task`:
  `_replicate_set` and `_replicate_delete` are one fan-out (`fanOut`) of a request to every
  registered peer, and `_read_repair` is a task that reads its peers one at a time through
  their public `GET /get/{key}` and posts a replica `SET` where the answer differs; `get_key`
  starts one only for a value that is not `None` (`PyNone`, a JSON `null` for `Json`). Peers are
  addressed by id (the registry's URL names that node). A `Cluster` holds every node, the
  requests and repair tasks in flight, and a count of the HTTP requests one node has made to
  another; `Cluster.Step` delivers, loses or advances any item in flight, in any order.
Trusted boundary: none
Main exports: PyNone, Request, Response, Pending, NodeServer, NodeServer.setKey,
  NodeServer.getKey, NodeServer.deleteKey, NodeServer.registerPeer, Cluster, Cluster.Step
-/
import MiniKV.Core.Store
import MiniKV.Json.Value
import Mathlib.Logic.Function.Basic

namespace MiniKV

/-- Python's `value is None` on the values a node stores. -/
class PyNone (V : Type) where
  isNone : V → Bool

/-- A JSON `null` is `None` once decoded. -/
instance : PyNone Json := ⟨fun v => v matches .null⟩

/-- A request a node serves. -/
inductive Request (V : Type) where
  /-- `POST /set` with `{key, value, is_replica}`. -/
  | set (key : String) (value : V) (isReplica : Bool)
  /-- `GET /get/{key}`. -/
  | get (key : String)
  /-- `DELETE /delete/{key}`. -/
  | delete (key : String)

/-- A response body. -/
inductive Response (V : Type) where
  | setOk (nodeId : Nat)
  | value (key : String) (value : Option V) (nodeId : Nat)
  | deleted (deleted : Bool) (nodeId : Nat)

/-- Work in flight: a request on the wire (`src` is the sending node, `none` for a client or
the gateway), or a `_read_repair` task with the peers it has still to read. -/
inductive Pending (V : Type) where
  | request (src : Option Nat) (dst : Nat) (req : Request V)
  | readRepair (origin : Nat) (key : String) (expected : V) (peers : List Nat)

/-- The parts of a `NodeServer` its handlers read and write. -/
structure NodeServer (V : Type) where
  nodeId : Nat
  store : KeyValueStore V
  peers : PyDict Nat String

/-- What a handler leaves behind. -/
structure Handled (V : Type) where
  node : NodeServer V
  response : Response V
  spawned : List (Pending V)

namespace NodeServer

variable {V : Type}

/-- The shared body of `_replicate_set` and `_replicate_delete`: one request to each peer. -/
def fanOut (n : NodeServer V) (req : Request V) : List (Pending V) :=
  n.peers.keys.map fun p => .request (some n.nodeId) p req

/-- `_replicate_set(key, value)`: a replica write to each peer. -/
def replicateSet (n : NodeServer V) (key : String) (value : V) : List (Pending V) :=
  n.fanOut (.set key value true)

/-- `_replicate_delete(key)`: a `DELETE /delete/{key}` to each peer. -/
def replicateDelete (n : NodeServer V) (key : String) : List (Pending V) :=
  n.fanOut (.delete key)

/-- `set_key`: write locally; a primary write with peers is replicated to all of them. -/
def setKey (n : NodeServer V) (key : String) (value : V) (isReplica : Bool) : Handled V :=
  ⟨{ n with store := n.store.set key value }, .setOk n.nodeId,
    if !isReplica && n.peers.size ≠ 0 then n.replicateSet key value else []⟩

/-- `get_key`: read locally; a value that is not `None`, on a node with peers, starts a read
repair. -/
def getKey [PyNone V] (n : NodeServer V) (key : String) : Handled V :=
  ⟨n, .value key (n.store.get key) n.nodeId,
    match n.store.get key with
    | some v =>
      if PyNone.isNone v = false ∧ n.peers.size ≠ 0 then [.readRepair n.nodeId key v n.peers.keys]
      else []
    | none => []⟩

/-- `delete_key`: delete locally; with peers, replicate the delete, whatever its result. -/
def deleteKey (n : NodeServer V) (key : String) : Handled V :=
  ⟨{ n with store := (n.store.delete key).2 }, .deleted (n.store.delete key).1 n.nodeId,
    if n.peers.size ≠ 0 then n.replicateDelete key else []⟩

/-- `register_peer(peer_id, peer_url)`. -/
def registerPeer (n : NodeServer V) (peerId : Nat) (peerUrl : String) : NodeServer V :=
  { n with peers := n.peers.insert peerId peerUrl }

/-- Route a request to its handler. -/
def handle [PyNone V] (n : NodeServer V) : Request V → Handled V
  | .set key value isReplica => n.setKey key value isReplica
  | .get key => n.getKey key
  | .delete key => n.deleteKey key

@[simp] theorem handle_node_nodeId [PyNone V] (n : NodeServer V) (req : Request V) :
    (n.handle req).node.nodeId = n.nodeId := by
  cases req <;> rfl

@[simp] theorem handle_node_peers [PyNone V] (n : NodeServer V) (req : Request V) :
    (n.handle req).node.peers = n.peers := by
  cases req <;> rfl

/-- A primary `SET` on a node that has `m` among its peers sends `m` the replica write. -/
theorem request_mem_handle_set [PyNone V] {n : NodeServer V} {m : Nat} (hm : m ∈ n.peers.keys) (key : String)
    (value : V) : .request (some n.nodeId) m (.set key value true) ∈ (n.handle (.set key value false)).spawned := by
  have hne : n.peers.size ≠ 0 := fun h => by
    rw [PyDict.size, List.length_eq_zero] at h
    simp [PyDict.keys, h] at hm
  simpa [handle, setKey, hne, replicateSet, fanOut] using hm

end NodeServer

/-! ### The network -/

/-- Every node, the work in flight, and the count of requests nodes have made to each other. -/
structure Cluster (V : Type) where
  node : Nat → NodeServer V
  pending : List (Pending V)
  interNode : Nat

namespace Cluster

variable {V : Type} [DecidableEq V] [PyNone V]

/-- The count a request adds when it reaches its node: one if a node sent it. -/
def sentBy : Option Nat → Nat
  | some _ => 1
  | none => 0

/-- A request reaches `dst`, which runs its handler; the rest of the work stays in flight. -/
def deliver (c : Cluster V) (rest : List (Pending V)) (src : Option Nat) (dst : Nat)
    (req : Request V) : Cluster V :=
  let h := (c.node dst).handle req
  ⟨Function.update c.node dst h.node, rest ++ h.spawned, c.interNode + sentBy src⟩

/-- A read-repair task of `origin` reads `peer` through its `GET /get/{key}` (which runs the
peer's handler), posts a replica write if the answer differs, and moves on to `peers`. -/
def readNext (c : Cluster V) (rest : List (Pending V)) (origin : Nat) (key : String)
    (expected : V) (peer : Nat) (peers : List Nat) : Cluster V :=
  let h := (c.node peer).getKey key
  ⟨Function.update c.node peer h.node,
    rest ++ h.spawned ++
      (if (c.node peer).store.get key ≠ some expected then
        [.request (some origin) peer (.set key expected true)] else []) ++
      (if peers = [] then [] else [.readRepair origin key expected peers]),
    c.interNode + 1⟩

/-- One step of the network: any item in flight is delivered, lost, or advanced. -/
inductive Step : Cluster V → Cluster V → Prop
  | deliver {c : Cluster V} (pre post : List (Pending V)) (src : Option Nat) (dst : Nat)
      (req : Request V) (h : c.pending = pre ++ .request src dst req :: post) :
      Step c (c.deliver (pre ++ post) src dst req)
  | drop {c : Cluster V} (pre post : List (Pending V)) (src : Option Nat) (dst : Nat)
      (req : Request V) (h : c.pending = pre ++ .request src dst req :: post) :
      Step c { c with pending := pre ++ post }
  | readNext {c : Cluster V} (pre post : List (Pending V)) (origin : Nat) (key : String)
      (expected : V) (peer : Nat) (peers : List Nat)
      (h : c.pending = pre ++ .readRepair origin key expected (peer :: peers) :: post) :
      Step c (c.readNext (pre ++ post) origin key expected peer peers)
  | readFail {c : Cluster V} (pre post : List (Pending V)) (origin : Nat) (key : String)
      (expected : V) (peer : Nat) (peers : List Nat)
      (h : c.pending = pre ++ .readRepair origin key expected (peer :: peers) :: post) :
      Step c { c with pending := pre ++ post ++
        (if peers = [] then [] else [.readRepair origin key expected peers]) }

end Cluster

end MiniKV
