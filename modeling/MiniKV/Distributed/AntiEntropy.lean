/-
Module: MiniKV.Distributed.AntiEntropy
Purpose: `AntiEntropy` of distributed/merkle_tree.py, run against the nodes of `NodeServer`.
  `sync_nodes` reads both nodes' maps (`GET /stats`) and compares their Merkle roots. On a
  difference it posts replica writes: keys only on the first node go to the second, keys only
  on the second go to the first, and conflicting keys go to the second with the first node's
  value. `sync_cluster` runs it over every pair `(i, j)`, `i < j`, of the registry's ids. Nodes
  are addressed by id (each id's URL names that node); whether each HTTP request goes through
  is a parameter (`SyncNet`). When every request is answered and nothing the cycle hashes
  collides, one cycle leaves every node with the same map as `json.dumps` sees it: the union
  of the initial maps in which the node earliest in the registry wins each key
  (`syncCluster_converges`). The induction follows the pair loop. The pairs of the first id
  leave it with the whole union and leave the other ids with views whose union is that same
  union, and the pairs of the remaining ids are the same loop one id shorter.
Trusted boundary: none
Main exports: SyncNet, SyncStats, AntiEntropy.copyKeys, AntiEntropy.syncNodes, pairsOf,
  ClusterStats, AntiEntropy.syncCluster, jsonView, earliestWins, AntiEntropy.syncNodes_allOk,
  syncCluster_converges
-/
import MiniKV.Distributed.Merkle
import MiniKV.Distributed.NodeServer

namespace MiniKV

/-- What the HTTP requests of a sync come back with: whether a node's `GET /stats` answers 200,
and whether a `POST /set` of a key to a node goes through. -/
structure SyncNet where
  statsOk : Nat → Bool
  setOk : Nat → String → Bool

/-- Every request answered. -/
def SyncNet.allOk : SyncNet := ⟨fun _ => true, fun _ _ => true⟩

@[simp] theorem SyncNet.allOk_statsOk (n : Nat) : SyncNet.allOk.statsOk n = true := rfl

@[simp] theorem SyncNet.allOk_setOk (n : Nat) (key : String) : SyncNet.allOk.setOk n key = true :=
  rfl

/-- The `stats` dict of `sync_nodes`. -/
structure SyncStats where
  synced : Bool
  keysSynced : Nat
  keysOnlyInNode1 : Nat
  keysOnlyInNode2 : Nat
  keysWithConflicts : Nat
  error : Option String

/-- The `stats` dict before anything happened. -/
def SyncStats.init : SyncStats := ⟨false, 0, 0, 0, 0, none⟩

/-- The `total_stats` dict of `sync_cluster`. -/
structure ClusterStats where
  pairsSynced : Nat
  totalKeysSynced : Nat
  errors : List String

/-- `(node_ids[i], node_ids[j])` for `i < j`, in the order of the two nested loops. -/
def pairsOf {α : Type} : List α → List (α × α)
  | [] => []
  | x :: xs => xs.map (fun y => (x, y)) ++ pairsOf xs

namespace AntiEntropy

/-- The replica write `POST /set {key, value, is_replica: true}`, handled by node `dst`. -/
def postReplica (node : Nat → NodeServer Json) (dst : Nat) (key : String) (value : Json) :
    Nat → NodeServer Json :=
  Function.update node dst ((node dst).setKey key value true).node

/-- One copy loop of `sync_nodes`: post each key's value in `data` to node `dst`, counting the
requests that go through. A failed request is printed and skipped, and so is a key `data`
lacks (its `KeyError` falls into the same `except`). -/
def copyKeys (net : SyncNet) (data : PyDict String Json) (dst : Nat) :
    (Nat → NodeServer Json) → List String → (Nat → NodeServer Json) × Nat
  | node, [] => (node, 0)
  | node, key :: keys =>
    match data.get? key, net.setOk dst key with
    | some value, true =>
      let r := copyKeys net data dst (postReplica node dst key value) keys
      (r.1, r.2 + 1)
    | _, _ => copyKeys net data dst node keys

/-- `sync_nodes(node1_url, node2_url)`. -/
def syncNodes (sha : String → String) (net : SyncNet) (node : Nat → NodeServer Json)
    (id1 id2 : Nat) : (Nat → NodeServer Json) × SyncStats :=
  if net.statsOk id1 && net.statsOk id2 then
    let data1 := (node id1).store.data
    let data2 := (node id2).store.data
    let tree1 := MerkleTree.new sha data1
    let tree2 := MerkleTree.new sha data2
    if tree1.getRootHash = tree2.getRootHash then (node, { SyncStats.init with synced := true })
    else
      let keys := tree1.getDivergentKeys tree2
      let r1 := copyKeys net data1 id2 node keys.1
      let r2 := copyKeys net data2 id1 r1.1 keys.2.1
      let r3 := copyKeys net data1 id2 r2.1 keys.2.2
      (r3.1, ⟨true, r1.2 + r2.2 + r3.2, keys.1.length, keys.2.1.length, keys.2.2.length, none⟩)
  else (node, { SyncStats.init with error := some "Failed to fetch node stats" })

/-- One iteration of the pair loop of `sync_cluster`. -/
def syncPair (sha : String → String) (net : SyncNet)
    (acc : (Nat → NodeServer Json) × ClusterStats) (p : Nat × Nat) :
    (Nat → NodeServer Json) × ClusterStats :=
  let r := syncNodes sha net acc.1 p.1 p.2
  (r.1, if r.2.synced then
      { acc.2 with pairsSynced := acc.2.pairsSynced + 1,
                   totalKeysSynced := acc.2.totalKeysSynced + r.2.keysSynced }
    else
      { acc.2 with errors := acc.2.errors ++
          ["Node " ++ toString p.1 ++ " <-> " ++ toString p.2 ++ ": " ++ r.2.error.getD "None"] })

/-- `sync_cluster(nodes)`. -/
def syncCluster (sha : String → String) (net : SyncNet) (nodes : PyDict Nat String)
    (node : Nat → NodeServer Json) : (Nat → NodeServer Json) × ClusterStats :=
  (pairsOf nodes.keys).foldl (syncPair sha net) (node, ⟨0, 0, []⟩)

/-- The nodes after a run of pair syncs, without the statistics. -/
def runPairs (sha : String → String) (net : SyncNet) (node : Nat → NodeServer Json)
    (pairs : List (Nat × Nat)) : Nat → NodeServer Json :=
  pairs.foldl (fun node p => (syncNodes sha net node p.1 p.2).1) node

/-- Every string the Merkle trees of a run of pair syncs hash. -/
def hashedAlong (sha : String → String) (net : SyncNet) :
    (Nat → NodeServer Json) → List (Nat × Nat) → List String
  | _, [] => []
  | node, (i, j) :: ps =>
    (if net.statsOk i && net.statsOk j then
      MerkleTree.hashed sha (node i).store.data ++ MerkleTree.hashed sha (node j).store.data
    else []) ++ hashedAlong sha net (syncNodes sha net node i j).1 ps

end AntiEntropy

/-! ### Maps as `json.dumps` sees them -/

/-- Each key's value text. -/
def jsonView (d : PyDict String Json) (k : String) : Option (List Char) :=
  (d.get? k).map (dumps true)

/-- The key-wise union of maps in which the earliest map holding a key wins it. -/
def earliestWins (maps : List (PyDict String Json)) (k : String) : Option Json :=
  maps.foldr (fun m acc => (m.get? k).or acc) none

/-- Views united the same way. -/
def joinViews (views : List (String → Option (List Char))) (k : String) : Option (List Char) :=
  views.foldr (fun f acc => (f k).or acc) none

theorem map_earliestWins (maps : List (PyDict String Json)) (k : String) :
    (earliestWins maps k).map (dumps true) = joinViews (maps.map jsonView) k := by
  induction maps with
  | nil => rfl
  | cons m ms ih =>
    simp only [earliestWins, joinViews] at ih ⊢
    simp only [List.foldr_cons, List.map_cons, Option.map_or', ih]
    rfl

theorem or_or_self {β : Type} (a b : Option β) : (a.or (a.or b)) = a.or b := by
  cases a <;> rfl

/-! ### One copy loop -/

namespace AntiEntropy

variable (net : SyncNet) (data : PyDict String Json) (dst : Nat)

@[simp] theorem postReplica_of_ne (node : Nat → NodeServer Json) {n : Nat} (hn : n ≠ dst)
    (key : String) (value : Json) : postReplica node dst key value n = node n :=
  Function.update_noteq hn _ _

@[simp] theorem get?_postReplica (node : Nat → NodeServer Json) (key k : String) (value : Json) :
    (postReplica node dst key value dst).store.data.get? k =
      if key = k then some value else (node dst).store.data.get? k := by
  simp [postReplica, NodeServer.setKey]

theorem copyKeys_of_ne {n : Nat} (hn : n ≠ dst) :
    ∀ (node : Nat → NodeServer Json) (keys : List String),
      (copyKeys net data dst node keys).1 n = node n
  | _, [] => rfl
  | node, key :: keys => by
    unfold copyKeys
    split
    · rw [copyKeys_of_ne hn _ keys, postReplica_of_ne _ _ hn]
    · exact copyKeys_of_ne hn node keys

/-- After a copy loop, node `dst` holds `data`'s value at every key whose request went through,
and its own value elsewhere. -/
theorem get?_copyKeys (k : String) (node : Nat → NodeServer Json) (keys : List String) :
    ((copyKeys net data dst node keys).1 dst).store.data.get? k =
      if k ∈ keys ∧ net.setOk dst k = true then (data.get? k).or ((node dst).store.data.get? k)
      else (node dst).store.data.get? k := by
  induction keys generalizing node with
  | nil => simp [copyKeys]
  | cons key keys ih =>
    unfold copyKeys
    split
    · rename_i value hv hok
      rw [ih, get?_postReplica]
      by_cases hk : key = k
      · subst hk; simp [hv, hok]
      · simp [hk, Ne.symm hk]
    · rename_i hnot
      rw [ih]
      by_cases hk : key = k
      · subst hk
        cases hv : data.get? key <;> cases hok : net.setOk dst key <;> simp_all
      · simp [Ne.symm hk]

/-! ### One pair -/

variable {sha : String → String}

/-- `sync_nodes` with every request answered: the two nodes end with the union of their maps
in which the first node wins conflicts (as `json.dumps` sees it), and no other node changes. -/
theorem syncNodes_allOk (hsha : HexDigest sha) (node : Nat → NodeServer Json) (i j : Nat)
    (hcf : CollisionFreeOn sha
      (MerkleTree.hashed sha (node i).store.data ++ MerkleTree.hashed sha (node j).store.data)) :
    (∀ n, n ≠ i → n ≠ j → (syncNodes sha .allOk node i j).1 n = node n) ∧
      jsonView ((syncNodes sha .allOk node i j).1 i).store.data =
        (fun k => (jsonView (node i).store.data k).or (jsonView (node j).store.data k)) ∧
      jsonView ((syncNodes sha .allOk node i j).1 j).store.data =
        fun k => (jsonView (node i).store.data k).or (jsonView (node j).store.data k) := by
  by_cases hroot : (MerkleTree.new sha (node i).store.data).getRootHash =
      (MerkleTree.new sha (node j).store.data).getRootHash
  · have hview : jsonView (node i).store.data = jsonView (node j).store.data :=
      funext ((getRootHash_eq_iff sha hsha _ _ hcf).1 hroot)
    have hsync : (syncNodes sha .allOk node i j).1 = node := by
      simp [syncNodes, SyncNet.allOk, hroot]
    rw [hsync, ← hview]
    exact ⟨fun _ _ _ => rfl, funext fun _ => Option.or_self.symm,
      funext fun _ => by rw [hview, Option.or_self]⟩
  · have hij : i ≠ j := by rintro rfl; exact hroot rfl
    simp only [syncNodes, SyncNet.allOk, Bool.and_self, ite_true, hroot, ite_false]
    refine ⟨fun n hi hj => by rw [copyKeys_of_ne _ _ _ hj, copyKeys_of_ne _ _ _ hi,
      copyKeys_of_ne _ _ _ hj], funext fun k => ?_, funext fun k => ?_⟩
    · rw [jsonView, copyKeys_of_ne _ _ _ hij, get?_copyKeys, copyKeys_of_ne _ _ _ hij]
      classical
      simp only [mem_onlyInOther]
      cases h₁ : (node i).store.data.get? k <;> cases h₂ : (node j).store.data.get? k <;>
        simp [SyncNet.allOk, jsonView, h₁, h₂]
    · rw [jsonView, get?_copyKeys, copyKeys_of_ne _ _ _ (Ne.symm hij), get?_copyKeys]
      classical
      simp only [mem_onlyInSelf, mem_differentValues]
      cases h₁ : (node i).store.data.get? k with
      | none => simp [SyncNet.allOk, jsonView, h₁]
      | some v₁ =>
        cases h₂ : (node j).store.data.get? k with
        | none => simp [SyncNet.allOk, jsonView, h₁, h₂]
        | some v₂ =>
          have hleaf := get?_leaves_eq_iff sha _ _ k hcf h₁ h₂
          by_cases hd : dumps true v₁ = dumps true v₂
          · simp [SyncNet.allOk, jsonView, h₁, h₂, hleaf.2 hd, hd]
          · simp [SyncNet.allOk, jsonView, h₁, h₂, mt hleaf.1 hd]

/-! ### The pair loop -/

section Loop

variable (sha) (net : SyncNet)

theorem runPairs_cons (node : Nat → NodeServer Json) (i j : Nat) (ps : List (Nat × Nat)) :
    runPairs sha net node ((i, j) :: ps) = runPairs sha net (syncNodes sha net node i j).1 ps :=
  rfl

theorem runPairs_append (node : Nat → NodeServer Json) (ps qs : List (Nat × Nat)) :
    runPairs sha net node (ps ++ qs) = runPairs sha net (runPairs sha net node ps) qs :=
  List.foldl_append _ _ _ _

theorem hashedAlong_append (node : Nat → NodeServer Json) (ps qs : List (Nat × Nat)) :
    hashedAlong sha net node (ps ++ qs) =
      hashedAlong sha net node ps ++ hashedAlong sha net (runPairs sha net node ps) qs := by
  induction ps generalizing node with
  | nil => rfl
  | cons p ps ih =>
    obtain ⟨i, j⟩ := p
    rw [List.cons_append, hashedAlong, hashedAlong, ih, List.append_assoc]
    rfl

theorem fst_foldl_syncPair (node : Nat → NodeServer Json) (st : ClusterStats)
    (ps : List (Nat × Nat)) : (ps.foldl (syncPair sha net) (node, st)).1 = runPairs sha net node ps := by
  induction ps generalizing node st with
  | nil => rfl
  | cons p ps ih => exact ih _ _

end Loop

/-- The pairs of one id `x` with the ids after it: `x` ends with its view united with all of
theirs, and together they hold the same union, `x`'s view first. -/
theorem runPairs_star (hsha : HexDigest sha) (x : Nat) (ys : List Nat) (hx : x ∉ ys)
    (hys : ys.Nodup) (node : Nat → NodeServer Json)
    (hcf : CollisionFreeOn sha (hashedAlong sha .allOk node (ys.map fun y => (x, y)))) :
    (∀ n, n ≠ x → n ∉ ys → runPairs sha .allOk node (ys.map fun y => (x, y)) n = node n) ∧
      (∀ k, jsonView (runPairs sha .allOk node (ys.map fun y => (x, y)) x).store.data k =
        (jsonView (node x).store.data k).or
          (joinViews (ys.map fun y => jsonView (node y).store.data) k)) ∧
      (ys ≠ [] → ∀ k, joinViews (ys.map fun y =>
          jsonView (runPairs sha .allOk node (ys.map fun y => (x, y)) y).store.data) k =
        (jsonView (node x).store.data k).or
          (joinViews (ys.map fun y => jsonView (node y).store.data) k)) := by
  induction ys generalizing node with
  | nil => exact ⟨fun _ _ _ => rfl, fun k => Option.or_none.symm, fun h => absurd rfl h⟩
  | cons y ys ih =>
    simp only [List.mem_cons, not_or] at hx
    rw [List.nodup_cons] at hys
    simp only [List.map_cons, hashedAlong, SyncNet.allOk_statsOk, Bool.and_self, if_true] at hcf
    have hpair := syncNodes_allOk hsha node x y (hcf.mono (List.subset_append_left _ _))
    obtain ⟨hothers, hview, hlast⟩ := ih hx.2 hys.2 _ (hcf.mono (List.subset_append_right _ _))
    have hrest : ∀ z ∈ ys, (syncNodes sha .allOk node x y).1 z = node z := fun z hz =>
      hpair.1 z (fun h => hx.2 (h ▸ hz)) (fun h => hys.1 (h ▸ hz))
    have hjoin : ∀ k, joinViews (ys.map fun z => jsonView ((syncNodes sha .allOk node x y).1 z).store.data) k =
        joinViews (ys.map fun z => jsonView (node z).store.data) k := fun k => by
      rw [List.map_congr_left fun z hz => by rw [hrest z hz]]
    have hy : runPairs sha .allOk (syncNodes sha .allOk node x y).1 (ys.map fun z => (x, z)) y =
        (syncNodes sha .allOk node x y).1 y := hothers y (Ne.symm hx.1) hys.1
    simp only [List.map_cons, runPairs_cons]
    refine ⟨fun n hnx hn => ?_, fun k => ?_, fun _ k => ?_⟩
    · simp only [List.mem_cons, not_or] at hn
      rw [hothers n hnx hn.2, hpair.1 n hnx hn.1]
    · rw [hview, hjoin, hpair.2.1]
      simp only [joinViews, List.foldr_cons, Option.or_assoc]
    · simp only [joinViews, List.foldr_cons]
      rw [hy, hpair.2.2]
      by_cases hne : ys = []
      · subst hne; simp [Option.or_none]
      · have := hlast hne k
        simp only [joinViews] at this hjoin
        rw [this, hpair.2.1, hjoin]
        exact (or_or_self _ _).trans Option.or_assoc

/-- The whole pair loop over distinct ids: every id ends with the union of the initial views,
the earliest id winning each key; ids outside the loop are untouched. -/
theorem runPairs_pairsOf (hsha : HexDigest sha) (ids : List Nat) (hids : ids.Nodup)
    (node : Nat → NodeServer Json)
    (hcf : CollisionFreeOn sha (hashedAlong sha .allOk node (pairsOf ids))) :
    (∀ n ∉ ids, runPairs sha .allOk node (pairsOf ids) n = node n) ∧
      ∀ n ∈ ids, ∀ k, jsonView (runPairs sha .allOk node (pairsOf ids) n).store.data k =
        joinViews (ids.map fun m => jsonView (node m).store.data) k := by
  induction ids generalizing node with
  | nil => exact ⟨fun _ _ => rfl, fun _ h => nomatch h⟩
  | cons x xs ih =>
    rw [List.nodup_cons] at hids
    rw [pairsOf, hashedAlong_append] at hcf
    obtain ⟨hothers, hx, hjoin⟩ := runPairs_star hsha x xs hids.1 hids.2 node
      (hcf.mono (List.subset_append_left _ _))
    obtain ⟨hout, hin⟩ := ih hids.2 _ (hcf.mono (List.subset_append_right _ _))
    rw [pairsOf, runPairs_append]
    refine ⟨fun n hn => ?_, fun n hn k => ?_⟩
    · simp only [List.mem_cons, not_or] at hn
      rw [hout n hn.2, hothers n hn.1 hn.2]
    · rcases List.mem_cons.1 hn with rfl | hn
      · rw [hout n hids.1, hx]; rfl
      · rw [hin n hn, hjoin (List.ne_nil_of_mem hn)]; rfl

end AntiEntropy

/-- Anti-entropy converges in one cycle: with every request answered and no collision among
the strings the cycle hashes, every registered node ends with the same map as `json.dumps`
sees it, the union of the initial maps in which the node earliest in the registry wins. -/
theorem syncCluster_converges (sha : String → String) (hsha : HexDigest sha)
    (nodes : PyDict Nat String) (node : Nat → NodeServer Json)
    (hcf : CollisionFreeOn sha (AntiEntropy.hashedAlong sha .allOk node (pairsOf nodes.keys))) :
    ∀ n ∈ nodes.keys, ∀ k,
      (((AntiEntropy.syncCluster sha .allOk nodes node).1 n).store.data.get? k).map (dumps true) =
        (earliestWins (nodes.keys.map fun m => (node m).store.data) k).map (dumps true) := by
  intro n hn k
  rw [AntiEntropy.syncCluster, AntiEntropy.fst_foldl_syncPair, map_earliestWins, List.map_map]
  exact (AntiEntropy.runPairs_pairsOf hsha nodes.keys nodes.nodup node hcf).2 n hn k

/-- Two nodes that share the key `k` with different values: node 1 holds
`a:b ↦ null, k ↦ true, m ↦ "x"` and node 2 `k ↦ false, z ↦ []`. -/
def sampleNode (n : Nat) : NodeServer Json :=
  ⟨n, ⟨if n = 1 then ⟨[("a:b", .null), ("k", .bool true), ("m", .string "x")], by decide⟩
    else ⟨[("k", .bool false), ("z", .array [])], by decide⟩, none, none⟩, PyDict.empty⟩

/-- The registry of the two nodes. -/
def sampleRegistry : PyDict Nat String :=
  ⟨[(1, "http://localhost:8001"), (2, "http://localhost:8002")], by decide⟩

set_option maxRecDepth 8000 in
/-- After one cycle both nodes hold the union of the two maps, and node 2 reads node 1's `true`
at the shared key `k`: node 1 comes first in the registry. -/
theorem syncCluster_converges_two_nodes :
    CollisionFreeOn polyDigest
        (AntiEntropy.hashedAlong polyDigest .allOk sampleNode (pairsOf sampleRegistry.keys)) ∧
      (∀ n ∈ sampleRegistry.keys, ∀ k,
        (((AntiEntropy.syncCluster polyDigest .allOk sampleRegistry sampleNode).1 n).store.data.get?
          k).map (dumps true) =
        (earliestWins (sampleRegistry.keys.map fun m => (sampleNode m).store.data) k).map
          (dumps true)) ∧
      (((AntiEntropy.syncCluster polyDigest .allOk sampleRegistry sampleNode).1 2).store.data.get?
          "k").map (dumps true) = some (dumps true (.bool true)) := by
  have hcf : CollisionFreeOn polyDigest
      (AntiEntropy.hashedAlong polyDigest .allOk sampleNode (pairsOf sampleRegistry.keys)) := by
    simp only [sampleRegistry, PyDict.keys, List.map_cons, List.map_nil, pairsOf, List.append_nil,
      List.nil_append, List.singleton_append, AntiEntropy.hashedAlong, SyncNet.allOk_statsOk,
      Bool.and_self, if_true, MerkleTree.hashed, leafHashes, leafTexts]
    rw [encodedEntries_of_sorted (by decide), encodedEntries_of_sorted (by decide)]
    simp only [sampleNode, reduceIte, Nat.reduceEqDiff, List.map_cons, List.map_nil,
      treeInputs_cons_cons, pairInputs, treeInputs_singleton, List.append_nil, dumps]
    exact CollisionFreeOn.of_nodup (by decide)
  have h := syncCluster_converges polyDigest hexDigest_polyDigest sampleRegistry sampleNode hcf
  exact ⟨hcf, h, (h 2 (by decide) "k").trans (by decide)⟩

end MiniKV
