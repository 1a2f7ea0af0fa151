/-
Module: MiniKV.Distributed.Merkle
Purpose: `MerkleTree` of distributed/merkle_tree.py. A leaf is
  `sha256(f"{key}:{json.dumps(value, sort_keys=True)}")`, taken in sorted-key order;
  `_build_tree` pairs neighbours level by level, doubles the last digest of an odd level, and
  returns `sha256(b"")` for no leaves. SHA-256 is a parameter `sha`, assumed to write 64
  lowercase hex digits (`HexDigest`) and to have no collision among the strings the two
  compared trees hash (`CollisionFreeOn`). Injectivity on all strings is out of reach for any
  function into 64-digit strings, so this is the assumption a root comparison rests on. The
  main result, `getRootHash_eq_iff`, says two roots agree exactly when the two maps have the
  same keys and the same `json.dumps` text at every key. It covers every size, odd levels and
  keys containing `:`. The proof gives every digest a height (`Rank`): a leaf has height 0
  because its text has a `:`, which no hex digest has, and a parent has the height of its
  children plus one. Heights are unique, so equal roots come from equal levels, one level at
  a time (`buildTree_injective`).
Trusted boundary: none
Main exports: leafText, pairInputs, buildTree, treeInputs, MerkleTree, MerkleTree.new,
  MerkleTree.getDivergentKeys, HexDigest, CollisionFreeOn, buildTree_injective,
  getRootHash_eq_iff, polyDigest (a digest for concrete runs)
-/
import MiniKV.Core.PyDict
import MiniKV.Json.Encode
import Mathlib.Data.List.Dedup

namespace MiniKV

/-! ### The tree -/

/-- `f"{key}:{value_str}"`. -/
def leafText (key : String) (valueStr : List Char) : String := key ++ ":" ++ ⟨valueStr⟩

/-- The `combined` strings of one `_build_tree` level, left to right: neighbours
concatenated, and the last digest doubled on an odd level. -/
def pairInputs : List String → List String
  | [] => []
  | [a] => [a ++ a]
  | a :: b :: rest => (a ++ b) :: pairInputs rest

theorem length_pairInputs (xs : List String) : (pairInputs xs).length = (xs.length + 1) / 2 := by
  induction xs using pairInputs.induct with
  | case1 => rfl
  | case2 => simp [pairInputs]
  | case3 a b rest ih => simp only [pairInputs, List.length_cons, ih]; omega

/-- `_build_tree(hashes)`: the parents of a level are the digests of its `combined` strings. -/
def buildTree (sha : String → String) : List String → String
  | [] => sha ""
  | [h] => h
  | a :: b :: rest => buildTree sha ((pairInputs (a :: b :: rest)).map sha)
termination_by hashes => hashes.length
decreasing_by simp only [List.length_map, length_pairInputs, List.length_cons]; omega

/-- Every string `_build_tree(hashes)` hands to `sha256`, level by level. -/
def treeInputs (sha : String → String) : List String → List String
  | [] => [""]
  | [_] => []
  | a :: b :: rest =>
    pairInputs (a :: b :: rest) ++ treeInputs sha ((pairInputs (a :: b :: rest)).map sha)
termination_by hashes => hashes.length
decreasing_by simp only [List.length_map, length_pairInputs, List.length_cons]; omega

/-- A built `MerkleTree`: its `leaves` dict and its `root`. The `data` field is kept by the
source but read by nothing. -/
structure MerkleTree where
  leaves : PyDict String String
  root : String

/-- `sorted(data.keys())`, each key beside `json.dumps(data[key], sort_keys=True)`. -/
def encodedEntries (data : PyDict String Json) : List (String × List Char) :=
  sortFields (data.entries.map fun e => (e.1, dumps true e.2))

/-- `MerkleTree(data)`: `self.leaves[key] = sha256(key_value)` in sorted-key order, then
`self.root = self._build_tree(list(self.leaves.values()))`. -/
def MerkleTree.new (sha : String → String) (data : PyDict String Json) : MerkleTree :=
  let leaves := (encodedEntries data).foldl
    (fun acc f => acc.insert f.1 (sha (leafText f.1 f.2))) PyDict.empty
  ⟨leaves, buildTree sha leaves.values⟩

/-- `get_root_hash()`. -/
def MerkleTree.getRootHash (t : MerkleTree) : String := t.root

/-- `get_leaf_hash(key)`. -/
def MerkleTree.getLeafHash (t : MerkleTree) (key : String) : String := (t.leaves.get? key).getD ""

/-- `get_divergent_keys(other)`: the keys only in `self`, only in `other`, and in both with
different leaf digests. Python returns sets; the lists here are in leaf order. -/
def MerkleTree.getDivergentKeys (t other : MerkleTree) :
    List String × List String × List String :=
  (t.leaves.keys.filter (· ∉ other.leaves.keys), other.leaves.keys.filter (· ∉ t.leaves.keys),
    t.leaves.keys.filter fun k => k ∈ other.leaves.keys ∧ t.leaves.get? k ≠ other.leaves.get? k)

/-- The leaf texts `key_value` in sorted-key order. -/
def leafTexts (data : PyDict String Json) : List String :=
  (encodedEntries data).map fun f => leafText f.1 f.2

/-- The leaf digests in sorted-key order. -/
def leafHashes (sha : String → String) (data : PyDict String Json) : List String :=
  (leafTexts data).map sha

/-- Everything `MerkleTree(data)` hands to `sha256`: the leaf texts, then the tree's inputs. -/
def MerkleTree.hashed (sha : String → String) (data : PyDict String Json) : List String :=
  leafTexts data ++ treeInputs sha (leafHashes sha data)

/-! ### What is assumed of SHA-256 -/

/-- `hexdigest()` of SHA-256 writes 64 lowercase hex digits. -/
def HexDigest (sha : String → String) : Prop :=
  ∀ s, (sha s).length = 64 ∧ ∀ c ∈ (sha s).data, c ∈ hexChars

/-- No two different strings of `S` share a digest. -/
def CollisionFreeOn (sha : String → String) (S : List String) : Prop :=
  ∀ x ∈ S, ∀ y ∈ S, sha x = sha y → x = y

theorem CollisionFreeOn.mono {sha : String → String} {S T : List String} (h : CollisionFreeOn sha T)
    (hST : S ⊆ T) : CollisionFreeOn sha S :=
  fun x hx y hy => h x (hST hx) y (hST hy)

/-- Distinct digests for the distinct strings of `S`: the form `decide` checks on a concrete
run. -/
theorem CollisionFreeOn.of_nodup {sha : String → String} {S : List String}
    (h : (S.dedup.map sha).Nodup) : CollisionFreeOn sha S := fun _ hx _ hy =>
  List.inj_on_of_nodup_map h (List.mem_dedup.2 hx) (List.mem_dedup.2 hy)

/-! ### Equations -/

section Equations

variable (sha : String → String)

@[simp] theorem buildTree_nil : buildTree sha [] = sha "" := by rw [buildTree]

@[simp] theorem buildTree_singleton (h : String) : buildTree sha [h] = h := by rw [buildTree]

theorem buildTree_cons_cons (a b : String) (rest : List String) :
    buildTree sha (a :: b :: rest) = buildTree sha ((pairInputs (a :: b :: rest)).map sha) := by
  rw [buildTree]

@[simp] theorem treeInputs_nil : treeInputs sha [] = [""] := by rw [treeInputs]

@[simp] theorem treeInputs_singleton (h : String) : treeInputs sha [h] = [] := by rw [treeInputs]

theorem treeInputs_cons_cons (a b : String) (rest : List String) :
    treeInputs sha (a :: b :: rest) =
      pairInputs (a :: b :: rest) ++ treeInputs sha ((pairInputs (a :: b :: rest)).map sha) := by
  rw [treeInputs]

theorem entries_leaves_new (data : PyDict String Json) :
    (MerkleTree.new sha data).leaves.entries =
      (encodedEntries data).map fun f => (f.1, sha (leafText f.1 f.2)) := by
  have hkeys : ((encodedEntries data).map Prod.fst).Nodup :=
    (List.mergeSort_perm _ _).map Prod.fst |>.nodup_iff.2 (by simpa [Function.comp_def] using
      data.nodup)
  have hfold : (encodedEntries data).foldl (fun acc f => acc.insert f.1 (sha (leafText f.1 f.2)))
      PyDict.empty = ((encodedEntries data).map fun f => (f.1, sha (leafText f.1 f.2))).foldl
        (fun acc e => acc.insert e.1 e.2) PyDict.empty := by
    rw [List.foldl_map]
  simp only [MerkleTree.new, hfold]
  rw [PyDict.entries_foldl_insert (by simpa [PyDict.keys, PyDict.empty, Function.comp_def] using hkeys)]
  rfl

theorem values_new (data : PyDict String Json) :
    (MerkleTree.new sha data).leaves.values = leafHashes sha data := by
  simp [PyDict.values, entries_leaves_new, leafHashes, leafTexts, Function.comp_def]

theorem getRootHash_new (data : PyDict String Json) :
    (MerkleTree.new sha data).getRootHash = buildTree sha (leafHashes sha data) := by
  rw [← values_new]; rfl

end Equations

/-! ### Levels -/

theorem mem_pairInputs {y : String} {xs : List String} (h : y ∈ pairInputs xs) :
    ∃ a ∈ xs, ∃ b ∈ xs, y = a ++ b := by
  induction xs using pairInputs.induct with
  | case1 => cases h
  | case2 a => exact ⟨a, by simp, a, by simp, by simpa [pairInputs] using h⟩
  | case3 a b rest ih =>
    rw [pairInputs, List.mem_cons] at h
    rcases h with rfl | h
    · exact ⟨a, by simp, b, by simp, rfl⟩
    · obtain ⟨c, hc, d, hd, rfl⟩ := ih h
      exact ⟨c, by simp [hc], d, by simp [hd], rfl⟩

/-- A concatenation of two strings of one length splits only one way. -/
theorem append_inj_of_length {n : Nat} {a b c d : String} (h : a ++ b = c ++ d)
    (ha : a.length = n) (hc : c.length = n) : a = c ∧ b = d := by
  have := List.append_inj (congrArg String.data h) (ha.trans hc.symm)
  exact ⟨String.ext this.1, String.ext this.2⟩

section SameLength

variable {n : Nat}

theorem nodup_pairInputs {xs : List String} (hxs : xs.Nodup) (hl : ∀ x ∈ xs, x.length = n) :
    (pairInputs xs).Nodup := by
  induction xs using pairInputs.induct with
  | case1 => exact List.nodup_nil
  | case2 a => exact List.nodup_singleton _
  | case3 a b rest ih =>
    simp only [List.nodup_cons, List.mem_cons, not_or] at hxs
    refine List.nodup_cons.2 ⟨fun hm => ?_, ih hxs.2.2 fun x hx => hl x (by simp [hx])⟩
    obtain ⟨c, hc, d, -, hcd⟩ := mem_pairInputs hm
    have := (append_inj_of_length hcd (hl a (by simp)) (hl c (by simp [hc]))).1
    exact hxs.1.2 (this ▸ hc)

/-- Distinct digests are recovered from their level's `combined` strings; the doubled last
digest of an odd level cannot pass for a pair, because the pair would repeat a digest. -/
theorem pairInputs_injective :
    ∀ {xs ys : List String}, xs.Nodup → ys.Nodup → (∀ x ∈ xs, x.length = n) →
      (∀ y ∈ ys, y.length = n) → pairInputs xs = pairInputs ys → xs = ys
  | [], [], _, _, _, _, _ => rfl
  | [], [_], _, _, _, _, h => nomatch h
  | [], _ :: _ :: _, _, _, _, _, h => nomatch h
  | [_], [], _, _, _, _, h => nomatch h
  | _ :: _ :: _, [], _, _, _, _, h => nomatch h
  | [a], [c], _, _, hx, hy, h => by
    simp only [pairInputs, List.cons.injEq, and_true] at h
    rw [(append_inj_of_length h (hx a (by simp)) (hy c (by simp))).1]
  | [a], c :: d :: rest, _, hyn, hx, hy, h => by
    simp only [pairInputs, List.cons.injEq] at h
    have hac := append_inj_of_length h.1 (hx a (by simp)) (hy c (by simp))
    exact absurd (by simp [← hac.1, ← hac.2]) (List.nodup_cons.1 hyn).1
  | a :: b :: rest, [c], hxn, _, hx, hy, h => by
    simp only [pairInputs, List.cons.injEq] at h
    have hac := append_inj_of_length h.1 (hx a (by simp)) (hy c (by simp))
    exact absurd (by simp [hac.1, hac.2]) (List.nodup_cons.1 hxn).1
  | a :: b :: rest, c :: d :: rest', hxn, hyn, hx, hy, h => by
    simp only [pairInputs, List.cons.injEq] at h
    have hac := append_inj_of_length h.1 (hx a (by simp)) (hy c (by simp))
    rw [hac.1, hac.2, pairInputs_injective (List.nodup_cons.1 (List.nodup_cons.1 hxn).2).2
      (List.nodup_cons.1 (List.nodup_cons.1 hyn).2).2 (fun x hx' => hx x (by simp [hx']))
      (fun y hy' => hy y (by simp [hy'])) h.2]

end SameLength

/-! ### Heights of digests -/

section Rank

variable {sha : String → String} {S : List String}

/-- `h` is the digest of a subtree of height `r` all of whose hashed strings lie in `S`: a
leaf text, which has a `:`, or the concatenation of two digests of height `r - 1`. -/
inductive Rank (sha : String → String) (S : List String) : Nat → String → Prop where
  | leaf {x : String} : x ∈ S → ':' ∈ x.data → Rank sha S 0 (sha x)
  | node {r : Nat} {a b : String} : Rank sha S r a → Rank sha S r b → a ++ b ∈ S →
      Rank sha S (r + 1) (sha (a ++ b))

theorem Rank.exists_input {r : Nat} {h : String} (hr : Rank sha S r h) :
    ∃ x ∈ S, h = sha x := by
  cases hr with
  | leaf hx _ => exact ⟨_, hx, rfl⟩
  | node _ _ hab => exact ⟨_, hab, rfl⟩

theorem Rank.length (hsha : HexDigest sha) {r : Nat} {h : String} (hr : Rank sha S r h) :
    h.length = 64 := by
  obtain ⟨x, -, rfl⟩ := hr.exists_input
  exact (hsha x).1

theorem Rank.colon_not_mem (hsha : HexDigest sha) {r : Nat} {h : String} (hr : Rank sha S r h) :
    ':' ∉ h.data := fun hc => by
  obtain ⟨x, -, rfl⟩ := hr.exists_input
  exact absurd ((hsha x).2 _ hc) (by decide)

theorem Rank.input_ne_empty (hsha : HexDigest sha) {r : Nat} {h : String} (hr : Rank sha S r h) :
    ∃ x ∈ S, h = sha x ∧ x ≠ "" := by
  cases hr with
  | leaf hx hc => exact ⟨_, hx, rfl, by rintro rfl; simp at hc⟩
  | node ha _ hab =>
    refine ⟨_, hab, rfl, fun he => ?_⟩
    have := congrArg String.length he
    simp [ha.length hsha] at this

/-- A subtree's digest is never the digest `sha256(b"")` of the empty tree. -/
theorem Rank.ne_sha_empty (hsha : HexDigest sha) (hcf : CollisionFreeOn sha S) (hS : "" ∈ S)
    {r : Nat} {h : String} (hr : Rank sha S r h) : h ≠ sha "" := by
  obtain ⟨x, hx, rfl, hne⟩ := hr.input_ne_empty hsha
  exact fun he => hne (hcf x hx "" hS he)

/-- A digest has one height: a leaf text has a `:` and two concatenated digests do not, and
concatenated digests split into their halves. -/
theorem Rank.unique (hsha : HexDigest sha) (hcf : CollisionFreeOn sha S) {r r' : Nat}
    {h h' : String} (h₁ : Rank sha S r h) (h₂ : Rank sha S r' h') (he : h = h') : r = r' := by
  induction h₁ generalizing r' h' with
  | leaf hx hc =>
    cases h₂ with
    | leaf => rfl
    | node ha hb hab =>
      rw [hcf _ hx _ hab he, String.data_append, List.mem_append] at hc
      exact (hc.elim (ha.colon_not_mem hsha) (hb.colon_not_mem hsha)).elim
  | node ha hb hab iha _ =>
    cases h₂ with
    | leaf hx hc =>
      rw [← hcf _ hab _ hx he, String.data_append, List.mem_append] at hc
      exact (hc.elim (ha.colon_not_mem hsha) (hb.colon_not_mem hsha)).elim
    | node ha' _ hab' =>
      have hsplit := append_inj_of_length (hcf _ hab _ hab' he) (ha.length hsha) (ha'.length hsha)
      rw [iha ha' hsplit.1]

theorem rank_pairInputs {r : Nat} {xs : List String} (hx : ∀ x ∈ xs, Rank sha S r x)
    (hS : pairInputs xs ⊆ S) : ∀ y ∈ (pairInputs xs).map sha, Rank sha S (r + 1) y := by
  intro y hy
  obtain ⟨z, hz, rfl⟩ := List.mem_map.1 hy
  obtain ⟨a, ha, b, hb, rfl⟩ := mem_pairInputs hz
  exact .node (hx a ha) (hx b hb) (hS hz)

/-- A level of at least two digests of height `r` builds a root of greater height. -/
theorem rank_buildTree_lt {r : Nat} {xs : List String} (hlen : 2 ≤ xs.length)
    (hx : ∀ x ∈ xs, Rank sha S r x) (hS : treeInputs sha xs ⊆ S) :
    ∃ r' > r, Rank sha S r' (buildTree sha xs) := by
  induction xs using buildTree.induct sha generalizing r with
  | case1 => simp at hlen
  | case2 => simp at hlen
  | case3 a b rest ih =>
    rw [treeInputs_cons_cons, List.append_subset] at hS
    have hup := rank_pairInputs hx hS.1
    rw [buildTree_cons_cons]
    match hp : (pairInputs (a :: b :: rest)).map sha with
    | [] => simp [pairInputs] at hp
    | [y] => exact ⟨r + 1, by omega, by simpa using hup y (by simp [hp])⟩
    | y :: y' :: ys =>
      obtain ⟨r', hr', hroot⟩ := ih (by rw [hp]; simp) hup hS.2
      exact ⟨r', by omega, hp ▸ hroot⟩

theorem exists_rank_buildTree {r : Nat} {xs : List String} (hne : xs ≠ [])
    (hx : ∀ x ∈ xs, Rank sha S r x) (hS : treeInputs sha xs ⊆ S) :
    ∃ r', Rank sha S r' (buildTree sha xs) := by
  match xs, hne with
  | [x], _ => exact ⟨r, by simpa using hx x (by simp)⟩
  | a :: b :: rest, _ =>
    obtain ⟨r', -, h⟩ := rank_buildTree_lt (by simp) hx hS
    exact ⟨r', h⟩

theorem map_sha_injective (hcf : CollisionFreeOn sha S) :
    ∀ {l₁ l₂ : List String}, l₁ ⊆ S → l₂ ⊆ S → l₁.map sha = l₂.map sha → l₁ = l₂
  | [], [], _, _, _ => rfl
  | [], _ :: _, _, _, h => nomatch h
  | _ :: _, [], _, _, h => nomatch h
  | x :: l₁, y :: l₂, h₁, h₂, h => by
    simp only [List.map_cons, List.cons.injEq] at h
    simp only [List.cons_subset] at h₁ h₂
    rw [hcf x h₁.1 y h₂.1 h.1, map_sha_injective hcf h₁.2 h₂.2 h.2]

/-- Under collision-freeness on everything hashed, `_build_tree` is injective on levels of
distinct digests of one height. -/
theorem buildTree_injective (hsha : HexDigest sha) (hcf : CollisionFreeOn sha S) {r : Nat}
    {xs ys : List String} (hxn : xs.Nodup) (hyn : ys.Nodup) (hx : ∀ x ∈ xs, Rank sha S r x)
    (hy : ∀ y ∈ ys, Rank sha S r y) (hxS : treeInputs sha xs ⊆ S) (hyS : treeInputs sha ys ⊆ S)
    (h : buildTree sha xs = buildTree sha ys) : xs = ys := by
  induction xs using buildTree.induct sha generalizing ys r with
  | case1 =>
    cases ys with
    | nil => rfl
    | cons y ys =>
      obtain ⟨r', hr'⟩ := exists_rank_buildTree (List.cons_ne_nil _ _) hy hyS
      exact absurd (by simpa using h.symm) (hr'.ne_sha_empty hsha hcf (by simpa using hxS))
  | case2 x =>
    match ys, hy, hyS, h with
    | [], _, hyS, h =>
      exact absurd (by simpa using h) ((hx x (by simp)).ne_sha_empty hsha hcf (by simpa using hyS))
    | [y], _, _, h => simpa using h
    | c :: d :: rest, hy, hyS, h =>
      obtain ⟨r', hr', hroot⟩ := rank_buildTree_lt (by simp) hy hyS
      exact absurd (Rank.unique hsha hcf (hx x (by simp)) hroot (by simpa using h)) (by omega)
  | case3 a b rest ih =>
    have hxS' := hxS
    rw [treeInputs_cons_cons, List.append_subset] at hxS'
    match ys, hyn, hy, hyS, h with
    | [], _, _, hyS, h =>
      obtain ⟨r', hr'⟩ := exists_rank_buildTree (List.cons_ne_nil _ _) hx hxS
      exact absurd (by simpa using h) (hr'.ne_sha_empty hsha hcf (by simpa using hyS))
    | [y], _, hy, _, h =>
      obtain ⟨r', hr', hroot⟩ := rank_buildTree_lt (by simp) hx hxS
      exact absurd (Rank.unique hsha hcf (hy y (by simp)) hroot (by simpa using h.symm)) (by omega)
    | c :: d :: rest', hyn, hy, hyS, h =>
      rw [treeInputs_cons_cons, List.append_subset] at hyS
      rw [buildTree_cons_cons, buildTree_cons_cons] at h
      have hxl : ∀ z ∈ a :: b :: rest, z.length = 64 := fun z hz => (hx z hz).length hsha
      have hyl : ∀ z ∈ c :: d :: rest', z.length = 64 := fun z hz => (hy z hz).length hsha
      have hup := ih ((nodup_pairInputs hxn hxl).map_on
          fun u hu v hv => hcf u (hxS'.1 hu) v (hxS'.1 hv))
        ((nodup_pairInputs hyn hyl).map_on fun u hu v hv => hcf u (hyS.1 hu) v (hyS.1 hv))
        (rank_pairInputs hx hxS'.1) (rank_pairInputs hy hyS.1) hxS'.2 hyS.2 h
      exact pairInputs_injective hxn hyn hxl hyl (map_sha_injective hcf hxS'.1 hyS.1 hup)

end Rank

/-! ### Leaves -/

theorem data_leafText (key : String) (valueStr : List Char) :
    (leafText key valueStr).data = key.data ++ ':' :: valueStr := by
  simp [leafText]

/-- A leaf text determines its key and its JSON text, whatever `:` the key contains. -/
theorem leafText_injective {k₁ k₂ : String} {v₁ v₂ : Json}
    (h : leafText k₁ (dumps true v₁) = leafText k₂ (dumps true v₂)) :
    k₁ = k₂ ∧ dumps true v₁ = dumps true v₂ := by
  have h' := congrArg String.data h
  rw [data_leafText, data_leafText] at h'
  have := colon_dumps_injective true h'
  exact ⟨String.ext this.1, this.2⟩

theorem mem_encodedEntries {data : PyDict String Json} {k : String} {s : List Char} :
    (k, s) ∈ encodedEntries data ↔ ∃ v, data.get? k = some v ∧ dumps true v = s := by
  simp only [encodedEntries, mem_sortFields, List.mem_map, Prod.exists, Prod.mk.injEq,
    PyDict.mem_entries_iff]
  exact ⟨fun ⟨_, v, h, hk, hv⟩ => ⟨v, hk ▸ h, hv⟩, fun ⟨v, h, hv⟩ => ⟨k, v, h, rfl, hv⟩⟩

theorem nodup_keys_encodedEntries (data : PyDict String Json) :
    ((encodedEntries data).map Prod.fst).Nodup :=
  ((List.mergeSort_perm _ _).map Prod.fst).nodup_iff.2 (by
    simpa [Function.comp_def] using data.nodup)

theorem sorted_encodedEntries (data : PyDict String Json) :
    (encodedEntries data).Pairwise fun a b => a.1 < b.1 := by
  have hle : (encodedEntries data).Pairwise fun a b => decide (a.1 ≤ b.1) := by
    unfold encodedEntries sortFields
    exact @List.sorted_mergeSort (String × List Char) (fun a b => decide (a.1 ≤ b.1))
        (fun a b c hab hbc => by
          simp only [decide_eq_true_eq] at *; exact le_trans hab hbc)
        (fun a b => by simpa using le_total a.1 b.1) _
  exact hle.imp₂ (fun a b hab hne => lt_of_le_of_ne (by simpa using hab) hne)
    (List.pairwise_map.1 (nodup_keys_encodedEntries data))

/-- Entries stored in sorted-key order are already what `sorted(data.keys())` gives. -/
theorem encodedEntries_of_sorted {data : PyDict String Json}
    (h : data.entries.Pairwise fun a b => a.1.toList ≤ b.1.toList) :
    encodedEntries data = data.entries.map fun e => (e.1, dumps true e.2) := by
  refine List.mergeSort_of_sorted (List.pairwise_map.2 (h.imp fun hab => ?_))
  simpa [String.le_iff_toList_le] using hab

theorem lookupEntry_encodedEntries (data : PyDict String Json) (k : String) :
    lookupEntry k (encodedEntries data) = (data.get? k).map (dumps true) := by
  refine Option.ext fun s => ?_
  simp only [Option.mem_def]
  rw [lookupEntry_eq_some_iff (nodup_keys_encodedEntries data), mem_encodedEntries,
    Option.map_eq_some']

theorem get?_leaves_new (sha : String → String) (data : PyDict String Json) (k : String) :
    (MerkleTree.new sha data).leaves.get? k =
      (data.get? k).map fun v => sha (leafText k (dumps true v)) := by
  rw [PyDict.get?, entries_leaves_new, lookupEntry_map (fun k s => sha (leafText k s)),
    lookupEntry_encodedEntries, Option.map_map]
  rfl

/-- The sorted encoded entries are the map `key ↦ json.dumps(value)` and nothing more. -/
theorem encodedEntries_eq_iff {d₁ d₂ : PyDict String Json} :
    encodedEntries d₁ = encodedEntries d₂ ↔
      ∀ k, (d₁.get? k).map (dumps true) = (d₂.get? k).map (dumps true) := by
  refine ⟨fun h k => by rw [← lookupEntry_encodedEntries, h, lookupEntry_encodedEntries],
    fun h => ?_⟩
  have hmem : ∀ f, f ∈ encodedEntries d₁ ↔ f ∈ encodedEntries d₂ := fun f => by
    rw [← lookupEntry_eq_some_iff (nodup_keys_encodedEntries d₁),
      ← lookupEntry_eq_some_iff (nodup_keys_encodedEntries d₂), lookupEntry_encodedEntries,
      lookupEntry_encodedEntries, h]
  have hperm := (List.perm_ext_iff_of_nodup (List.Nodup.of_map Prod.fst (nodup_keys_encodedEntries d₁))
    (List.Nodup.of_map Prod.fst (nodup_keys_encodedEntries d₂))).2 hmem
  haveI : IsAntisymm (String × List Char) fun a b => a.1 < b.1 :=
    ⟨fun _ _ hab hba => absurd (hab.trans hba) (lt_irrefl _)⟩
  exact List.eq_of_perm_of_sorted hperm (sorted_encodedEntries d₁) (sorted_encodedEntries d₂)

theorem exists_dumps_of_mem_encodedEntries {data : PyDict String Json}
    {f : String × List Char} (hf : f ∈ encodedEntries data) : ∃ v, f.2 = dumps true v := by
  obtain ⟨v, -, hv⟩ := mem_encodedEntries.1 hf
  exact ⟨v, hv.symm⟩

theorem eq_of_leafText_eq {f g : String × List Char} (hf : ∃ v, f.2 = dumps true v)
    (hg : ∃ v, g.2 = dumps true v) (h : leafText f.1 f.2 = leafText g.1 g.2) : f = g := by
  obtain ⟨v, hv⟩ := hf
  obtain ⟨w, hw⟩ := hg
  rw [hv, hw] at h
  obtain ⟨hk, hs⟩ := leafText_injective h
  exact Prod.ext hk (hv.trans (hs.trans hw.symm))

theorem leafTexts_injective {d₁ d₂ : PyDict String Json} (h : leafTexts d₁ = leafTexts d₂) :
    encodedEntries d₁ = encodedEntries d₂ := by
  unfold leafTexts at h
  generalize hl₁ : encodedEntries d₁ = l₁ at h
  generalize hl₂ : encodedEntries d₂ = l₂ at h
  have hs₁ : ∀ f ∈ l₁, ∃ v, f.2 = dumps true v := hl₁ ▸ fun _ => exists_dumps_of_mem_encodedEntries
  have hs₂ : ∀ f ∈ l₂, ∃ v, f.2 = dumps true v := hl₂ ▸ fun _ => exists_dumps_of_mem_encodedEntries
  clear hl₁ hl₂
  induction l₁ generalizing l₂ with
  | nil => cases l₂ <;> simp_all
  | cons f l₁ ih =>
    cases l₂ with
    | nil => cases h
    | cons g l₂ =>
      simp only [List.map_cons, List.cons.injEq] at h
      rw [eq_of_leafText_eq (hs₁ f (by simp)) (hs₂ g (by simp)) h.1,
        ih l₂ h.2 (fun f' hf' => hs₁ f' (List.mem_cons_of_mem _ hf'))
          (fun g' hg' => hs₂ g' (List.mem_cons_of_mem _ hg'))]

section Hashed

variable {sha : String → String} {S : List String}

theorem rank_leafHashes {data : PyDict String Json} (hS : MerkleTree.hashed sha data ⊆ S) :
    ∀ x ∈ leafHashes sha data, Rank sha S 0 x := by
  intro x hx
  obtain ⟨t, ht, rfl⟩ := List.mem_map.1 hx
  obtain ⟨f, -, rfl⟩ := List.mem_map.1 ht
  exact .leaf (hS (List.mem_append_left _ ht)) (by simp [data_leafText])

theorem nodup_leafHashes (hcf : CollisionFreeOn sha S) {data : PyDict String Json}
    (hS : MerkleTree.hashed sha data ⊆ S) : (leafHashes sha data).Nodup := by
  have htexts : (leafTexts data).Nodup := (List.Nodup.of_map Prod.fst (nodup_keys_encodedEntries data)).map_on
    fun f hf g hg h => eq_of_leafText_eq (exists_dumps_of_mem_encodedEntries hf)
      (exists_dumps_of_mem_encodedEntries hg) h
  exact htexts.map_on fun x hx y hy => hcf x (hS (List.mem_append_left _ hx)) y
    (hS (List.mem_append_left _ hy))

end Hashed

/-! ### Divergent keys -/

section Divergent

variable (sha : String → String) (d₁ d₂ : PyDict String Json) (k : String)

theorem mem_keys_leaves_new : k ∈ (MerkleTree.new sha d₁).leaves.keys ↔ d₁.get? k ≠ none := by
  rw [PyDict.mem_keys_iff, get?_leaves_new, Ne, Option.map_eq_none']

theorem mem_onlyInSelf :
    k ∈ ((MerkleTree.new sha d₁).getDivergentKeys (MerkleTree.new sha d₂)).1 ↔
      d₁.get? k ≠ none ∧ d₂.get? k = none := by
  simp [MerkleTree.getDivergentKeys, List.mem_filter, mem_keys_leaves_new]

theorem mem_onlyInOther :
    k ∈ ((MerkleTree.new sha d₁).getDivergentKeys (MerkleTree.new sha d₂)).2.1 ↔
      d₂.get? k ≠ none ∧ d₁.get? k = none := by
  simp [MerkleTree.getDivergentKeys, List.mem_filter, mem_keys_leaves_new]

theorem mem_differentValues :
    k ∈ ((MerkleTree.new sha d₁).getDivergentKeys (MerkleTree.new sha d₂)).2.2 ↔
      d₁.get? k ≠ none ∧ d₂.get? k ≠ none ∧
        (MerkleTree.new sha d₁).leaves.get? k ≠ (MerkleTree.new sha d₂).leaves.get? k := by
  simp only [MerkleTree.getDivergentKeys, List.mem_filter, mem_keys_leaves_new,
    decide_eq_true_eq]

theorem leafText_mem_leafTexts {v : Json} (h : d₁.get? k = some v) :
    leafText k (dumps true v) ∈ leafTexts d₁ :=
  List.mem_map.2 ⟨(k, dumps true v), mem_encodedEntries.2 ⟨v, h, rfl⟩, rfl⟩

/-- Under collision-freeness two present values have the same leaf digest exactly when they
have the same `json.dumps` text. -/
theorem get?_leaves_eq_iff
    (hcf : CollisionFreeOn sha (MerkleTree.hashed sha d₁ ++ MerkleTree.hashed sha d₂))
    {v₁ v₂ : Json} (h₁ : d₁.get? k = some v₁) (h₂ : d₂.get? k = some v₂) :
    (MerkleTree.new sha d₁).leaves.get? k = (MerkleTree.new sha d₂).leaves.get? k ↔
      dumps true v₁ = dumps true v₂ := by
  rw [get?_leaves_new, get?_leaves_new, h₁, h₂, Option.map_some', Option.map_some',
    Option.some.injEq]
  refine ⟨fun h => (leafText_injective (hcf _ ?_ _ ?_ h)).2, fun h => by rw [h]⟩
  · exact List.mem_append_left _ (List.mem_append_left _ (leafText_mem_leafTexts d₁ k h₁))
  · exact List.mem_append_right _ (List.mem_append_left _ (leafText_mem_leafTexts d₂ k h₂))

end Divergent

/-- Merkle soundness and completeness: with digests of 64 hex digits and no collision among the
strings the two trees hash, the roots agree exactly when the maps have the same keys and the same
`json.dumps(value, sort_keys=True)` at every key. -/
theorem getRootHash_eq_iff (sha : String → String) (hsha : HexDigest sha)
    (d₁ d₂ : PyDict String Json)
    (hcf : CollisionFreeOn sha (MerkleTree.hashed sha d₁ ++ MerkleTree.hashed sha d₂)) :
    (MerkleTree.new sha d₁).getRootHash = (MerkleTree.new sha d₂).getRootHash ↔
      ∀ k, (d₁.get? k).map (dumps true) = (d₂.get? k).map (dumps true) := by
  rw [getRootHash_new, getRootHash_new, ← encodedEntries_eq_iff]
  refine ⟨fun h => ?_, fun h => by rw [leafHashes, leafHashes, leafTexts, leafTexts, h]⟩
  have h₁ : MerkleTree.hashed sha d₁ ⊆ _ := List.subset_append_left _ (MerkleTree.hashed sha d₂)
  have h₂ : MerkleTree.hashed sha d₂ ⊆ _ := List.subset_append_right (MerkleTree.hashed sha d₁) _
  have hleaves := buildTree_injective hsha hcf (nodup_leafHashes hcf h₁) (nodup_leafHashes hcf h₂)
    (rank_leafHashes h₁) (rank_leafHashes h₂) (fun _ hx => h₁ (List.mem_append_right _ hx))
    (fun _ hx => h₂ (List.mem_append_right _ hx)) h
  exact leafTexts_injective (map_sha_injective hcf (fun _ hx => h₁ (List.mem_append_left _ hx))
    (fun _ hx => h₂ (List.mem_append_left _ hx)) hleaves)

/-- A digest for a concrete run: zeros for the leaf text `a:b:null`, ones for everything else. -/
def sampleDigest (s : String) : String :=
  if s = "a:b:null" then "0000000000000000000000000000000000000000000000000000000000000000"
  else "1111111111111111111111111111111111111111111111111111111111111111"

theorem hexDigest_sampleDigest : HexDigest sampleDigest := fun s => by
  unfold sampleDigest; split <;> exact ⟨by decide, by decide⟩

/-- The last `n` hex digits of `x`, the most significant first. -/
def hexDigits (x : Nat) : Nat → List Char
  | 0 => []
  | n + 1 => hexDigit (x / 16 ^ n % 16) :: hexDigits x n

theorem length_hexDigits (x n : Nat) : (hexDigits x n).length = n := by
  induction n with
  | zero => rfl
  | succ n ih => simp [hexDigits, ih]

theorem mem_hexDigits {x n : Nat} {c : Char} (h : c ∈ hexDigits x n) : c ∈ hexChars := by
  induction n with
  | zero => nomatch h
  | succ n ih =>
    rcases List.mem_cons.1 h with rfl | h
    · exact hexDigit_mem_hexChars _
    · exact ih h

/-- A digest for concrete runs with several leaves: the text read as a number in base 257,
written as its last 64 hex digits. -/
def polyDigest (s : String) : String :=
  ⟨hexDigits (s.data.foldl (fun acc c => acc * 257 + c.toNat) 0) 64⟩

theorem hexDigest_polyDigest : HexDigest polyDigest := fun s =>
  ⟨by rw [polyDigest, String.length_mk, length_hexDigits], fun _ => mem_hexDigits⟩

/-- Three keys, the first `a:b`: an odd level, whose last digest is doubled. -/
def colonKeyMap : PyDict String Json :=
  ⟨[("a:b", .null), ("c", .bool true), ("d", .string "x")], by decide⟩

/-- The same map with the key `a` in place of `a:b`. -/
def plainKeyMap : PyDict String Json :=
  ⟨[("a", .null), ("c", .bool true), ("d", .string "x")], by decide⟩

set_option maxRecDepth 8000 in
/-- Three leaves each, so the first level pairs two leaves and doubles the third: the leaf
texts `a:b:null` and `a:null` differ, and so do the roots, though the other two leaves and
the doubled pair agree. -/
theorem getRootHash_eq_iff_colon_key :
    HexDigest polyDigest ∧
      CollisionFreeOn polyDigest
        (MerkleTree.hashed polyDigest colonKeyMap ++ MerkleTree.hashed polyDigest plainKeyMap) ∧
      ((MerkleTree.new polyDigest colonKeyMap).getRootHash =
          (MerkleTree.new polyDigest plainKeyMap).getRootHash ↔
        ∀ k, (colonKeyMap.get? k).map (dumps true) = (plainKeyMap.get? k).map (dumps true)) ∧
      (MerkleTree.new polyDigest colonKeyMap).getRootHash ≠
        (MerkleTree.new polyDigest plainKeyMap).getRootHash := by
  have hcf : CollisionFreeOn polyDigest
      (MerkleTree.hashed polyDigest colonKeyMap ++ MerkleTree.hashed polyDigest plainKeyMap) := by
    simp only [MerkleTree.hashed, leafHashes, leafTexts]
    rw [encodedEntries_of_sorted (by decide), encodedEntries_of_sorted (by decide)]
    simp only [colonKeyMap, plainKeyMap, List.map_cons, List.map_nil, treeInputs_cons_cons,
      pairInputs, treeInputs_singleton, List.append_nil, dumps]
    exact CollisionFreeOn.of_nodup (by decide)
  have h := getRootHash_eq_iff polyDigest hexDigest_polyDigest colonKeyMap plainKeyMap hcf
  exact ⟨hexDigest_polyDigest, hcf, h, fun he => absurd (h.1 he "a") (by decide)⟩

end MiniKV
