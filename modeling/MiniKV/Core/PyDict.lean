/-
Module: MiniKV.Core.PyDict
Purpose: Python's insertion-ordered `dict`, the container behind `KeyValueStore._data`, the
  persistence table, the hash ring's `ring` and a node's `peers`. `d[k] = v` overwrites an
  existing entry in place and appends a fresh key at the end; `pop` and `del` remove the key's
  single entry. The structure carries the distinctness of its keys, so `len(d)` is the length
  of the entry list, and two dicts compare equal (`==`) exactly when `get` agrees on every key.
Trusted boundary: none
Main exports: PyDict, PyDict.get?, PyDict.insert, PyDict.erase, PyDict.get?_insert,
  PyDict.get?_erase, PyDict.size_eq_of_get?_eq
-/
import Mathlib.Data.List.Nodup
import Mathlib.Data.List.Forall2

namespace MiniKV

/-! ### Entry lists -/

section Entries

variable {α β : Type} [DecidableEq α]

/-- The value of the first entry with key `k`. -/
def lookupEntry (k : α) : List (α × β) → Option β
  | [] => none
  | (k', v) :: es => if k' = k then some v else lookupEntry k es

/-- `d[k] = v` on the entry list: overwrite in place, or append. -/
def setEntry (k : α) (v : β) : List (α × β) → List (α × β)
  | [] => [(k, v)]
  | (k', v') :: es => if k' = k then (k, v) :: es else (k', v') :: setEntry k v es

/-- Remove the first entry with key `k`. -/
def eraseEntry (k : α) : List (α × β) → List (α × β)
  | [] => []
  | (k', v) :: es => if k' = k then es else (k', v) :: eraseEntry k es

theorem lookupEntry_eq_none {k : α} {es : List (α × β)} :
    lookupEntry k es = none ↔ k ∉ es.map Prod.fst := by
  induction es with
  | nil => simp [lookupEntry]
  | cons e es ih =>
    obtain ⟨k', v⟩ := e
    by_cases h : k' = k
    · simp [lookupEntry, h]
    · simp [lookupEntry, h, ih, Ne.symm h]

theorem lookupEntry_setEntry (k k' : α) (v : β) (es : List (α × β)) :
    lookupEntry k' (setEntry k v es) = if k = k' then some v else lookupEntry k' es := by
  induction es with
  | nil => simp [setEntry, lookupEntry]
  | cons e es ih =>
    obtain ⟨j, w⟩ := e
    by_cases hj : j = k
    · subst hj; by_cases h : j = k' <;> simp [setEntry, lookupEntry, h]
    · simp only [setEntry, hj, if_false, lookupEntry, ih]
      by_cases h : j = k' <;> by_cases h' : k = k' <;> simp_all

theorem mem_keys_setEntry {k j : α} {v : β} {es : List (α × β)} :
    j ∈ (setEntry k v es).map Prod.fst ↔ j = k ∨ j ∈ es.map Prod.fst := by
  induction es with
  | nil => simp [setEntry]
  | cons e es ih =>
    obtain ⟨i, w⟩ := e
    by_cases hi : i = k
    · subst hi; simp [setEntry]
    · simp only [setEntry, hi, if_false, List.map_cons, List.mem_cons, ih]
      exact or_left_comm

theorem nodup_setEntry {k : α} {v : β} {es : List (α × β)}
    (h : (es.map Prod.fst).Nodup) : ((setEntry k v es).map Prod.fst).Nodup := by
  induction es with
  | nil => simp [setEntry]
  | cons e es ih =>
    obtain ⟨i, w⟩ := e
    rw [List.map_cons, List.nodup_cons] at h
    by_cases hi : i = k
    · subst hi; simpa [setEntry] using h
    · simp only [setEntry, hi, if_false, List.map_cons, List.nodup_cons, mem_keys_setEntry]
      exact ⟨by simpa [Ne.symm hi] using h.1, ih h.2⟩

theorem lookupEntry_eq_some_iff {k : α} {v : β} {es : List (α × β)}
    (h : (es.map Prod.fst).Nodup) : lookupEntry k es = some v ↔ (k, v) ∈ es := by
  induction es with
  | nil => simp [lookupEntry]
  | cons e es ih =>
    obtain ⟨k', v'⟩ := e
    rw [List.map_cons, List.nodup_cons] at h
    by_cases hk : k' = k
    · subst hk
      have : (k', v) ∉ es := fun hm => h.1 (List.mem_map.2 ⟨_, hm, rfl⟩)
      simp [lookupEntry, this, eq_comm]
    · simp [lookupEntry, hk, ih h.2, Ne.symm hk]

theorem lookupEntry_map {γ : Type} (g : α → β → γ) (k : α) (es : List (α × β)) :
    lookupEntry k (es.map fun e => (e.1, g e.1 e.2)) = (lookupEntry k es).map (g k) := by
  induction es with
  | nil => rfl
  | cons e es ih =>
    obtain ⟨k', v⟩ := e
    by_cases hk : k' = k
    · subst hk; simp [lookupEntry]
    · simp [lookupEntry, hk, ih]

theorem setEntry_of_not_mem {k : α} {v : β} {es : List (α × β)} (h : k ∉ es.map Prod.fst) :
    setEntry k v es = es ++ [(k, v)] := by
  induction es with
  | nil => rfl
  | cons e es ih =>
    obtain ⟨i, w⟩ := e
    simp only [List.map_cons, List.mem_cons, not_or] at h
    simp [setEntry, Ne.symm h.1, ih h.2]

theorem keys_eraseEntry_sublist (k : α) (es : List (α × β)) :
    ((eraseEntry k es).map Prod.fst).Sublist (es.map Prod.fst) := by
  induction es with
  | nil => simp [eraseEntry]
  | cons e es ih =>
    obtain ⟨i, w⟩ := e
    by_cases hi : i = k
    · simp [eraseEntry, hi]
    · simpa [eraseEntry, hi] using ih

theorem lookupEntry_eraseEntry {k : α} {es : List (α × β)} (h : (es.map Prod.fst).Nodup)
    (k' : α) : lookupEntry k' (eraseEntry k es) = if k = k' then none else lookupEntry k' es := by
  induction es with
  | nil => simp [eraseEntry, lookupEntry]
  | cons e es ih =>
    obtain ⟨i, w⟩ := e
    rw [List.map_cons, List.nodup_cons] at h
    by_cases hi : i = k
    · subst hi
      by_cases h' : i = k'
      · subst h'; simpa [eraseEntry, lookupEntry_eq_none] using h.1
      · simp [eraseEntry, lookupEntry, h']
    · simp only [eraseEntry, hi, if_false, lookupEntry, ih h.2]
      by_cases h' : i = k' <;> by_cases h'' : k = k' <;> simp_all

/-! Two entry lists with the same keys in the same order, and values related by `R`. -/

variable {γ : Type} {R : β → γ → Prop}

omit [DecidableEq α] in
theorem map_fst_eq_of_forall₂ {es : List (α × β)} {fs : List (α × γ)}
    (h : List.Forall₂ (fun e f => e.1 = f.1 ∧ R e.2 f.2) es fs) : es.map Prod.fst = fs.map Prod.fst := by
  induction h with
  | nil => rfl
  | cons hef _ ih => rw [List.map_cons, List.map_cons, hef.1, ih]

theorem eraseEntry_forall₂ (k : α) {es : List (α × β)} {fs : List (α × γ)}
    (h : List.Forall₂ (fun e f => e.1 = f.1 ∧ R e.2 f.2) es fs) :
    List.Forall₂ (fun e f => e.1 = f.1 ∧ R e.2 f.2) (eraseEntry k es) (eraseEntry k fs) := by
  induction h with
  | nil => exact .nil
  | @cons e f es fs hef htl ih =>
    obtain ⟨i, v⟩ := e; obtain ⟨j, w⟩ := f
    obtain ⟨hij, hvw⟩ := hef
    dsimp only at hij hvw; subst hij
    by_cases hi : i = k
    · simpa only [eraseEntry, hi, if_true] using htl
    · simpa only [eraseEntry, hi, if_false] using List.Forall₂.cons ⟨rfl, hvw⟩ ih

theorem setEntry_forall₂ (k : α) {v : β} {w : γ} (hvw : R v w) {es : List (α × β)}
    {fs : List (α × γ)} (h : List.Forall₂ (fun e f => e.1 = f.1 ∧ R e.2 f.2) es fs) :
    List.Forall₂ (fun e f => e.1 = f.1 ∧ R e.2 f.2) (setEntry k v es) (setEntry k w fs) := by
  induction h with
  | nil => exact .cons ⟨rfl, hvw⟩ .nil
  | @cons e f es fs hef htl ih =>
    obtain ⟨i, v'⟩ := e; obtain ⟨j, w'⟩ := f
    obtain ⟨hij, hvw'⟩ := hef
    dsimp only at hij hvw'; subst hij
    by_cases hi : i = k
    · simpa only [setEntry, hi, if_true] using List.Forall₂.cons ⟨rfl, hvw⟩ htl
    · simpa only [setEntry, hi, if_false] using List.Forall₂.cons ⟨rfl, hvw'⟩ ih

theorem lookupEntry_forall₂ (k : α) {es : List (α × β)} {fs : List (α × γ)}
    (h : List.Forall₂ (fun e f => e.1 = f.1 ∧ R e.2 f.2) es fs) :
    Option.Rel R (lookupEntry k es) (lookupEntry k fs) := by
  induction h with
  | nil => exact .none
  | @cons e f es fs hef _ ih =>
    obtain ⟨i, v⟩ := e; obtain ⟨j, w⟩ := f
    obtain ⟨hij, hvw⟩ := hef
    dsimp only at hij hvw; subst hij
    by_cases hi : i = k
    · simpa only [lookupEntry, hi, if_true] using Option.Rel.some hvw
    · simpa only [lookupEntry, hi, if_false] using ih

end Entries

/-! ### Dicts -/

/-- A Python `dict`: its entries in insertion order, with distinct keys. -/
structure PyDict (α β : Type) where
  entries : List (α × β)
  nodup : (entries.map Prod.fst).Nodup

namespace PyDict

variable {α β : Type} [DecidableEq α]

/-- Two dicts are equal when their entries are, in order. -/
instance [DecidableEq β] : DecidableEq (PyDict α β) := fun a b =>
  decidable_of_iff (a.entries = b.entries) ⟨fun h => by cases a; cases b; cases h; rfl, congrArg _⟩

/-- `{}`. -/
def empty : PyDict α β := ⟨[], List.nodup_nil⟩

/-- `d.get(k)`, with `none` for an absent key. -/
def get? (d : PyDict α β) (k : α) : Option β := lookupEntry k d.entries

/-- `k in d`. -/
def contains (d : PyDict α β) (k : α) : Bool := (d.get? k).isSome

/-- `d[k] = v`. -/
def insert (d : PyDict α β) (k : α) (v : β) : PyDict α β :=
  ⟨setEntry k v d.entries, nodup_setEntry d.nodup⟩

/-- `d.pop(k, None)` and `del d[k]` on a present key. -/
def erase (d : PyDict α β) (k : α) : PyDict α β :=
  ⟨eraseEntry k d.entries, (keys_eraseEntry_sublist k d.entries).nodup d.nodup⟩

/-- `d.keys()`. -/
def keys (d : PyDict α β) : List α := d.entries.map Prod.fst

/-- `list(d.values())`. -/
def values (d : PyDict α β) : List β := d.entries.map Prod.snd

/-- `len(d)`. -/
def size (d : PyDict α β) : Nat := d.entries.length

/-- `d.update(other)`: assign every entry of `other`, in its order. -/
def update (d other : PyDict α β) : PyDict α β :=
  other.entries.foldl (fun acc e => acc.insert e.1 e.2) d

@[simp] theorem get?_empty (k : α) : (empty : PyDict α β).get? k = none := rfl

@[simp] theorem get?_insert (d : PyDict α β) (k k' : α) (v : β) :
    (d.insert k v).get? k' = if k = k' then some v else d.get? k' :=
  lookupEntry_setEntry k k' v d.entries

@[simp] theorem get?_erase (d : PyDict α β) (k k' : α) :
    (d.erase k).get? k' = if k = k' then none else d.get? k' :=
  lookupEntry_eraseEntry d.nodup k'

/-- Assigning a key keeps every key present. -/
theorem contains_insert_of_contains {d : PyDict α β} {k' : α} (h : d.contains k') (k : α) (v : β) :
    (d.insert k v).contains k' := by
  by_cases hk : k = k' <;> simp_all [contains]

theorem mem_entries_iff {d : PyDict α β} {k : α} {v : β} : (k, v) ∈ d.entries ↔ d.get? k = some v :=
  (lookupEntry_eq_some_iff d.nodup).symm

/-- Reading every key of a dict gives its values, in order. -/
theorem filterMap_get?_keys (d : PyDict α β) : d.keys.filterMap d.get? = d.values := by
  unfold keys values
  rw [List.filterMap_map, ← List.filterMap_eq_map]
  exact List.filterMap_congr fun e he => mem_entries_iff.1 he

/-- Assigning fresh keys one after another appends them in order. -/
theorem entries_foldl_insert {d : PyDict α β} {l : List (α × β)}
    (h : (d.keys ++ l.map Prod.fst).Nodup) :
    (l.foldl (fun acc e => acc.insert e.1 e.2) d).entries = d.entries ++ l := by
  induction l generalizing d with
  | nil => simp
  | cons e l ih =>
    have hfresh : e.1 ∉ d.keys := fun hm => (List.nodup_append.1 h).2.2 hm (List.mem_cons_self _ _)
    have hins : (d.insert e.1 e.2).entries = d.entries ++ [e] := setEntry_of_not_mem hfresh
    rw [List.foldl_cons, ih (by rw [keys, hins]; simpa [keys] using h), hins, List.append_assoc,
      List.singleton_append]

theorem contains_iff (d : PyDict α β) (k : α) :
    d.contains k = true ↔ d.get? k ≠ none := by
  simp [contains, Option.isSome_iff_ne_none]

theorem get?_eq_none_iff {d : PyDict α β} {k : α} : d.get? k = none ↔ k ∉ d.keys :=
  lookupEntry_eq_none

theorem mem_keys_iff {d : PyDict α β} {k : α} : k ∈ d.keys ↔ d.get? k ≠ none := by
  rw [Ne, get?_eq_none_iff, not_not]

theorem size_eq_zero_iff {d : PyDict α β} : d.size = 0 ↔ ∀ k, d.get? k = none := by
  simp only [size, List.length_eq_zero, get?_eq_none_iff]
  refine ⟨fun h k => by simp [keys, h], fun h => ?_⟩
  match hd : d.entries with
  | [] => rfl
  | e :: _ => exact absurd (by simp [keys, hd]) (h e.1)

/-- Two dicts that answer every `get` alike have the same keys, in some order. -/
theorem keys_perm_of_get?_eq {d₁ d₂ : PyDict α β} (h : d₁.get? = d₂.get?) :
    d₁.keys.Perm d₂.keys :=
  (List.perm_ext_iff_of_nodup d₁.nodup d₂.nodup).2 fun k => by
    rw [← keys, ← keys, mem_keys_iff, mem_keys_iff, h]

/-- Python's `d₁ == d₂` only looks at `get`, and it already fixes `len`. -/
theorem size_eq_of_get?_eq {d₁ d₂ : PyDict α β} (h : d₁.get? = d₂.get?) :
    d₁.size = d₂.size := by
  simpa [size, keys] using (keys_perm_of_get?_eq h).length_eq

omit [DecidableEq α] in
theorem ext_entries {d₁ d₂ : PyDict α β} (h : d₁.entries = d₂.entries) : d₁ = d₂ := by
  cases d₁; cases d₂; cases h; rfl

/-- `d.update(other)` on `{}` is a copy of `other`: its keys are fresh, so each is appended. -/
theorem empty_update (d : PyDict α β) : empty.update d = d :=
  ext_entries (entries_foldl_insert (d := empty) d.nodup)

/-! ### Dicts with related values -/

section Rel

variable {γ : Type} {R : β → γ → Prop}

/-- `d₁` and `d₂` have the same keys in the same order, and `R` relates their values. -/
def Rel (R : β → γ → Prop) (d₁ : PyDict α β) (d₂ : PyDict α γ) : Prop :=
  List.Forall₂ (fun e f => e.1 = f.1 ∧ R e.2 f.2) d₁.entries d₂.entries

omit [DecidableEq α] in
theorem Rel.empty : Rel R (empty : PyDict α β) (empty : PyDict α γ) := .nil

theorem Rel.erase {d₁ : PyDict α β} {d₂ : PyDict α γ} (h : Rel R d₁ d₂) (k : α) :
    Rel R (d₁.erase k) (d₂.erase k) := eraseEntry_forall₂ k h

theorem Rel.insert {d₁ : PyDict α β} {d₂ : PyDict α γ} (h : Rel R d₁ d₂) (k : α) {v : β} {w : γ}
    (hvw : R v w) : Rel R (d₁.insert k v) (d₂.insert k w) := setEntry_forall₂ k hvw h

theorem Rel.get? {d₁ : PyDict α β} {d₂ : PyDict α γ} (h : Rel R d₁ d₂) (k : α) :
    Option.Rel R (d₁.get? k) (d₂.get? k) := lookupEntry_forall₂ k h

omit [DecidableEq α] in
theorem Rel.keys {d₁ : PyDict α β} {d₂ : PyDict α γ} (h : Rel R d₁ d₂) : d₁.keys = d₂.keys :=
  map_fst_eq_of_forall₂ h

omit [DecidableEq α] in
theorem Rel.size {d₁ : PyDict α β} {d₂ : PyDict α γ} (h : Rel R d₁ d₂) : d₁.size = d₂.size :=
  h.length_eq

theorem Rel.contains {d₁ : PyDict α β} {d₂ : PyDict α γ} (h : Rel R d₁ d₂) (k : α) :
    d₁.contains k = d₂.contains k := by
  unfold PyDict.contains
  exact match d₁.get? k, d₂.get? k, h.get? k with
    | _, _, .some _ => rfl
    | _, _, .none => rfl

end Rel

end PyDict

end MiniKV
