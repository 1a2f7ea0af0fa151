/-
Module: MiniKV.Core.LockManager
Purpose: `LockManager` of `core/lock_manager.py` under any interleaving of threads. The manager
  is its `_locks` dict from keys to `RLock` identities, the `RLock` objects themselves (owner and
  recursion count) and the owner of `_locks_lock`. Each thread runs `lock(key)`,
  `lock_multiple(*keys)` or `cleanup_unused_locks()` one statement at a time (`threadStep`), and
  any thread may take its next step (`StepBy`). Without reaping, per-key mutual exclusion holds
  in every reachable state and `_get_lock` never raises (`mutualExclusion_without_cleanup`),
  from an invariant that every step keeps (`LockInv.step`); and the owners of the keys' locks
  (`LockManager.keyOwner`) move as those of an atomic per-key mutex (`MutexStep`), the lock
  `StoreSys` of `Core.Concurrent` assumes (`keyOwner_mutexRun`). With reaping both fail
  (`cleanup_breaks_mutual_exclusion`): `_is_owned()` only reports on the calling thread, so a
  cleanup thread deletes a lock another thread holds and the next `lock(key)` gets a fresh
  `RLock`; and a deletion between `_get_lock`'s check and its final read raises `KeyError`.
Trusted boundary: none
Main exports: RLock, LockManager, LockManager.getLock, LockManager.cleanupUnusedLocks, Pc,
  Action, threadStep, Sys, StepBy, MutualExclusion, LockInv, mutualExclusion_without_cleanup,
  LockManager.keyOwner, MutexStep, keyOwner_mutexRun, cleanup_breaks_mutual_exclusion
-/
import MiniKV.Core.PyDict
import Mathlib.Data.List.Dedup
import Mathlib.Data.List.Sort
import Mathlib.Data.String.Basic
import Mathlib.Logic.Relation

namespace MiniKV

/-! ### `threading.RLock` -/

/-- A `threading.RLock`: the owning thread and the recursion count. -/
structure RLock where
  owner : Option Nat
  count : Nat
deriving DecidableEq

namespace RLock

/-- A lock nobody holds, as `RLock()` creates it. -/
def unlocked : RLock := ⟨none, 0⟩

/-- `acquire()` by thread `t` goes through when the lock is free or already `t`'s. -/
def canAcquire (l : RLock) (t : Nat) : Bool := l.owner.all (· == t)

/-- The lock after `acquire()` by `t`. -/
def acquire (l : RLock) (t : Nat) : RLock := ⟨some t, l.count + 1⟩

/-- `release()`: the count drops, and at zero the lock is free again. -/
def release (l : RLock) : RLock := if l.count ≤ 1 then unlocked else { l with count := l.count - 1 }

/-- `_is_owned()` called by thread `t`: whether `t` itself holds the lock. -/
def isOwned (l : RLock) (t : Nat) : Bool := 0 < l.count && l.owner == some t

end RLock

/-! ### The manager, one call at a time -/

/-- `LockManager`: `_locks` maps each key to the identity of its `RLock`, `rlocks` holds every
`RLock` object ever created by identity, `fresh` is the identity the next `RLock()` gets, and
`locksLock` is the thread holding `_locks_lock`. -/
structure LockManager where
  locks : PyDict String Nat
  rlocks : Nat → RLock
  fresh : Nat
  locksLock : Option Nat

namespace LockManager

/-- `__init__`. -/
def init : LockManager := ⟨PyDict.empty, fun _ => RLock.unlocked, 0, none⟩

/-- The double check under `_locks_lock`: `self._locks[key] = threading.RLock()` when the key is
still absent. -/
def createLock (m : LockManager) (key : String) : LockManager :=
  if m.locks.contains key then m
  else { m with locks := m.locks.insert key m.fresh, fresh := m.fresh + 1 }

/-- `_get_lock(key)` with no other thread in between: the key's lock after the double-checked
creation, or `KeyError` from the final read `self._locks[key]`. -/
def getLock (m : LockManager) (key : String) : Except String (Nat × LockManager) :=
  match (m.createLock key).locks.get? key with
  | some l => .ok (l, m.createLock key)
  | none => .error "KeyError"

/-- The keys the comprehension of `cleanup_unused_locks` keeps when thread `t` runs it. -/
def unusedKeys (m : LockManager) (t : Nat) : List String :=
  (m.locks.entries.filter fun e => !(m.rlocks e.2).isOwned t).map Prod.fst

/-- `cleanup_unused_locks()` by thread `t` with no other thread in between. -/
def cleanupUnusedLocks (m : LockManager) (t : Nat) : LockManager :=
  { m with locks := (m.unusedKeys t).foldl PyDict.erase m.locks }

/-- `get_lock_count()`. -/
def getLockCount (m : LockManager) : Nat := m.locks.size

theorem get?_createLock (m : LockManager) (key k : String) :
    (m.createLock key).locks.get? k =
      if m.locks.contains key then m.locks.get? k
      else if key = k then some m.fresh else m.locks.get? k := by
  unfold createLock
  split <;> simp

/-- Run alone, `_get_lock` returns the key's lock: the one already there, or a fresh one. -/
theorem getLock_eq (m : LockManager) (key : String) :
    m.getLock key = .ok ((m.locks.get? key).getD m.fresh, m.createLock key) := by
  rw [getLock, get?_createLock]
  cases h : m.locks.get? key <;> simp [PyDict.contains, h]

end LockManager

/-! ### Threads

A thread runs `lock(key)` or `lock_multiple(*keys)` one statement at a time: `_get_lock` for
each key (its check outside `_locks_lock`, the `with`, the double check with the insertion, and
the final read outside the lock), then `acquire()` on each lock in order, the body, and
`release()` in reverse. `lock(key)` is the one-key case, `lock_multiple` first takes
`sorted(set(keys))`. A thread outside a call, or inside its critical section, may call
`cleanup_unused_locks`: it takes `_locks_lock`, runs the comprehension, deletes one key per
step and releases the lock. Leaving the insertion and the release of `_locks_lock` as one step
hides no behaviour: between the two only readers of `_locks` can run, and they see the new
entry either way. -/

/-- The statement of `_get_lock` a thread is at. -/
inductive GetLockLine where
  /-- `if key not in self._locks`, outside `_locks_lock`. -/
  | check
  /-- `with self._locks_lock`. -/
  | acquireLocksLock
  /-- The double check and the insertion; leaving the `with` releases `_locks_lock`. -/
  | recheck
  /-- `return self._locks[key]`, outside `_locks_lock`. -/
  | ret
deriving DecidableEq

/-- The statement of `cleanup_unused_locks` a thread is at. -/
inductive CleanupLine where
  /-- `with self._locks_lock`. -/
  | acquireLocksLock
  /-- The comprehension over `self._locks.items()`. -/
  | scan
  /-- `del self._locks[key]` for the unused keys still to delete. -/
  | del (unused : List String)
deriving DecidableEq

/-- Where a thread stands. -/
inductive Pc where
  | idle
  /-- In `_get_lock(key)`, with `rest` still to fetch and `got` fetched. -/
  | getLock (line : GetLockLine) (key : String) (rest : List String) (got : List (String × Nat))
  /-- Acquiring `todo` in order, with `held` acquired. -/
  | acquire (todo held : List (String × Nat))
  /-- Inside the critical section (`yield`), holding `held`. -/
  | critical (held : List (String × Nat))
  /-- The `finally` block, with `todo` still to release. -/
  | release (todo : List (String × Nat))
  /-- `_get_lock` raised `KeyError`. -/
  | raised
  /-- In `cleanup_unused_locks`, called outside a call (`none`) or inside a critical section. -/
  | cleanup (line : CleanupLine) (resume : Option (List (String × Nat)))
deriving DecidableEq

/-- What a thread does next: start a call, or take the next statement of the call it is in. -/
inductive Action where
  | lock (key : String)
  | lockMultiple (keys : List String)
  | cleanupUnusedLocks
  | next
deriving DecidableEq

/-- `sorted(set(keys))`. -/
def sortedSet (keys : List String) : List String := keys.dedup.mergeSort fun a b => decide (a ≤ b)

/-- Fetch the locks of `keys` in order with `got` fetched already, then acquire them. -/
def Pc.fetch (got : List (String × Nat)) : List String → Pc
  | [] => .acquire got []
  | k :: ks => .getLock .check k ks got

/-- One statement of thread `t` at `pc` over the manager `m`; `none` when the thread is blocked
or the action does not apply. -/
def threadStep (m : LockManager) (t : Nat) : Pc → Action → Option (Pc × LockManager)
  | .idle, .lock key => some (Pc.fetch [] [key], m)
  | .idle, .lockMultiple keys => some (Pc.fetch [] (sortedSet keys), m)
  | .idle, .cleanupUnusedLocks => some (.cleanup .acquireLocksLock none, m)
  | .critical held, .cleanupUnusedLocks => some (.cleanup .acquireLocksLock (some held), m)
  | .critical held, .next => some (.release held.reverse, m)
  | .getLock .check key rest got, .next =>
      some (.getLock (if m.locks.contains key then .ret else .acquireLocksLock) key rest got, m)
  | .getLock .acquireLocksLock key rest got, .next =>
      if m.locksLock = none then
        some (.getLock .recheck key rest got, { m with locksLock := some t })
      else none
  | .getLock .recheck key rest got, .next =>
      some (.getLock .ret key rest got, { m.createLock key with locksLock := none })
  | .getLock .ret key rest got, .next =>
      match m.locks.get? key with
      | some l => some (Pc.fetch (got ++ [(key, l)]) rest, m)
      | none => some (.raised, m)
  | .acquire [] held, .next => some (.critical held, m)
  | .acquire ((k, l) :: todo) held, .next =>
      if (m.rlocks l).canAcquire t then
        some (.acquire todo (held ++ [(k, l)]),
          { m with rlocks := Function.update m.rlocks l ((m.rlocks l).acquire t) })
      else none
  | .release [], .next => some (.idle, m)
  | .release ((_, l) :: todo), .next =>
      some (.release todo, { m with rlocks := Function.update m.rlocks l (m.rlocks l).release })
  | .raised, .next => some (.idle, m)
  | .cleanup .acquireLocksLock r, .next =>
      if m.locksLock = none then some (.cleanup .scan r, { m with locksLock := some t }) else none
  | .cleanup .scan r, .next => some (.cleanup (.del (m.unusedKeys t)) r, m)
  | .cleanup (.del (k :: ks)) r, .next =>
      some (.cleanup (.del ks) r, { m with locks := m.locks.erase k })
  | .cleanup (.del []) r, .next => some (r.elim .idle .critical, { m with locksLock := none })
  | _, _ => none

/-- The manager and every thread's position. -/
structure Sys where
  mgr : LockManager
  pc : Nat → Pc

/-- A fresh manager, every thread outside any call. -/
def Sys.init : Sys := ⟨LockManager.init, fun _ => .idle⟩

/-- Thread `t` takes action `a`. -/
def Sys.step (s : Sys) (t : Nat) (a : Action) : Option Sys :=
  (threadStep s.mgr t (s.pc t) a).map fun r => ⟨r.2, Function.update s.pc t r.1⟩

/-- Some thread takes an action allowed by `P`. -/
def StepBy (P : Action → Prop) (s s' : Sys) : Prop := ∃ t a, P a ∧ s.step t a = some s'

/-- Run the steps `(thread, action)` in order; `none` as soon as one is blocked. -/
def Sys.run (s : Sys) : List (Nat × Action) → Option Sys
  | [] => some s
  | (t, a) :: rest => (s.step t a).bind fun s' => s'.run rest

theorem Sys.run_reach (P : Action → Prop) {s s' : Sys} {tr : List (Nat × Action)}
    (hP : ∀ x ∈ tr, P x.2) (h : s.run tr = some s') : Relation.ReflTransGen (StepBy P) s s' := by
  induction tr generalizing s with
  | nil => cases h; exact .refl
  | cons x tr ih =>
    obtain ⟨t, a⟩ := x
    obtain ⟨s₁, h₁, h₂⟩ := Option.bind_eq_some.1 h
    exact .head ⟨t, a, hP _ (.head _), h₁⟩ (ih (fun x hx => hP x (.tail _ hx)) h₂)

/-- The keys whose critical section the thread is inside. -/
def Pc.guarded : Pc → List String
  | .critical held => held.map Prod.fst
  | .cleanup _ (some held) => held.map Prod.fst
  | _ => []

/-- No two distinct threads are inside critical sections guarding the same key. -/
def MutualExclusion (s : Sys) : Prop :=
  ∀ t₁ t₂ k, k ∈ (s.pc t₁).guarded → k ∈ (s.pc t₂).guarded → t₁ = t₂

/-! ### Without reaping: mutual exclusion is an invariant

Nothing in `src/` calls `cleanup_unused_locks`. Without it `_locks` only grows, so every lock a
thread fetched stays the table's lock for its key, distinct keys have distinct locks, and each
`RLock` is free or held once by exactly the thread whose position lists it. -/

section NoCleanup

/-- The locks a thread holds. -/
def Pc.holding : Pc → List (String × Nat)
  | .acquire _ held => held
  | .critical held => held
  | .release todo => todo
  | .cleanup _ r => r.getD []
  | _ => []

/-- Every pair names the table's lock for its key. -/
def Fetched (m : LockManager) (ps : List (String × Nat)) : Prop :=
  ∀ p ∈ ps, m.locks.get? p.1 = some p.2

/-- Thread `t` holds each lock of `ps` once. -/
def Owns (m : LockManager) (t : Nat) (ps : List (String × Nat)) : Prop :=
  ∀ p ∈ ps, m.rlocks p.2 = ⟨some t, 1⟩

/-- What thread `t`'s position says about the manager when no cleanup runs: the keys of its call
are distinct, the locks it fetched are the table's, the final read of `_get_lock` finds its key,
it holds each lock it acquired once, and it is neither past a `KeyError` nor in a cleanup. -/
def Pc.Wf (m : LockManager) (t : Nat) : Pc → Prop
  | .idle => True
  | .getLock line key rest got =>
      (got.map Prod.fst ++ key :: rest).Nodup ∧ Fetched m got ∧
        (line = .ret → m.locks.contains key)
  | .acquire todo held =>
      ((held ++ todo).map Prod.fst).Nodup ∧ Fetched m (held ++ todo) ∧ Owns m t held
  | .critical held => (held.map Prod.fst).Nodup ∧ Fetched m held ∧ Owns m t held
  | .release todo => (todo.map Prod.fst).Nodup ∧ Fetched m todo ∧ Owns m t todo
  | .raised => False
  | .cleanup _ _ => False

/-- The table hands out identities below `fresh`, and never one identity to two keys. -/
structure LockManager.TableOk (m : LockManager) : Prop where
  lt_fresh : ∀ k l, m.locks.get? k = some l → l < m.fresh
  injective : ∀ k₁ k₂ l, m.locks.get? k₁ = some l → m.locks.get? k₂ = some l → k₁ = k₂

/-- The invariant of runs without cleanup: a sound table, every thread's position well formed,
and every `RLock` free unless some thread's position holds it. -/
structure LockInv (s : Sys) : Prop where
  table : s.mgr.TableOk
  wf : ∀ t, (s.pc t).Wf s.mgr t
  free : ∀ l, s.mgr.rlocks l = RLock.unlocked ∨ ∃ t, ∃ q ∈ (s.pc t).holding, q.2 = l

theorem LockManager.TableOk.createLock {m : LockManager} (h : m.TableOk) (key : String) :
    (m.createLock key).TableOk := by
  unfold LockManager.createLock
  split
  · exact h
  · refine ⟨fun k l hk => ?_, fun k₁ k₂ l h₁ h₂ => ?_⟩
    · simp only [PyDict.get?_insert] at hk
      split at hk
      · cases hk; exact Nat.lt_succ_self _
      · exact Nat.lt_succ_of_lt (h.lt_fresh _ _ hk)
    · simp only [PyDict.get?_insert] at h₁ h₂
      split at h₁ <;> split at h₂
      · subst_vars; rfl
      · cases h₁; exact absurd (h.lt_fresh _ _ h₂) (lt_irrefl _)
      · cases h₂; exact absurd (h.lt_fresh _ _ h₁) (lt_irrefl _)
      · exact h.injective _ _ _ h₁ h₂

theorem LockManager.get?_createLock_of_get? {m : LockManager} {k : String} {l : Nat}
    (h : m.locks.get? k = some l) (key : String) : (m.createLock key).locks.get? k = some l := by
  rw [LockManager.get?_createLock]
  split_ifs with hc hk
  · exact h
  · subst hk; simp [PyDict.contains, h] at hc
  · exact h

theorem LockManager.contains_createLock (m : LockManager) (key : String) :
    (m.createLock key).locks.contains key := by
  simp only [PyDict.contains, LockManager.get?_createLock]
  split_ifs with hc <;> simp_all [PyDict.contains]

/-- Two fetched pairs with one lock are one pair, when the keys are distinct. -/
theorem Fetched.eq_of_snd_eq {m : LockManager} {ps : List (String × Nat)} {p q : String × Nat}
    (ht : m.TableOk) (hf : Fetched m ps) (hnd : (ps.map Prod.fst).Nodup) (hp : p ∈ ps)
    (hq : q ∈ ps) (h : p.2 = q.2) : p = q :=
  List.inj_on_of_nodup_map hnd hp hq (ht.injective _ _ _ (hf p hp) (h ▸ hf q hq))

theorem Pc.Wf.owns {m : LockManager} {t : Nat} {p : Pc} (h : p.Wf m t) : Owns m t p.holding := by
  cases p with
  | acquire todo held => exact h.2.2
  | critical held => exact h.2.2
  | release todo => exact h.2.2
  | raised => exact h.elim
  | cleanup _ _ => exact h.elim
  | _ => nofun

theorem Pc.Wf.holding_fetched {m : LockManager} {t : Nat} {p : Pc} (h : p.Wf m t) :
    Fetched m p.holding ∧ (p.holding.map Prod.fst).Nodup := by
  cases p with
  | acquire todo held =>
    simp only [Pc.Wf, List.map_append, List.nodup_append, Fetched, List.mem_append] at h
    exact ⟨fun q hq => h.2.1 q (.inl hq), h.1.1⟩
  | critical held => exact ⟨h.2.1, h.1⟩
  | release todo => exact ⟨h.2.1, h.1⟩
  | _ => simp_all [Pc.Wf, Pc.holding, Fetched]

/-- A position stays well formed when the table only grows and its held locks are untouched. -/
theorem Pc.Wf.mono {m m' : LockManager} {t : Nat} {p : Pc} (hp : p.Wf m t)
    (hlocks : ∀ k l, m.locks.get? k = some l → m'.locks.get? k = some l)
    (hr : ∀ q ∈ p.holding, m'.rlocks q.2 = m.rlocks q.2) : p.Wf m' t := by
  have hF : ∀ {ps}, Fetched m ps → Fetched m' ps := fun h q hq => hlocks _ _ (h q hq)
  have hO : ∀ {ps}, (∀ q ∈ ps, q ∈ p.holding) → Owns m t ps → Owns m' t ps :=
    fun hsub h q hq => (hr q (hsub q hq)).trans (h q hq)
  cases p with
  | idle => trivial
  | getLock line key rest got =>
    refine ⟨hp.1, hF hp.2.1, fun hl => ?_⟩
    obtain ⟨l, hl⟩ := Option.isSome_iff_exists.1 (hp.2.2 hl)
    simp [PyDict.contains, hlocks _ _ hl]
  | acquire todo held => exact ⟨hp.1, hF hp.2.1, hO (fun _ => id) hp.2.2⟩
  | critical held => exact ⟨hp.1, hF hp.2.1, hO (fun _ => id) hp.2.2⟩
  | release todo => exact ⟨hp.1, hF hp.2.1, hO (fun _ => id) hp.2.2⟩
  | raised => exact hp
  | cleanup _ _ => exact hp

theorem Pc.wf_fetch {m : LockManager} {t : Nat} {got : List (String × Nat)} {ks : List String}
    (hnd : (got.map Prod.fst ++ ks).Nodup) (hf : Fetched m got) : (Pc.fetch got ks).Wf m t := by
  cases ks with
  | nil => exact ⟨by simpa using hnd, by simpa using hf, fun _ h => absurd h (List.not_mem_nil _)⟩
  | cons k ks => exact ⟨hnd, hf, fun h => nomatch h⟩

/-- A step of thread `t` to `p'` over `m'` keeps the invariant when the new table is sound, `p'`
is well formed, every other thread stays well formed, and every lock is free or held. -/
theorem LockInv.update {s : Sys} {t : Nat} {p' : Pc} {m' : LockManager} (ht : m'.TableOk)
    (hself : p'.Wf m' t) (hothers : ∀ t', t' ≠ t → (s.pc t').Wf m' t')
    (hfree : ∀ l, m'.rlocks l = RLock.unlocked ∨ (∃ q ∈ p'.holding, q.2 = l) ∨
      ∃ t', t' ≠ t ∧ ∃ q ∈ (s.pc t').holding, q.2 = l) :
    LockInv ⟨m', Function.update s.pc t p'⟩ := by
  refine ⟨ht, fun t' => ?_, fun l => ?_⟩
  · by_cases h : t' = t
    · subst h; simpa using hself
    · simpa [Function.update_noteq h] using hothers t' h
  · rcases hfree l with h | h | ⟨t', hne, h⟩
    · exact .inl h
    · exact .inr ⟨t, by simpa using h⟩
    · exact .inr ⟨t', by simpa [Function.update_noteq hne] using h⟩

/-- A step that only grows the table, touches no `RLock`, and keeps the thread's held locks. -/
theorem LockInv.quiet {s : Sys} {t : Nat} {p' : Pc} {m' : LockManager} (hinv : LockInv s)
    (ht : m'.TableOk) (hlocks : ∀ k l, s.mgr.locks.get? k = some l → m'.locks.get? k = some l)
    (hr : m'.rlocks = s.mgr.rlocks) (hself : p'.Wf m' t)
    (hhold : ∀ q ∈ (s.pc t).holding, q ∈ p'.holding) :
    LockInv ⟨m', Function.update s.pc t p'⟩ := by
  refine LockInv.update ht hself (fun t' _ => (hinv.wf t').mono hlocks fun q _ => by rw [hr])
    fun l => ?_
  rcases hinv.free l with h | ⟨t', q, hq, hl⟩
  · exact .inl (hr ▸ h)
  · by_cases h : t' = t
    · subst h; exact .inr (.inl ⟨q, hhold q hq, hl⟩)
    · exact .inr (.inr ⟨t', h, q, hq, hl⟩)

/-- A lock some thread holds is that thread's alone. -/
theorem LockInv.holder_eq {s : Sys} (hinv : LockInv s) {t₁ t₂ : Nat} {q₁ q₂ : String × Nat}
    (h₁ : q₁ ∈ (s.pc t₁).holding) (h₂ : q₂ ∈ (s.pc t₂).holding) (h : q₁.2 = q₂.2) : t₁ = t₂ := by
  have := ((hinv.wf t₁).owns q₁ h₁).symm.trans (h ▸ (hinv.wf t₂).owns q₂ h₂)
  simpa using this

/-- At `acquire()` the lock is free when it can be taken: no other thread holds it, and this
thread's other locks belong to other keys. -/
theorem LockInv.unlocked_of_acquire {s : Sys} {t : Nat} {k : String} {l : Nat}
    {todo held : List (String × Nat)} (hinv : LockInv s)
    (hp : s.pc t = .acquire ((k, l) :: todo) held) (hcan : (s.mgr.rlocks l).canAcquire t) :
    s.mgr.rlocks l = RLock.unlocked := by
  have hwf := hinv.wf t
  rw [hp] at hwf
  obtain ⟨hnd, hf, -⟩ := hwf
  rcases hinv.free l with h | ⟨t', q, hq, hql⟩
  · exact h
  · have h₁ := (hinv.wf t').owns q hq
    rw [hql] at h₁
    obtain rfl : t' = t := by simpa [RLock.canAcquire, h₁] using hcan
    rw [hp] at hq
    obtain rfl := Fetched.eq_of_snd_eq hinv.table hf hnd (List.mem_append_left _ hq)
      (List.mem_append_right _ (.head _)) hql
    simp only [List.map_append, List.map_cons, List.nodup_append] at hnd
    exact absurd (.head _) (hnd.2.2 (List.mem_map_of_mem _ hq))

/-- `lock.acquire()`: the lock was free, so afterwards this thread holds it once. -/
theorem LockInv.acquire {s : Sys} {t : Nat} {k : String} {l : Nat}
    {todo held : List (String × Nat)} (hinv : LockInv s)
    (hp : s.pc t = .acquire ((k, l) :: todo) held) (hcan : (s.mgr.rlocks l).canAcquire t) :
    LockInv ⟨⟨s.mgr.locks, Function.update s.mgr.rlocks l ((s.mgr.rlocks l).acquire t), s.mgr.fresh,
      s.mgr.locksLock⟩,
      Function.update s.pc t (.acquire todo (held ++ [(k, l)]))⟩ := by
  have hunlocked := hinv.unlocked_of_acquire hp hcan
  have hnone : ∀ t', ∀ q ∈ (s.pc t').holding, q.2 ≠ l := fun t' q hq hql => by
    simpa [hql, hunlocked, RLock.unlocked] using (hinv.wf t').owns q hq
  have hwf := hinv.wf t
  rw [hp] at hwf
  obtain ⟨hnd, hf, ho⟩ := hwf
  have e : held ++ [(k, l)] ++ todo = held ++ (k, l) :: todo := by simp
  refine LockInv.update ⟨hinv.table.lt_fresh, hinv.table.injective⟩ ⟨e ▸ hnd, e ▸ hf, fun q hq => ?_⟩
    (fun t' _ => (hinv.wf t').mono (fun _ _ => id) fun q hq => ?_) fun l' => ?_
  · rcases List.mem_append.1 hq with hq | hq
    · simpa [Function.update_noteq (hnone t q (by rw [hp]; exact hq))] using ho q hq
    · obtain rfl := List.mem_singleton.1 hq
      simp [hunlocked, RLock.unlocked, RLock.acquire]
  · exact Function.update_noteq (hnone t' q hq) _ _
  · by_cases hl : l' = l
    · exact .inr (.inl ⟨(k, l), by simp [Pc.holding], hl.symm⟩)
    · rcases hinv.free l' with h | ⟨t', q, hq, hql⟩
      · exact .inl (by simpa [Function.update_noteq hl] using h)
      · by_cases ht : t' = t
        · subst ht; rw [hp] at hq
          exact .inr (.inl ⟨q, List.mem_append_left _ hq, hql⟩)
        · exact .inr (.inr ⟨t', ht, q, hq, hql⟩)

/-- `lock.release()`: the thread held the lock once, so it is free afterwards. -/
theorem LockInv.release {s : Sys} {t : Nat} {k : String} {l : Nat} {todo : List (String × Nat)}
    (hinv : LockInv s) (hp : s.pc t = .release ((k, l) :: todo)) :
    LockInv ⟨⟨s.mgr.locks, Function.update s.mgr.rlocks l (s.mgr.rlocks l).release, s.mgr.fresh,
      s.mgr.locksLock⟩,
      Function.update s.pc t (.release todo)⟩ := by
  have hwf := hinv.wf t
  rw [hp] at hwf
  obtain ⟨hnd, hf, ho⟩ := hwf
  have hnot : ∀ q ∈ todo, q.2 ≠ l := fun q hq hql => by
    have := Fetched.eq_of_snd_eq hinv.table hf hnd (.tail _ hq) (.head _) hql
    subst this
    exact (List.nodup_cons.1 hnd).1 (List.mem_map_of_mem _ hq)
  have hheld : (k, l) ∈ (s.pc t).holding := by simp [hp, Pc.holding]
  refine LockInv.update ⟨hinv.table.lt_fresh, hinv.table.injective⟩ ⟨(List.nodup_cons.1 hnd).2, fun q hq => hf q (.tail _ hq),
      fun q hq => ?_⟩
    (fun t' hne => (hinv.wf t').mono (fun _ _ => id) fun q hq => ?_) fun l' => ?_
  · simpa [Function.update_noteq (hnot q hq)] using ho q (.tail _ hq)
  · exact Function.update_noteq (fun hql => hne (hinv.holder_eq hq hheld hql)) _ _
  · by_cases hl : l' = l
    · subst hl
      exact .inl (by simp [ho (k, l') (.head _), RLock.release])
    · rcases hinv.free l' with h | ⟨t', q, hq, hql⟩
      · exact .inl (by simpa [Function.update_noteq hl] using h)
      · by_cases ht : t' = t
        · subst ht; rw [hp] at hq
          rcases List.mem_cons.1 hq with rfl | hq
          · exact absurd hql.symm hl
          · exact .inr (.inl ⟨q, hq, hql⟩)
        · exact .inr (.inr ⟨t', ht, q, hq, hql⟩)

/-! #### The owners of the keys' locks

`StoreSys` of `Core.Concurrent` takes the store's per-key lock as an atomic mutex: an owner per
key, taken by a thread when the key is free and given back by its owner. Without reaping, the
manager moves the owners of its keys' locks exactly so. -/

/-- The owner of `key`'s lock: the owner of the `RLock` that `_locks` maps `key` to. -/
def LockManager.keyOwner (m : LockManager) (key : String) : Option Nat :=
  (m.locks.get? key).bind fun l => (m.rlocks l).owner

/-- One step of an atomic per-key mutex: the owners stay, thread `t` takes the free key `k`, or
`k`'s owner `t` gives it back. -/
inductive MutexStep (owner owner' : String → Option Nat) : Prop where
  | stay (h : owner' = owner)
  | take (t : Nat) (k : String) (hfree : owner k = none)
      (h : owner' = Function.update owner k (some t))
  | give (t : Nat) (k : String) (hheld : owner k = some t)
      (h : owner' = Function.update owner k none)

theorem LockManager.rlocks_createLock (m : LockManager) (key : String) :
    (m.createLock key).rlocks = m.rlocks := by
  unfold LockManager.createLock; split <;> rfl

/-- A new entry gets the fresh `RLock`; when that one is free, no key changes owner. -/
theorem LockManager.keyOwner_createLock {m : LockManager} (h : m.rlocks m.fresh = RLock.unlocked)
    (key : String) : (m.createLock key).keyOwner = m.keyOwner := by
  funext k
  unfold LockManager.keyOwner
  rw [LockManager.get?_createLock, LockManager.rlocks_createLock]
  split_ifs with hc hk
  · rfl
  · subst hk
    simp only [PyDict.contains, Option.isSome_iff_ne_none, not_not] at hc
    simp [hc, h, RLock.unlocked]
  · rfl

/-- Changing the `RLock` of `k`'s lock changes the owner of `k` alone. -/
theorem LockManager.keyOwner_update_rlock {m : LockManager} (ht : m.TableOk) {k : String}
    {l : Nat} (hk : m.locks.get? k = some l) (r : RLock) :
    LockManager.keyOwner ⟨m.locks, Function.update m.rlocks l r, m.fresh, m.locksLock⟩ =
      Function.update m.keyOwner k r.owner := by
  funext k'
  by_cases hk' : k' = k
  · subst hk'; simp [LockManager.keyOwner, hk]
  · rw [Function.update_noteq hk']
    unfold LockManager.keyOwner
    cases hl : m.locks.get? k' with
    | none => rfl
    | some l' => simp [Function.update_noteq fun (e : l' = l) => hk' (ht.injective _ _ _ hl (e ▸ hk))]

/-- The next `RLock()` is free: every lock a thread holds is one the table hands out. -/
theorem LockInv.fresh_unlocked {s : Sys} (hinv : LockInv s) :
    s.mgr.rlocks s.mgr.fresh = RLock.unlocked := by
  rcases hinv.free s.mgr.fresh with h | ⟨t, q, hq, hql⟩
  · exact h
  · exact absurd (hql ▸ hinv.table.lt_fresh _ _ ((hinv.wf t).holding_fetched.1 q hq)) (lt_irrefl _)

/-- Every step other than a call of `cleanup_unused_locks` keeps the invariant and moves the
owners as an atomic mutex does: `acquire()` takes a free key, `release()` of a lock held once
gives it back, and every other statement leaves the owners alone. -/
theorem LockInv.step_mutex {s s' : Sys} {t : Nat} {a : Action} (hinv : LockInv s)
    (ha : a ≠ .cleanupUnusedLocks) (h : s.step t a = some s') :
    LockInv s' ∧ MutexStep s.mgr.keyOwner s'.mgr.keyOwner := by
  obtain ⟨⟨p', m'⟩, hstep, rfl⟩ := Option.map_eq_some'.1 h
  have hwf := hinv.wf t
  generalize hp : s.pc t = p at hstep hwf
  unfold threadStep at hstep
  have hnil : Fetched s.mgr [] := nofun
  cases p with
  | raised => exact hwf.elim
  | cleanup _ _ => exact hwf.elim
  | idle =>
    cases a <;> simp only [Option.some.injEq, Prod.mk.injEq, reduceCtorEq, ne_eq,
      not_true_eq_false] at hstep ha
    all_goals obtain ⟨rfl, rfl⟩ := hstep; refine ⟨?_, .stay rfl⟩; dsimp only
    · exact hinv.quiet hinv.table (fun _ _ => id) rfl (Pc.wf_fetch (by simp) hnil)
        (by simp [hp, Pc.holding])
    · exact hinv.quiet hinv.table (fun _ _ => id) rfl
        (Pc.wf_fetch (by simpa using (List.mergeSort_perm _ _).nodup_iff.2 (List.nodup_dedup _))
          hnil) (by simp [hp, Pc.holding])
  | getLock line key rest got =>
    cases a <;> cases line <;> simp only [Option.some.injEq, Prod.mk.injEq,
      reduceCtorEq, Option.ite_none_right_eq_some] at hstep
    · obtain ⟨rfl, rfl⟩ := hstep
      refine ⟨hinv.quiet hinv.table (fun _ _ => id) rfl ⟨hwf.1, hwf.2.1, fun hl => ?_⟩
        (by simp [hp, Pc.holding]), .stay rfl⟩
      by_contra hc
      simp [hc] at hl
    · obtain ⟨-, rfl, rfl⟩ := hstep
      exact ⟨hinv.quiet ⟨hinv.table.lt_fresh, hinv.table.injective⟩ (fun _ _ => id) rfl
        ⟨hwf.1, hwf.2.1, nofun⟩ (by simp [hp, Pc.holding]), .stay rfl⟩
    · obtain ⟨rfl, rfl⟩ := hstep
      exact ⟨hinv.quiet ⟨(hinv.table.createLock key).lt_fresh, (hinv.table.createLock key).injective⟩
        (fun _ _ h => LockManager.get?_createLock_of_get? h key) (s.mgr.rlocks_createLock key)
        ⟨hwf.1, fun q hq => LockManager.get?_createLock_of_get? (hwf.2.1 q hq) key,
          fun _ => LockManager.contains_createLock _ _⟩ (by simp [hp, Pc.holding]),
        .stay (LockManager.keyOwner_createLock hinv.fresh_unlocked key)⟩
    · cases hk : s.mgr.locks.get? key with
      | none => simp [Pc.Wf, PyDict.contains, hk] at hwf
      | some l =>
        simp only [hk, Option.some.injEq, Prod.mk.injEq] at hstep
        obtain ⟨rfl, rfl⟩ := hstep
        refine ⟨hinv.quiet hinv.table (fun _ _ => id) rfl (Pc.wf_fetch (by simpa using hwf.1) ?_)
          (by simp [hp, Pc.holding]), .stay rfl⟩
        intro q hq
        rcases List.mem_append.1 hq with hq | hq
        · exact hwf.2.1 q hq
        · obtain rfl := List.mem_singleton.1 hq; exact hk
  | acquire todo held =>
    rcases todo with _ | ⟨⟨k, l⟩, todo⟩ <;> cases a <;>
      simp only [reduceCtorEq, Option.ite_none_right_eq_some, Option.some.injEq,
        Prod.mk.injEq] at hstep
    · obtain ⟨rfl, rfl⟩ := hstep
      exact ⟨hinv.quiet hinv.table (fun _ _ => id) rfl
        ⟨by simpa using hwf.1, by simpa using hwf.2.1, hwf.2.2⟩ (by simp [hp, Pc.holding]),
        .stay rfl⟩
    · obtain ⟨hcan, rfl, rfl⟩ := hstep
      have hk : s.mgr.locks.get? k = some l := hwf.2.1 (k, l) (by simp)
      exact ⟨hinv.acquire hp hcan,
        .take t k (by simp [LockManager.keyOwner, hk, hinv.unlocked_of_acquire hp hcan,
          RLock.unlocked]) (LockManager.keyOwner_update_rlock hinv.table hk _)⟩
  | critical held =>
    cases a <;> simp only [Option.some.injEq, Prod.mk.injEq, reduceCtorEq, ne_eq,
      not_true_eq_false] at hstep ha
    obtain ⟨rfl, rfl⟩ := hstep
    exact ⟨hinv.quiet hinv.table (fun _ _ => id) rfl
      ⟨by simpa using hwf.1, fun q hq => hwf.2.1 q (List.mem_reverse.1 hq),
        fun q hq => hwf.2.2 q (List.mem_reverse.1 hq)⟩
      (by simp [hp, Pc.holding]), .stay rfl⟩
  | release todo =>
    rcases todo with _ | ⟨⟨k, l⟩, todo⟩ <;> cases a <;>
      simp only [reduceCtorEq, Option.some.injEq, Prod.mk.injEq] at hstep <;>
      obtain ⟨rfl, rfl⟩ := hstep
    · exact ⟨hinv.quiet hinv.table (fun _ _ => id) rfl trivial (by simp [hp, Pc.holding]),
        .stay rfl⟩
    · have hk : s.mgr.locks.get? k = some l := hwf.2.1 (k, l) (.head _)
      have hown : s.mgr.rlocks l = ⟨some t, 1⟩ := hwf.2.2 (k, l) (.head _)
      refine ⟨hinv.release hp, .give t k (by simp [LockManager.keyOwner, hk, hown]) ?_⟩
      rw [LockManager.keyOwner_update_rlock hinv.table hk, hown]
      rfl

theorem LockInv.step {s s' : Sys} {t : Nat} {a : Action} (hinv : LockInv s)
    (ha : a ≠ .cleanupUnusedLocks) (h : s.step t a = some s') : LockInv s' :=
  (hinv.step_mutex ha h).1

theorem LockInv.init : LockInv Sys.init :=
  ⟨⟨nofun, nofun⟩, fun _ => trivial, fun _ => .inl rfl⟩

theorem LockInv.run {s : Sys}
    (h : Relation.ReflTransGen (StepBy (· ≠ .cleanupUnusedLocks)) Sys.init s) : LockInv s := by
  induction h with
  | refl => exact LockInv.init
  | tail _ hstep ih =>
    obtain ⟨t, a, ha, hs⟩ := hstep
    exact ih.step ha hs

/-- Two threads guarding one key hold the table's lock for it, which has one holder. -/
theorem LockInv.mutualExclusion {s : Sys} (hinv : LockInv s) : MutualExclusion s := by
  have key : ∀ t k, k ∈ (s.pc t).guarded → ∃ q ∈ (s.pc t).holding, q.1 = k ∧ s.mgr.locks.get? k = some q.2 := by
    intro t k hk
    have hwf := hinv.wf t
    cases hpc : s.pc t <;> rw [hpc] at hk hwf <;> simp only [Pc.guarded, List.not_mem_nil] at hk
    case critical held =>
      obtain ⟨q, hq, rfl⟩ := List.mem_map.1 hk
      exact ⟨q, hq, rfl, hwf.2.1 q hq⟩
    case cleanup _ r => exact hwf.elim
  intro t₁ t₂ k h₁ h₂
  obtain ⟨q₁, hq₁, rfl, hk₁⟩ := key t₁ k h₁
  obtain ⟨q₂, hq₂, hk, hk₂⟩ := key t₂ _ h₂
  exact hinv.holder_eq hq₁ hq₂ (Option.some.inj (hk₁.symm.trans (hk ▸ hk₂)))

end NoCleanup

/-- Without `cleanup_unused_locks`, in every reachable state no two threads are inside critical
sections guarding the same key, and no `_get_lock` has raised. -/
theorem mutualExclusion_without_cleanup {s : Sys}
    (h : Relation.ReflTransGen (StepBy (· ≠ .cleanupUnusedLocks)) Sys.init s) :
    MutualExclusion s ∧ ∀ t, s.pc t ≠ .raised :=
  ⟨(LockInv.run h).mutualExclusion, fun t hr => by simpa [hr, Pc.Wf] using (LockInv.run h).wf t⟩

/-- Without `cleanup_unused_locks`, the owners of the keys' locks move along every run as those of
an atomic per-key mutex do, starting from no owner at all: the per-key lock `StoreSys` assumes. -/
theorem keyOwner_mutexRun {s : Sys}
    (h : Relation.ReflTransGen (StepBy (· ≠ .cleanupUnusedLocks)) Sys.init s) :
    Relation.ReflTransGen MutexStep (fun _ => none) s.mgr.keyOwner := by
  induction h with
  | refl => exact .refl
  | tail hrun hstep ih =>
    obtain ⟨t, a, ha, hs⟩ := hstep
    exact .tail ih ((LockInv.run hrun).step_mutex ha hs).2

/-- Thread 0 holds `"k"`, and thread 1 has fetched the same lock and waits in `acquire()`. -/
def contended : List (Nat × Action) :=
  [(0, .lock "k")] ++ List.replicate 6 (0, .next) ++ [(1, .lock "k")] ++ List.replicate 2 (1, .next)

/-- Where `contended` ends. -/
def contendedState : Sys := (Sys.init.run contended).getD Sys.init

theorem contendedState_exclusive :
    Relation.ReflTransGen (StepBy (· ≠ .cleanupUnusedLocks)) Sys.init contendedState ∧
      MutualExclusion contendedState ∧ ∀ t, contendedState.pc t ≠ .raised := by
  have hreach : Relation.ReflTransGen (StepBy (· ≠ .cleanupUnusedLocks)) Sys.init contendedState :=
    @Sys.run_reach (· ≠ .cleanupUnusedLocks) Sys.init contendedState contended (by decide) rfl
  exact ⟨hreach, mutualExclusion_without_cleanup hreach⟩

/-! ### With reaping

`cleanup_unused_locks` keeps a key when `lock._is_owned()` is true, and that asks whether the
*calling* thread holds the lock. Called from a thread that holds nothing, it deletes every
entry, held or not. -/

/-- Thread 0 enters `lock("k")`; thread 2 runs `cleanup_unused_locks()`, which deletes the entry
of the lock thread 0 holds; thread 1 enters `lock("k")` and gets a fresh `RLock`. -/
def twoHolders : List (Nat × Action) :=
  [(0, .lock "k")] ++ List.replicate 6 (0, .next) ++
    [(2, .cleanupUnusedLocks)] ++ List.replicate 4 (2, .next) ++
    [(1, .lock "k")] ++ List.replicate 6 (1, .next)

/-- Thread 0 creates the lock of `"k"` in `_get_lock`; thread 2's cleanup deletes it before thread
0's final read `self._locks[key]`. -/
def keyError : List (Nat × Action) :=
  [(0, .lock "k")] ++ List.replicate 3 (0, .next) ++
    [(2, .cleanupUnusedLocks)] ++ List.replicate 4 (2, .next) ++ [(0, .next)]

/-- With reaping, two threads are inside critical sections guarding `"k"` at once, and
`_get_lock` raises `KeyError`. -/
theorem cleanup_breaks_mutual_exclusion :
    (∃ s, Relation.ReflTransGen (StepBy fun _ => True) Sys.init s ∧
        (s.pc 0).guarded = ["k"] ∧ (s.pc 1).guarded = ["k"]) ∧
      ∃ s, Relation.ReflTransGen (StepBy fun _ => True) Sys.init s ∧ s.pc 0 = .raised := by
  have h₁ : (Sys.init.run twoHolders).map (fun s => ((s.pc 0).guarded, (s.pc 1).guarded)) =
      some (["k"], ["k"]) := by decide
  have h₂ : (Sys.init.run keyError).map (fun s => s.pc 0) = some .raised := by decide
  obtain ⟨s₁, hs₁, he₁⟩ := Option.map_eq_some'.1 h₁
  obtain ⟨s₂, hs₂, he₂⟩ := Option.map_eq_some'.1 h₂
  exact ⟨⟨s₁, Sys.run_reach _ (fun _ _ => trivial) hs₁, (Prod.ext_iff.1 he₁).1,
    (Prod.ext_iff.1 he₁).2⟩, s₂, Sys.run_reach _ (fun _ _ => trivial) hs₂, he₂⟩

end MiniKV
