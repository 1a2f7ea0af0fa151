/-
Module: MiniKV.Core.Deadlock
Purpose: Deadlock freedom of `lock_multiple` under any interleaving, without
  `cleanup_unused_locks`. A thread waits for another (`WaitsFor`) when it is stuck in `acquire()`
  on an `RLock` the other owns, or at `_get_lock`'s `with self._locks_lock` while the other holds
  it; a deadlock is a nonempty set of threads each waiting for another member (`Deadlock`). Each
  call fetches and acquires its keys in `sorted(set(keys))` order (`Pc.Ordered`, kept by every
  statement), and `_locks_lock` is held only across the double check (`LocksLockAtRecheck`). So
  a waited-for thread that is itself waiting sits in `acquire()`, holds the key the first one
  waits for, and waits for a larger key (`OrderInv.waitedKey_lt`); as `_locks` has finitely many
  keys, no set of threads waits in a circle (`no_deadlock_without_cleanup`).
Trusted boundary: none
Main exports: WaitsFor, WaitsFor.blocked, Deadlock, Pc.Ordered, LocksLockAtRecheck, OrderInv,
  OrderInv.run, no_deadlock_without_cleanup
-/
import MiniKV.Core.LockManager
import Mathlib.Data.Set.Finite.Basic

namespace MiniKV

/-! ### Waiting -/

/-- Thread `t` cannot go on because another thread `t'` holds the lock it waits for: the `RLock`
of `acquire()`, or `_locks_lock` at `_get_lock`'s `with`. -/
def WaitsFor (s : Sys) (t t' : Nat) : Prop :=
  t' ≠ t ∧ ((∃ k l todo held, s.pc t = .acquire ((k, l) :: todo) held ∧
      (s.mgr.rlocks l).owner = some t') ∨
    ∃ key rest got, s.pc t = .getLock .acquireLocksLock key rest got ∧ s.mgr.locksLock = some t')

/-- A waiting thread is blocked: its next statement cannot run. -/
theorem WaitsFor.blocked {s : Sys} {t t' : Nat} (h : WaitsFor s t t') : s.step t .next = none := by
  obtain ⟨hne, ⟨k, l, todo, held, hp, ho⟩ | ⟨key, rest, got, hp, hl⟩⟩ := h
  · have hc : (s.mgr.rlocks l).canAcquire t = false := by simp [RLock.canAcquire, ho, hne]
    rw [Sys.step, hp]
    exact congrArg (Option.map _) (if_neg (by rw [hc]; decide))
  · rw [Sys.step, hp]
    exact congrArg (Option.map _) (if_neg (by rw [hl]; exact Option.some_ne_none t'))

/-- A deadlock: a nonempty set of threads, each waiting for a lock another member holds. -/
def Deadlock (s : Sys) (D : Set Nat) : Prop := D.Nonempty ∧ ∀ t ∈ D, ∃ t' ∈ D, WaitsFor s t t'

/-! ### Keys in order -/

/-- The keys of the call a thread is in, fetched or still to fetch, acquired or still to
acquire, strictly increase. -/
def Pc.Ordered : Pc → Prop
  | .getLock _ key rest got => (got.map Prod.fst ++ key :: rest).Sorted (· < ·)
  | .acquire todo held => ((held ++ todo).map Prod.fst).Sorted (· < ·)
  | _ => True

theorem sortedSet_sorted (keys : List String) : (sortedSet keys).Sorted (· < ·) := by
  have hle : (sortedSet keys).Sorted (· ≤ ·) := by
    simpa [sortedSet] using @List.sorted_mergeSort String (fun a b => decide (a ≤ b))
      (fun a b c h₁ h₂ => by simp only [decide_eq_true_eq] at *; exact le_trans h₁ h₂)
      (fun a b => by simpa using le_total a b) keys.dedup
  exact hle.lt_of_le ((List.mergeSort_perm _ _).nodup_iff.2 (List.nodup_dedup _))

theorem Pc.ordered_fetch {got : List (String × Nat)} {ks : List String}
    (h : (got.map Prod.fst ++ ks).Sorted (· < ·)) : (Pc.fetch got ks).Ordered := by
  cases ks with
  | nil => simpa [Pc.fetch, Pc.Ordered] using h
  | cons k ks => exact h

/-- Every statement keeps a thread's keys in order. -/
theorem Pc.Ordered.step {m m' : LockManager} {t : Nat} {p p' : Pc} {a : Action}
    (h : threadStep m t p a = some (p', m')) (ho : p.Ordered) : p'.Ordered := by
  unfold threadStep at h
  cases p with
  | idle =>
    cases a <;> simp only [Option.some.injEq, Prod.mk.injEq, reduceCtorEq] at h <;>
      obtain ⟨rfl, -⟩ := h
    · exact Pc.ordered_fetch (List.sorted_singleton _)
    · exact Pc.ordered_fetch (by simpa using sortedSet_sorted _)
    · trivial
  | getLock line key rest got =>
    cases a <;> cases line <;> simp only [Option.some.injEq, Prod.mk.injEq, reduceCtorEq,
      Option.ite_none_right_eq_some] at h
    · exact h.1 ▸ ho
    · exact h.2.1 ▸ ho
    · exact h.1 ▸ ho
    · split at h
      · obtain ⟨rfl, -⟩ := Prod.mk.inj (Option.some.inj h)
        exact Pc.ordered_fetch (by
          rw [List.map_append, List.map_singleton, List.append_assoc, List.singleton_append]
          exact ho)
      · obtain ⟨rfl, -⟩ := Prod.mk.inj (Option.some.inj h)
        trivial
  | acquire todo held =>
    rcases todo with _ | ⟨⟨k, l⟩, todo⟩ <;> cases a <;>
      simp only [reduceCtorEq, Option.ite_none_right_eq_some, Option.some.injEq,
        Prod.mk.injEq] at h
    · exact h.1 ▸ trivial
    · rw [← h.2.1]
      simpa only [Pc.Ordered, List.append_assoc, List.singleton_append] using ho
  | critical held =>
    cases a <;> simp only [Option.some.injEq, Prod.mk.injEq, reduceCtorEq] at h <;>
      exact h.1 ▸ trivial
  | release todo =>
    rcases todo with _ | ⟨⟨k, l⟩, todo⟩ <;> cases a <;>
      simp only [reduceCtorEq, Option.some.injEq, Prod.mk.injEq] at h <;> exact h.1 ▸ trivial
  | raised => cases a <;> simp only [reduceCtorEq, Option.some.injEq, Prod.mk.injEq] at h; exact h.1 ▸ trivial
  | cleanup line r =>
    rcases line with _ | _ | _ | ⟨k, ks⟩ <;> cases a <;>
      simp only [reduceCtorEq, Option.ite_none_right_eq_some, Option.some.injEq,
        Prod.mk.injEq] at h
    · exact h.2.1 ▸ trivial
    · exact h.1 ▸ trivial
    · cases r <;> exact h.1 ▸ trivial
    · exact h.1 ▸ trivial

/-! ### `_locks_lock` is held only across the double check -/

/-- How a statement outside a cleanup moves `_locks_lock`: the thread takes it at `_get_lock`'s
`with`, lets it go after the double check, or leaves it alone at any other statement. -/
theorem threadStep_locksLock {m m' : LockManager} {t : Nat} {p p' : Pc} {a : Action}
    (h : threadStep m t p a = some (p', m')) (ha : a ≠ .cleanupUnusedLocks)
    (hp : ∀ line r, p ≠ .cleanup line r) :
    (∃ key rest got, p' = .getLock .recheck key rest got ∧ m'.locksLock = some t) ∨
      m'.locksLock = none ∨
      (m'.locksLock = m.locksLock ∧ ∀ key rest got, p ≠ .getLock .recheck key rest got) := by
  unfold threadStep at h
  cases p with
  | idle =>
    cases a <;> simp only [Option.some.injEq, Prod.mk.injEq, reduceCtorEq, ne_eq,
      not_true_eq_false] at h ha <;> exact .inr (.inr ⟨h.2 ▸ rfl, nofun⟩)
  | getLock line key rest got =>
    cases a <;> cases line <;> simp only [Option.some.injEq, Prod.mk.injEq, reduceCtorEq,
      Option.ite_none_right_eq_some] at h
    · exact .inr (.inr ⟨h.2 ▸ rfl, nofun⟩)
    · exact .inl ⟨key, rest, got, h.2.1.symm, h.2.2 ▸ rfl⟩
    · exact .inr (.inl (h.2 ▸ rfl))
    · split at h <;> exact .inr (.inr ⟨(Prod.mk.inj (Option.some.inj h)).2 ▸ rfl, nofun⟩)
  | acquire todo held =>
    rcases todo with _ | ⟨⟨k, l⟩, todo⟩ <;> cases a <;>
      simp only [reduceCtorEq, Option.ite_none_right_eq_some, Option.some.injEq,
        Prod.mk.injEq] at h
    · exact .inr (.inr ⟨h.2 ▸ rfl, nofun⟩)
    · exact .inr (.inr ⟨h.2.2 ▸ rfl, nofun⟩)
  | critical held =>
    cases a <;> simp only [Option.some.injEq, Prod.mk.injEq, reduceCtorEq, ne_eq,
      not_true_eq_false] at h ha
    exact .inr (.inr ⟨h.2 ▸ rfl, nofun⟩)
  | release todo =>
    rcases todo with _ | ⟨⟨k, l⟩, todo⟩ <;> cases a <;>
      simp only [reduceCtorEq, Option.some.injEq, Prod.mk.injEq] at h <;>
      exact .inr (.inr ⟨h.2 ▸ rfl, nofun⟩)
  | raised =>
    cases a <;> simp only [reduceCtorEq, Option.some.injEq, Prod.mk.injEq] at h
    exact .inr (.inr ⟨h.2 ▸ rfl, nofun⟩)
  | cleanup line r => exact absurd rfl (hp line r)

/-- `_locks_lock` is held only by a thread at the double check of `_get_lock`. -/
def LocksLockAtRecheck (s : Sys) : Prop :=
  ∀ u, s.mgr.locksLock = some u → ∃ key rest got, s.pc u = .getLock .recheck key rest got

/-- The invariant of runs without cleanup, with every call's keys in order and `_locks_lock`
held only across the double check. -/
structure OrderInv (s : Sys) : Prop where
  lock : LockInv s
  ordered : ∀ t, (s.pc t).Ordered
  locksLock : LocksLockAtRecheck s

theorem OrderInv.step {s s' : Sys} {t : Nat} {a : Action} (hinv : OrderInv s)
    (ha : a ≠ .cleanupUnusedLocks) (h : s.step t a = some s') : OrderInv s' := by
  have hlock := hinv.lock.step ha h
  obtain ⟨⟨p', m'⟩, hstep, rfl⟩ := Option.map_eq_some'.1 h
  refine ⟨hlock, fun t' => ?_, fun u hu => ?_⟩
  · by_cases ht : t' = t
    · subst ht; simpa using (hinv.ordered t').step hstep
    · simpa [Function.update_noteq ht] using hinv.ordered t'
  · have hp : ∀ line r, s.pc t ≠ .cleanup line r := fun line r hc => by
      simpa [hc, Pc.Wf] using hinv.lock.wf t
    dsimp only at hu ⊢
    rcases threadStep_locksLock hstep ha hp with ⟨key, rest, got, rfl, hl⟩ | hl | ⟨hl, hre⟩
    · obtain rfl := Option.some.inj (hu.symm.trans hl)
      exact ⟨key, rest, got, by simp⟩
    · exact absurd (hu.symm.trans hl) (Option.some_ne_none u)
    · obtain ⟨key, rest, got, hpu⟩ := hinv.locksLock u (hl ▸ hu)
      have hut : u ≠ t := fun e => hre key rest got (e ▸ hpu)
      exact ⟨key, rest, got, by simpa [Function.update_noteq hut] using hpu⟩

theorem OrderInv.run {s : Sys}
    (h : Relation.ReflTransGen (StepBy (· ≠ .cleanupUnusedLocks)) Sys.init s) : OrderInv s := by
  induction h with
  | refl => exact ⟨LockInv.init, fun _ => trivial, fun _ h => Option.noConfusion h⟩
  | tail _ hstep ih =>
    obtain ⟨t, a, ha, hs⟩ := hstep
    exact ih.step ha hs

/-! ### No circular wait -/

/-- A thread waited for by `t`, and itself waiting, sits in `acquire()`, and so does `t`: the
first holds the key `t` waits for and waits for a larger key. -/
theorem OrderInv.waitedKey_lt {s : Sys} (hinv : OrderInv s) {t t' t'' : Nat}
    (h : WaitsFor s t t') (h' : WaitsFor s t' t'') :
    ∃ k l todo held k' l' todo' held', s.pc t = .acquire ((k, l) :: todo) held ∧
      s.pc t' = .acquire ((k', l') :: todo') held' ∧ k < k' := by
  obtain ⟨-, ⟨k, l, todo, held, hp, ho⟩ | ⟨key, rest, got, -, hl⟩⟩ := h
  swap
  · obtain ⟨key', rest', got', hr⟩ := hinv.locksLock t' hl
    obtain ⟨-, ⟨_, _, _, _, hp', -⟩ | ⟨_, _, _, hp', -⟩⟩ := h' <;> rw [hr] at hp' <;> cases hp'
  -- the owner of `l` holds it in its position
  obtain ⟨u, q, hq, hql⟩ : ∃ u, ∃ q ∈ (s.pc u).holding, q.2 = l := by
    rcases hinv.lock.free l with hfree | hheld
    · rw [hfree] at ho; cases ho
    · exact hheld
  obtain rfl : u = t' := by
    have hown := (hinv.lock.wf u).owns q hq
    rw [hql] at hown
    rw [hown] at ho
    exact Option.some.inj ho
  obtain ⟨-, ⟨k', l', todo', held', hp', -⟩ | ⟨key', rest', got', hp', -⟩⟩ := h'
  · refine ⟨k, l, todo, held, k', l', todo', held', hp, hp', ?_⟩
    rw [hp'] at hq
    have hwf := hinv.lock.wf t
    have hwf' := hinv.lock.wf u
    have hord := hinv.ordered u
    rw [hp] at hwf
    rw [hp'] at hwf' hord
    have hqk : q.1 = k := hinv.lock.table.injective _ _ q.2 (hwf'.2.1 q (List.mem_append_left _ hq))
      (hql ▸ hwf.2.1 (k, l) (List.mem_append_right _ (.head _)))
    rw [← hqk]
    simp only [Pc.Ordered, List.map_append, List.map_cons] at hord
    exact (List.pairwise_append.1 hord).2.2 _ (List.mem_map_of_mem _ hq) _ (.head _)
  · rw [hp'] at hq
    exact absurd hq (List.not_mem_nil _)

/-- Without `cleanup_unused_locks`, in every reachable state of every interleaving of `lock`
and `lock_multiple` calls, over any keys, no nonempty set of threads has each member waiting
for a lock another member holds. -/
theorem no_deadlock_without_cleanup {s : Sys}
    (h : Relation.ReflTransGen (StepBy (· ≠ .cleanupUnusedLocks)) Sys.init s) (D : Set Nat) :
    ¬ Deadlock s D := by
  have hinv := OrderInv.run h
  rintro ⟨⟨t₀, ht₀⟩, hD⟩
  have hsucc : ∀ t ∈ D, ∃ t' ∈ D, ∃ k l todo held k' l' todo' held',
      s.pc t = .acquire ((k, l) :: todo) held ∧ s.pc t' = .acquire ((k', l') :: todo') held' ∧
        k < k' := fun t ht => by
    obtain ⟨t', ht', hw⟩ := hD t ht
    obtain ⟨_, -, hw'⟩ := hD t' ht'
    exact ⟨t', ht', hinv.waitedKey_lt hw hw'⟩
  -- the keys members wait for: finitely many, as they are keys of `_locks`
  let W : Set String := {k | ∃ t ∈ D, ∃ l todo held, s.pc t = .acquire ((k, l) :: todo) held}
  have hfin : W.Finite := (List.finite_toSet s.mgr.locks.keys).subset
    fun k ⟨t, _, l, todo, held, hp⟩ => by
      have hwf := hinv.lock.wf t
      rw [hp] at hwf
      exact PyDict.mem_keys_iff.2
        (by rw [hwf.2.1 (k, l) (List.mem_append_right _ (.head _))]; exact Option.some_ne_none _)
  obtain ⟨-, -, k, l, todo, held, -, -, -, -, hp₀, -, -⟩ := hsucc t₀ ht₀
  obtain ⟨kmax, ⟨t, ht, l, todo, held, hp⟩, hmax⟩ :=
    hfin.exists_maximal_wrt id W ⟨k, t₀, ht₀, l, todo, held, hp₀⟩
  obtain ⟨t', ht', k₁, l₁, todo₁, held₁, k', l', todo', held', hp₁, hp', hlt⟩ := hsucc t ht
  rw [hp] at hp₁
  obtain ⟨⟨rfl, -⟩, -⟩ := List.cons.inj (Pc.acquire.inj hp₁).1
  exact ne_of_lt hlt (hmax k' ⟨t', ht', l', todo', held', hp'⟩ hlt.le)

/-- In `contended` thread 1 waits for thread 0 on `"k"`, and the two are not deadlocked. -/
theorem no_deadlock_contended :
    Relation.ReflTransGen (StepBy (· ≠ .cleanupUnusedLocks)) Sys.init contendedState ∧
      WaitsFor contendedState 1 0 ∧ ¬ Deadlock contendedState {0, 1} := by
  have hreach : Relation.ReflTransGen (StepBy (· ≠ .cleanupUnusedLocks)) Sys.init contendedState :=
    @Sys.run_reach (· ≠ .cleanupUnusedLocks) Sys.init contendedState contended (by decide) rfl
  exact ⟨hreach, ⟨by decide, .inl ⟨"k", 0, [], [], by decide, by decide⟩⟩,
    no_deadlock_without_cleanup hreach _⟩

end MiniKV
