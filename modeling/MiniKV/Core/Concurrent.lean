/-
Module: MiniKV.Core.Concurrent
Purpose: `KeyValueStore.set`, `delete`, `clear` and `update` of `core/store.py` called from many
  threads at once, one statement at a time (`StoreSys.step`). `set` and `delete` run under the
  per-key lock of `_lock_manager`, taken here as an atomic per-key mutex: every step of the
  store moves `keyLocks` as `MutexStep` says (`StoreSys.keyLocks_mutexRun`), and the lock
  manager without reaping, which the store never does, moves the owners of its keys' locks in
  the same steps (`keyOwner_mutexRun`);
  `clear` holds `_global_lock`, which `set` and `delete` never take; `update` holds no lock: it
  switches the shared WAL off, calls `set` per entry, then switches it on and checkpoints. The
  history records each call's `invoke`, the `lin` step where it takes effect with its outcome,
  and its `respond`. Linearizability with the WAL as witness fails
  (`concurrent_store_counterexamples`): a `set` whose WAL append precedes a `clear` and whose
  map write follows it leaves a key the WAL replays away; a `delete` whose check precedes a
  `clear` raises `KeyError`; and `update` leaves its writes out of the WAL even alone. Among
  `set` and `delete` it holds (`setDelete_linearizable`): no call raises, each call takes
  effect inside its interval, the calls in that order give every outcome and the final map,
  and replaying the WAL entries the session wrote over the initial map gives the final map.
Trusted boundary: none
Main exports: Call, Outcome, Call.run, runCalls, Event, linearization, CallPc, StoreAction,
  StoreSys, StoreSys.step, StoreStepBy, StoreSys.keyLocks_mutexRun, SetDeleteInv,
  setDelete_linearizable, concurrent_store_counterexamples
-/
import MiniKV.Core.Store
import MiniKV.Core.LockManager
import Mathlib.Logic.Relation

namespace MiniKV

/-! ### Calls and their sequential meaning -/

/-- A call a thread makes on the shared store. -/
inductive Call (V : Type) where
  | set (key : String) (value : V)
  | delete (key : String)
  | clear
  | update (data : PyDict String V)
deriving DecidableEq

/-- What a call returns: `None`, a `bool`, or the `KeyError` it raises. -/
inductive Outcome where
  | none
  | bool (b : Bool)
  | keyError
deriving DecidableEq

variable {V : Type}

/-- A call run alone on `st`: its outcome and the store after it. -/
def Call.run (st : KeyValueStore V) : Call V → Outcome × KeyValueStore V
  | .set key value => (.none, st.set key value)
  | .delete key => (.bool (st.delete key).1, (st.delete key).2)
  | .clear => (.none, st.clear)
  | .update d => (.none, st.update d)

/-- The calls run one after another from `st`: every outcome in order, and the final store. -/
def runCalls (st : KeyValueStore V) (calls : List (Call V)) : List Outcome × KeyValueStore V :=
  calls.foldl (fun acc c => (acc.1 ++ [(c.run acc.2).1], (c.run acc.2).2)) ([], st)

theorem runCalls_append_singleton (st : KeyValueStore V) (calls : List (Call V)) (c : Call V) :
    runCalls st (calls ++ [c]) =
      ((runCalls st calls).1 ++ [(c.run (runCalls st calls).2).1],
        (c.run (runCalls st calls).2).2) := by
  simp [runCalls]

/-! ### Histories -/

/-- What the history records: a call starting, taking effect with its outcome, and returning. -/
inductive Event (V : Type) where
  | invoke (t : Nat) (c : Call V)
  | lin (t : Nat) (c : Call V) (outcome : Outcome)
  | respond (t : Nat) (outcome : Outcome)
deriving DecidableEq

/-- The thread an event belongs to. -/
def Event.thread : Event V → Nat
  | .invoke t _ => t
  | .lin t _ _ => t
  | .respond t _ => t

/-- The calls in the order they took effect, with their outcomes. -/
def linearization (es : List (Event V)) : List (Call V × Outcome) :=
  es.filterMap fun
    | .lin _ c o => some (c, o)
    | _ => none

/-- The events of one finished call of thread `t`. -/
def callEvents (t : Nat) (c : Call V × Outcome) : List (Event V) :=
  [.invoke t c.1, .lin t c.1 c.2, .respond t c.2]

/-! ### Threads -/

/-- The statement of `set` a thread is at. -/
inductive SetLine where
  /-- `with self._lock_manager.lock(key)`. -/
  | lock
  /-- `if self._wal: self._wal.log_set(key, value)`. -/
  | log
  /-- `self._data[key] = value`. -/
  | write
  /-- `if self._persistence: self._persistence.save(key, value)`. -/
  | persist
  /-- Leaving the `with` block, which releases the key's lock. -/
  | release
deriving DecidableEq

/-- The statement of `delete` a thread is at. -/
inductive DeleteLine where
  | lock
  /-- `if key not in self._data: return False`. -/
  | check
  /-- `if self._wal: self._wal.log_delete(key)`. -/
  | log
  /-- `del self._data[key]`, which raises `KeyError` for an absent key. -/
  | del
  /-- `if self._persistence: self._persistence.delete(key)`. -/
  | persist
  /-- Returning `result`, which releases the key's lock. -/
  | release (result : Bool)
deriving DecidableEq

/-- The statement of `clear` a thread is at. -/
inductive ClearLine where
  /-- `with self._global_lock`. -/
  | lock
  /-- `if self._wal: self._wal.log_clear()`. -/
  | log
  /-- `self._data.clear()`. -/
  | clear
  /-- `if self._persistence: self._persistence.clear()`. -/
  | persist
  | release
deriving DecidableEq

/-- Where a thread stands. -/
inductive CallPc (V : Type) where
  | idle
  /-- In `set(key, value)`; `rest` holds the entries `update` has still to set after this one,
  `none` for a call from outside. -/
  | set (line : SetLine) (key : String) (value : V) (rest : Option (List (String × V)))
  | delete (line : DeleteLine) (key : String)
  | clear (line : ClearLine)
  /-- `update(data)` at `if self._wal: self._wal.disable()`, with the entries of `data`. -/
  | updateDisable (items : List (String × V))
  /-- `update`'s `finally` block: `self._wal.enable()`. -/
  | updateEnable
  /-- `update`'s `finally` block: `self._wal.checkpoint()`. -/
  | updateCheckpoint
deriving DecidableEq

/-- Where a call starts. -/
def Call.start : Call V → CallPc V
  | .set key value => .set .lock key value none
  | .delete key => .delete .lock key
  | .clear => .clear .lock
  | .update d => .updateDisable d.entries

/-- The loop of `update`: `set` the next entry, or go on to the `finally` block. -/
def CallPc.updateLoop : List (String × V) → CallPc V
  | [] => .updateEnable
  | (key, value) :: rest => .set .lock key value (some rest)

/-- What a thread does next: start a call, or take the next statement of the call it is in. -/
inductive StoreAction (V : Type) where
  | call (c : Call V)
  | next

/-- The store, the owners of the per-key locks and of `_global_lock`, every thread's position,
and the history. -/
structure StoreSys (V : Type) where
  store : KeyValueStore V
  keyLocks : String → Option Nat
  globalLock : Option Nat
  pc : Nat → CallPc V
  events : List (Event V)

/-- The session's start: the store `st`, no lock held, every thread idle, an empty history. -/
def StoreSys.start (st : KeyValueStore V) : StoreSys V :=
  ⟨st, fun _ => none, none, fun _ => .idle, []⟩

/-- Thread `t` at `line` of `set(key, value)`; `set` from `update` records no events of its own. -/
def StoreSys.setStep (s : StoreSys V) (t : Nat) (key : String) (value : V)
    (r : Option (List (String × V))) : SetLine → Option (StoreSys V)
  | .lock =>
      if s.keyLocks key = none then
        some { s with pc := Function.update s.pc t (.set .log key value r),
                      keyLocks := Function.update s.keyLocks key (some t) }
      else none
  | .log =>
      some { s with pc := Function.update s.pc t (.set .write key value r),
                    store := { s.store with wal := s.store.wal.map (·.logSet key value) } }
  | .write =>
      some { s with pc := Function.update s.pc t (.set .persist key value r),
                    store := { s.store with data := s.store.data.insert key value },
                    events := s.events ++ if r.isNone then [.lin t (.set key value) .none] else [] }
  | .persist =>
      some { s with pc := Function.update s.pc t (.set .release key value r),
                    store := { s.store with persistence :=
                      s.store.persistence.map (SQLitePersistence.save · key value) } }
  | .release =>
      some { s with pc := Function.update s.pc t (r.elim .idle CallPc.updateLoop),
                    keyLocks := Function.update s.keyLocks key none,
                    events := s.events ++ if r.isNone then [.respond t .none] else [] }

/-- Thread `t` at `line` of `delete(key)`. -/
def StoreSys.deleteStep (s : StoreSys V) (t : Nat) (key : String) :
    DeleteLine → Option (StoreSys V)
  | .lock =>
      if s.keyLocks key = none then
        some { s with pc := Function.update s.pc t (.delete .check key),
                      keyLocks := Function.update s.keyLocks key (some t) }
      else none
  | .check =>
      if s.store.data.contains key then
        some { s with pc := Function.update s.pc t (.delete .log key) }
      else
        some { s with pc := Function.update s.pc t (.delete (.release false) key),
                      events := s.events ++ [.lin t (.delete key) (.bool false)] }
  | .log =>
      some { s with pc := Function.update s.pc t (.delete .del key),
                    store := { s.store with wal := s.store.wal.map (·.logDelete key) } }
  | .del =>
      if s.store.data.contains key then
        some { s with pc := Function.update s.pc t (.delete .persist key),
                      store := { s.store with data := s.store.data.erase key },
                      events := s.events ++ [.lin t (.delete key) (.bool true)] }
      else
        some { s with pc := Function.update s.pc t .idle,
                      keyLocks := Function.update s.keyLocks key none,
                      events := s.events ++ [.respond t .keyError] }
  | .persist =>
      some { s with pc := Function.update s.pc t (.delete (.release true) key),
                    store := { s.store with persistence :=
                      s.store.persistence.map (SQLitePersistence.delete · key) } }
  | .release b =>
      some { s with pc := Function.update s.pc t .idle,
                    keyLocks := Function.update s.keyLocks key none,
                    events := s.events ++ [.respond t (.bool b)] }

/-- Thread `t` at `line` of `clear()`. -/
def StoreSys.clearStep (s : StoreSys V) (t : Nat) : ClearLine → Option (StoreSys V)
  | .lock =>
      if s.globalLock = none then
        some { s with pc := Function.update s.pc t (.clear .log), globalLock := some t }
      else none
  | .log =>
      some { s with pc := Function.update s.pc t (.clear .clear),
                    store := { s.store with wal := s.store.wal.map WAL.logClear } }
  | .clear =>
      some { s with pc := Function.update s.pc t (.clear .persist),
                    store := { s.store with data := PyDict.empty },
                    events := s.events ++ [.lin t .clear .none] }
  | .persist =>
      some { s with pc := Function.update s.pc t (.clear .release),
                    store := { s.store with persistence :=
                      s.store.persistence.map SQLitePersistence.clear } }
  | .release =>
      some { s with pc := Function.update s.pc t .idle, globalLock := none,
                    events := s.events ++ [.respond t .none] }

/-- One statement of thread `t`; `none` when the thread is blocked or the action does not
apply. -/
def StoreSys.step (s : StoreSys V) (t : Nat) (a : StoreAction V) : Option (StoreSys V) :=
  match s.pc t, a with
  | .idle, .call c =>
      some { s with pc := Function.update s.pc t c.start, events := s.events ++ [.invoke t c] }
  | .set line key value r, .next => s.setStep t key value r line
  | .delete line key, .next => s.deleteStep t key line
  | .clear line, .next => s.clearStep t line
  | .updateDisable items, .next =>
      some { s with pc := Function.update s.pc t (CallPc.updateLoop items),
                    store := { s.store with wal := s.store.wal.map WAL.disable } }
  | .updateEnable, .next =>
      some { s with pc := Function.update s.pc t .updateCheckpoint,
                    store := { s.store with wal := s.store.wal.map WAL.enable } }
  | .updateCheckpoint, .next =>
      some { s with pc := Function.update s.pc t .idle, events := s.events ++ [.respond t .none] }
  | _, _ => none

/-- The calls `P` allows may start; every started call may go on. -/
def StoreAction.Allowed (P : Call V → Prop) : StoreAction V → Prop
  | .call c => P c
  | .next => True

/-- Some thread takes an allowed step. -/
def StoreStepBy (P : Call V → Prop) (s s' : StoreSys V) : Prop :=
  ∃ t a, StoreAction.Allowed P a ∧ s.step t a = some s'

/-- Run the steps `(thread, action)` in order; `none` as soon as one is blocked. -/
def StoreSys.run (s : StoreSys V) : List (Nat × StoreAction V) → Option (StoreSys V)
  | [] => some s
  | (t, a) :: rest => (s.step t a).bind fun s' => s'.run rest

theorem StoreSys.run_reach (P : Call V → Prop) {s s' : StoreSys V}
    {tr : List (Nat × StoreAction V)} (hP : ∀ x ∈ tr, StoreAction.Allowed P x.2)
    (h : s.run tr = some s') : Relation.ReflTransGen (StoreStepBy P) s s' := by
  induction tr generalizing s with
  | nil => cases h; exact .refl
  | cons x tr ih =>
    obtain ⟨t, a⟩ := x
    obtain ⟨s₁, h₁, h₂⟩ := Option.bind_eq_some.1 h
    exact .head ⟨t, a, hP _ (.head _), h₁⟩ (ih (fun x hx => hP x (.tail _ hx)) h₂)

theorem StoreSys.setStep_pc {s s' : StoreSys V} {t : Nat} {key : String} {value : V}
    {r : Option (List (String × V))} {line : SetLine} (h : s.setStep t key value r line = some s') :
    ∃ p, s'.pc = Function.update s.pc t p := by
  cases line <;> simp only [StoreSys.setStep] at h <;> (try split_ifs at h) <;> cases h <;>
    exact ⟨_, rfl⟩

theorem StoreSys.deleteStep_pc {s s' : StoreSys V} {t : Nat} {key : String} {line : DeleteLine}
    (h : s.deleteStep t key line = some s') : ∃ p, s'.pc = Function.update s.pc t p := by
  cases line <;> simp only [StoreSys.deleteStep] at h <;> (try split_ifs at h) <;> cases h <;>
    exact ⟨_, rfl⟩

theorem StoreSys.clearStep_pc {s s' : StoreSys V} {t : Nat} {line : ClearLine}
    (h : s.clearStep t line = some s') : ∃ p, s'.pc = Function.update s.pc t p := by
  cases line <;> simp only [StoreSys.clearStep] at h <;> (try split_ifs at h) <;> cases h <;>
    exact ⟨_, rfl⟩

/-- A step of thread `t` moves `t` alone. -/
theorem StoreSys.step_pc {s s' : StoreSys V} {t : Nat} {a : StoreAction V}
    (h : s.step t a = some s') : ∃ p, s'.pc = Function.update s.pc t p := by
  unfold StoreSys.step at h
  split at h
  all_goals first
    | exact StoreSys.setStep_pc h
    | exact StoreSys.deleteStep_pc h
    | exact StoreSys.clearStep_pc h
    | (cases h <;> exact ⟨_, rfl⟩)

/-- A thread absent from the steps keeps its position. -/
theorem StoreSys.run_pc_of_not_mem {s s' : StoreSys V} {tr : List (Nat × StoreAction V)}
    {t : Nat} (ht : t ∉ tr.map Prod.fst) (h : s.run tr = some s') : s'.pc t = s.pc t := by
  induction tr generalizing s with
  | nil => cases h; rfl
  | cons x tr ih =>
    obtain ⟨t', a⟩ := x
    obtain ⟨s₁, h₁, h₂⟩ := Option.bind_eq_some.1 h
    obtain ⟨p, hp⟩ := StoreSys.step_pc h₁
    rw [ih (fun hm => ht (.tail _ hm)) h₂, hp]
    exact Function.update_noteq (fun e => ht (by simp [e])) _ _

/-- All threads idle at the end of a run that started with all threads idle, once those that
took steps are. -/
theorem StoreSys.idle_of_run {s s' : StoreSys V} {tr : List (Nat × StoreAction V)}
    (h : s.run tr = some s') (hs : ∀ t, s.pc t = .idle)
    (hmem : ∀ t ∈ tr.map Prod.fst, s'.pc t = .idle) : ∀ t, s'.pc t = .idle := fun t =>
  if ht : t ∈ tr.map Prod.fst then hmem t ht else (StoreSys.run_pc_of_not_mem ht h).trans (hs t)

/-! ### `set` and `delete` alone are linearizable

Each `set` takes effect at its map write and each `delete` at its membership check (when it
returns `False`) or its `del`; all of these happen under the key's lock, and no other call
touches the map or the WAL. So memory evolves exactly as the calls run one after another in
that order (`SeqAgrees`), and the WAL differs from memory only at keys whose owner has logged a
change and not yet applied it (`WalAgrees`). -/

/-- `set` or `delete`. -/
def Call.IsSetOrDelete : Call V → Prop
  | .set _ _ => True
  | .delete _ => True
  | _ => False

/-- Idle, or inside a `set` or `delete` called from outside. -/
def CallPc.IsSetDelete : CallPc V → Prop
  | .idle => True
  | .set _ _ _ r => r = none
  | .delete _ _ => True
  | _ => False

/-- The key whose lock the thread holds. -/
def CallPc.lockedKey : CallPc V → Option String
  | .set line key _ _ => if line = .lock then none else some key
  | .delete line key => if line = .lock then none else some key
  | _ => none

/-- The key a `delete` found present and has not yet removed. -/
def CallPc.checkedKey : CallPc V → Option String
  | .delete .log key => some key
  | .delete .del key => some key
  | _ => none

/-- The events the thread's current call has recorded so far. -/
def CallPc.openEvents (t : Nat) : CallPc V → List (Event V)
  | .set line key value _ =>
      .invoke t (.set key value) ::
        if line = .persist ∨ line = .release then [.lin t (.set key value) .none] else []
  | .delete (.release b) key => [.invoke t (.delete key), .lin t (.delete key) (.bool b)]
  | .delete .persist key => [.invoke t (.delete key), .lin t (.delete key) (.bool true)]
  | .delete _ key => [.invoke t (.delete key)]
  | _ => []

/-- The change to a key the thread has logged to the WAL and not yet applied to memory. -/
def CallPc.pending : CallPc V → Option (String × Option V)
  | .set .write key value _ => some (key, some value)
  | .delete .del key => some (key, none)
  | _ => none

/-- The history agrees with the calls run one after another in the order they took effect. -/
def SeqAgrees (st₀ : KeyValueStore V) (es : List (Event V)) (d : PyDict String V) : Prop :=
  (runCalls st₀ ((linearization es).map Prod.fst)).1 = (linearization es).map Prod.snd ∧
    (runCalls st₀ ((linearization es).map Prod.fst)).2.data = d

/-- Each thread's events are its finished calls, then the call it is in. -/
def Bracketed (es : List (Event V)) (pc : Nat → CallPc V) : Prop :=
  ∀ t, ∃ calls : List (Call V × Outcome),
    es.filter (·.thread == t) = calls.flatMap (callEvents t) ++ (pc t).openEvents t

/-- What the WAL written since the start says of each key: what memory says, unless a thread
has logged a change of it that it has not yet applied. -/
def WalAgrees (d₀ : PyDict String V) (es : List (WALEntry V)) (pc : Nat → CallPc V)
    (d : PyDict String V) : Prop :=
  (∀ t k x, (pc t).pending = some (k, x) → (replayInto d₀ es).get? k = x) ∧
    ∀ k, (∀ t x, (pc t).pending ≠ some (k, x)) → (replayInto d₀ es).get? k = d.get? k

/-- The invariant of runs of `set` and `delete`: the lock table lists each holder, memory holds
every key a `delete` found present, the WAL agrees with memory up to logged changes, memory is
the sequential run of the calls that took effect, every thread's events are bracketed, and no
call has raised. -/
structure SetDeleteInv (st₀ : KeyValueStore V) (es₀ : List (WALEntry V)) (s : StoreSys V) :
    Prop where
  shape : ∀ t, (s.pc t).IsSetDelete
  locks : ∀ k t, s.keyLocks k = some t ↔ (s.pc t).lockedKey = some k
  present : ∀ t k, (s.pc t).checkedKey = some k → s.store.data.contains k
  wal : ∃ es, s.store.wal = some ⟨true, es₀ ++ es⟩ ∧ WalAgrees st₀.data es s.pc s.store.data
  seq : SeqAgrees st₀ s.events s.store.data
  bracket : Bracketed s.events s.pc
  noRaise : ∀ t, Event.respond t .keyError ∉ s.events

section SetDelete

variable {st₀ : KeyValueStore V} {es₀ : List (WALEntry V)}

theorem CallPc.lockedKey_of_pending {p : CallPc V} {k : String} {x : Option V}
    (h : p.pending = some (k, x)) : p.lockedKey = some k := by
  cases p with
  | set line key value r => cases line <;> simp_all [CallPc.pending, CallPc.lockedKey]
  | delete line key => cases line <;> simp_all [CallPc.pending, CallPc.lockedKey]
  | _ => simp [CallPc.pending] at h

theorem CallPc.lockedKey_of_checked {p : CallPc V} {k : String} (h : p.checkedKey = some k) :
    p.lockedKey = some k := by
  cases p with
  | delete line key => cases line <;> simp_all [CallPc.checkedKey, CallPc.lockedKey]
  | _ => simp [CallPc.checkedKey] at h

/-- A key's lock has one holder. -/
theorem SetDeleteInv.owner_unique {s : StoreSys V} (hinv : SetDeleteInv st₀ es₀ s) {t₁ t₂ : Nat}
    {k : String} (h₁ : (s.pc t₁).lockedKey = some k) (h₂ : (s.pc t₂).lockedKey = some k) :
    t₁ = t₂ :=
  Option.some.inj (((hinv.locks k t₁).2 h₁).symm.trans ((hinv.locks k t₂).2 h₂))

/-- Thread `t` moves to `p'` recording `new`, which closes the calls `done`. -/
theorem Bracketed.step {es : List (Event V)} {pc : Nat → CallPc V} (h : Bracketed es pc) {t : Nat}
    {p' : CallPc V} {new : List (Event V)} (done : List (Call V × Outcome))
    (hnew : ∀ e ∈ new, e.thread = t)
    (hopen : (pc t).openEvents t ++ new = done.flatMap (callEvents t) ++ p'.openEvents t) :
    Bracketed (es ++ new) (Function.update pc t p') := by
  intro t'
  obtain ⟨calls, hc⟩ := h t'
  by_cases ht : t' = t
  · subst ht
    have hf : new.filter (·.thread == t') = new := List.filter_eq_self.2 (by simpa using hnew)
    refine ⟨calls ++ done, ?_⟩
    rw [List.filter_append, hc, hf, Function.update_same, List.append_assoc, hopen,
      List.flatMap_append, List.append_assoc]
  · have hf : new.filter (·.thread == t') = [] :=
      List.filter_eq_nil_iff.2 fun e he => by simp [hnew e he, Ne.symm ht]
    exact ⟨calls, by rw [List.filter_append, hc, hf, List.append_nil, Function.update_noteq ht]⟩

theorem Bracketed.move {es : List (Event V)} {pc : Nat → CallPc V} (h : Bracketed es pc) {t : Nat}
    {p' : CallPc V} (hopen : p'.openEvents t = (pc t).openEvents t) :
    Bracketed es (Function.update pc t p') := by
  simpa using @Bracketed.step V es pc h t p' [] [] nofun (by simp [hopen])

theorem forall_update {P : Nat → CallPc V → Prop} {pc : Nat → CallPc V} {t : Nat} {p' : CallPc V}
    (h : ∀ t', t' ≠ t → P t' (pc t')) (ht : P t p') : ∀ t', P t' (Function.update pc t p' t') := by
  intro t'
  rcases eq_or_ne t' t with rfl | hne
  · simpa using ht
  · simpa [Function.update_noteq hne] using h t' hne

theorem linearization_append_lin (es : List (Event V)) (t : Nat) (c : Call V) (o : Outcome) :
    linearization (es ++ [.lin t c o]) = linearization es ++ [(c, o)] := by
  simp [linearization]

theorem SeqAgrees.append_invoke {es : List (Event V)} {d : PyDict String V}
    (h : SeqAgrees st₀ es d) (t : Nat) (c : Call V) : SeqAgrees st₀ (es ++ [.invoke t c]) d := by
  simpa [SeqAgrees, linearization] using h

theorem SeqAgrees.append_respond {es : List (Event V)} {d : PyDict String V}
    (h : SeqAgrees st₀ es d) (t : Nat) (o : Outcome) : SeqAgrees st₀ (es ++ [.respond t o]) d := by
  simpa [SeqAgrees, linearization] using h

theorem SeqAgrees.append_lin {es : List (Event V)} {d d' : PyDict String V}
    (h : SeqAgrees st₀ es d) (t : Nat) (c : Call V) (o : Outcome)
    (hrun : ∀ st : KeyValueStore V, st.data = d → (c.run st).1 = o ∧ (c.run st).2.data = d') :
    SeqAgrees st₀ (es ++ [.lin t c o]) d' := by
  obtain ⟨h₁, h₂⟩ := h
  obtain ⟨ho, hd⟩ := hrun _ h₂
  simp only [SeqAgrees, linearization_append_lin, List.map_append, List.map_cons, List.map_nil,
    runCalls_append_singleton, h₁, ho, hd, and_self]

theorem noRaise_append {es : List (Event V)} (h : ∀ t, Event.respond t .keyError ∉ es)
    {e : Event V} (he : ∀ t, e ≠ .respond t .keyError) : ∀ t, Event.respond t .keyError ∉ es ++ [e] :=
  fun t hm => (List.mem_append.1 hm).elim (h t) fun hm => he t (List.mem_singleton.1 hm).symm

theorem locks_move {L : String → Option Nat} {pc : Nat → CallPc V} {t : Nat} {p' : CallPc V}
    (h : ∀ k t, L k = some t ↔ (pc t).lockedKey = some k) (hp' : p'.lockedKey = (pc t).lockedKey) :
    ∀ k t', L k = some t' ↔ (Function.update pc t p' t').lockedKey = some k := by
  intro k t'
  rcases eq_or_ne t' t with rfl | hne
  · simpa [hp'] using h k t'
  · simpa [Function.update_noteq hne] using h k t'

theorem locks_acquire {L : String → Option Nat} {pc : Nat → CallPc V} {t : Nat} {p' : CallPc V}
    {k : String} (h : ∀ k t, L k = some t ↔ (pc t).lockedKey = some k) (hfree : L k = none)
    (hold : (pc t).lockedKey = none) (hnew : p'.lockedKey = some k) :
    ∀ k' t', Function.update L k (some t) k' = some t' ↔
      (Function.update pc t p' t').lockedKey = some k' := by
  intro k' t'
  rcases eq_or_ne k' k with rfl | hk <;> rcases eq_or_ne t' t with rfl | ht
  · simp [hnew]
  · simp [Function.update_noteq ht, ← h, hfree, Ne.symm ht]
  · simp [Function.update_noteq hk, h, hold, hnew, Ne.symm hk]
  · simp [Function.update_noteq hk, Function.update_noteq ht, h]

theorem locks_release {L : String → Option Nat} {pc : Nat → CallPc V} {t : Nat} {p' : CallPc V}
    {k : String} (h : ∀ k t, L k = some t ↔ (pc t).lockedKey = some k)
    (hold : (pc t).lockedKey = some k) (hnew : p'.lockedKey = none) :
    ∀ k' t', Function.update L k none k' = some t' ↔
      (Function.update pc t p' t').lockedKey = some k' := by
  have hk : L k = some t := (h k t).2 hold
  intro k' t'
  rcases eq_or_ne k' k with rfl | hk' <;> rcases eq_or_ne t' t with rfl | ht
  · simp [hnew]
  · simp only [Function.update_same, Function.update_noteq ht, reduceCtorEq, false_iff]
    rw [← h, hk]; simpa using Ne.symm ht
  · simp only [Function.update_noteq hk', Function.update_same, hnew, reduceCtorEq, iff_false]
    rw [h, hold]; simpa using Ne.symm hk'
  · simp [Function.update_noteq hk', Function.update_noteq ht, h]

theorem WalAgrees.congr {d₀ d : PyDict String V} {es : List (WALEntry V)} {pc pc' : Nat → CallPc V}
    (h : WalAgrees d₀ es pc d) (hpc : ∀ t, (pc' t).pending = (pc t).pending) :
    WalAgrees d₀ es pc' d := by
  simpa only [WalAgrees, hpc] using h

theorem pending_update_of_eq {pc : Nat → CallPc V} {t : Nat} {p' : CallPc V}
    (hp' : p'.pending = (pc t).pending) (t' : Nat) :
    (Function.update pc t p' t').pending = (pc t').pending := by
  rcases eq_or_ne t' t with rfl | hne
  · simpa using hp'
  · rw [Function.update_noteq hne]

/-- Logging a change of `k` that thread `t`, holding `k`'s lock, has not yet applied. -/
theorem WalAgrees.log {d₀ d : PyDict String V} {es : List (WALEntry V)} {pc : Nat → CallPc V}
    (h : WalAgrees d₀ es pc d) {t : Nat} {p' : CallPc V} {k : String} {e : WALEntry V}
    (hold : (pc t).pending = none) (hnew : p'.pending = some (k, (applyEntry (replayInto d₀ es) e).get? k))
    (hkey : ∀ k', k' ≠ k → (applyEntry (replayInto d₀ es) e).get? k' = (replayInto d₀ es).get? k')
    (hown : ∀ t' x, (pc t').pending = some (k, x) → t' = t) :
    WalAgrees d₀ (es ++ [e]) (Function.update pc t p') d := by
  refine ⟨fun t' k' x hx => ?_, fun k' hk' => ?_⟩
  · rcases eq_or_ne t' t with rfl | hne
    · simp only [Function.update_same, hnew, Option.some.injEq, Prod.mk.injEq] at hx
      obtain ⟨rfl, rfl⟩ := hx
      simp
    · rw [Function.update_noteq hne] at hx
      have hk : k' ≠ k := fun hk => hne (hown t' x (hk ▸ hx))
      rw [replayInto_snoc, hkey k' hk, h.1 t' k' x hx]
  · have hk : k' ≠ k := fun hk => hk' t _ (by rw [Function.update_same, hnew, hk])
    rw [replayInto_snoc, hkey k' hk]
    refine h.2 k' fun t' x hx => ?_
    rcases eq_or_ne t' t with rfl | hne
    · rw [hold] at hx; cases hx
    · exact hk' t' x (by rwa [Function.update_noteq hne])

/-- Applying to memory the change thread `t` had logged. -/
theorem WalAgrees.apply {d₀ d d' : PyDict String V} {es : List (WALEntry V)}
    {pc : Nat → CallPc V} (h : WalAgrees d₀ es pc d) {t : Nat} {p' : CallPc V} {k : String}
    {x : Option V} (hold : (pc t).pending = some (k, x)) (hnew : p'.pending = none)
    (hd : d'.get? k = x) (hd' : ∀ k', k' ≠ k → d'.get? k' = d.get? k')
    (hown : ∀ t' x, (pc t').pending = some (k, x) → t' = t) :
    WalAgrees d₀ es (Function.update pc t p') d' := by
  refine ⟨fun t' k' y hy => ?_, fun k' hk' => ?_⟩
  · rcases eq_or_ne t' t with rfl | hne
    · rw [Function.update_same, hnew] at hy; cases hy
    · rw [Function.update_noteq hne] at hy
      exact h.1 t' k' y hy
  · rcases eq_or_ne k' k with rfl | hk
    · rw [h.1 t k' x hold, hd]
    · rw [hd' k' hk]
      refine h.2 k' fun t' y hy => ?_
      rcases eq_or_ne t' t with rfl | hne
      · rw [hold] at hy; exact hk (Prod.mk.inj (Option.some.inj hy)).1.symm
      · exact hk' t' y (by rwa [Function.update_noteq hne])

theorem shape_update {pc : Nat → CallPc V} {t : Nat} {p' : CallPc V}
    (h : ∀ t, (pc t).IsSetDelete) (hp' : p'.IsSetDelete) :
    ∀ t', (Function.update pc t p' t').IsSetDelete :=
  @forall_update V (fun _ p => p.IsSetDelete) pc t p' (fun t' _ => h t') hp'

/-- Memory holds every key a `delete` found present, after thread `t` moves to `p'`. -/
theorem present_update {d' : PyDict String V} {pc : Nat → CallPc V} {t : Nat} {p' : CallPc V}
    (hd : ∀ t' k, t' ≠ t → (pc t').checkedKey = some k → d'.contains k)
    (hp' : ∀ k, p'.checkedKey = some k → d'.contains k) :
    ∀ t' k, (Function.update pc t p' t').checkedKey = some k → d'.contains k :=
  @forall_update V (fun _ p => ∀ k, p.checkedKey = some k → d'.contains k) pc t p'
    (fun t' hne k hk => hd t' k hne hk) hp'

/-- Thread `t` goes from `p` to `p'` leaving memory, the WAL and the history as they are: a lock
taken, a `persist`, or a `delete` finding its key. -/
theorem SetDeleteInv.frame {s s' : StoreSys V} (hinv : SetDeleteInv st₀ es₀ s) {t : Nat}
    {p p' : CallPc V} (hp : s.pc t = p) (hpc : s'.pc = Function.update s.pc t p')
    (hd : s'.store.data = s.store.data) (hw : s'.store.wal = s.store.wal)
    (he : s'.events = s.events)
    (hlocks : ∀ k t', s'.keyLocks k = some t' ↔ (s'.pc t').lockedKey = some k)
    (hshape : p'.IsSetDelete) (hchk : ∀ k, p'.checkedKey = some k → s.store.data.contains k)
    (hpend : p'.pending = p.pending) (hopen : p'.openEvents t = p.openEvents t) :
    SetDeleteInv st₀ es₀ s' := by
  subst hp
  obtain ⟨es, hw', hwal⟩ := hinv.wal
  refine ⟨?_, hlocks, ?_, ⟨es, ?_, ?_⟩, ?_, ?_, ?_⟩ <;> simp only [hpc, hd, hw, he]
  · exact shape_update hinv.shape hshape
  · exact present_update (fun t' k _ => hinv.present t' k) hchk
  · exact hw'
  · exact hwal.congr (pending_update_of_eq hpend)
  · exact hinv.seq
  · exact hinv.bracket.move hopen
  · exact hinv.noRaise

/-- Every step of a `set` or `delete` keeps the invariant. -/
theorem SetDeleteInv.step {s s' : StoreSys V} {t : Nat} {a : StoreAction V}
    (hinv : SetDeleteInv st₀ es₀ s) (ha : a.Allowed Call.IsSetOrDelete)
    (h : s.step t a = some s') : SetDeleteInv st₀ es₀ s' := by
  obtain ⟨es, hw, hwal⟩ := hinv.wal
  have hshape := hinv.shape t
  unfold StoreSys.step at h
  generalize hp : s.pc t = p at h hshape
  have hown : ∀ k, p.lockedKey = some k → ∀ t' x, (s.pc t').pending = some (k, x) → t' = t :=
    fun k hk t' x hx => hinv.owner_unique (CallPc.lockedKey_of_pending hx) (hp ▸ hk)
  have hmove : ∀ p' : CallPc V, p'.lockedKey = p.lockedKey →
      ∀ k t', s.keyLocks k = some t' ↔ (Function.update s.pc t p' t').lockedKey = some k :=
    fun p' hl => locks_move hinv.locks (hp ▸ hl)
  cases p with
  | idle =>
    cases a with
    | next => cases h
    | call c =>
      simp only [Option.some.injEq] at h; subst h
      have hc : c.start.IsSetDelete ∧ c.start.lockedKey = none ∧ c.start.checkedKey = none ∧
          c.start.pending = none ∧ c.start.openEvents t = [.invoke t c] := by
        cases c with
        | set k v => exact ⟨rfl, rfl, rfl, rfl, rfl⟩
        | delete k => exact ⟨trivial, rfl, rfl, rfl, rfl⟩
        | _ => exact False.elim ha
      exact ⟨shape_update hinv.shape hc.1, hmove _ hc.2.1,
        present_update (fun t' k _ => hinv.present t' k) (by simp [hc.2.2.1]),
        ⟨es, hw, hwal.congr (pending_update_of_eq (by rw [hc.2.2.2.1, hp]; rfl))⟩,
        hinv.seq.append_invoke t c,
        hinv.bracket.step [] (by simp [Event.thread]) (by rw [hp, hc.2.2.2.2]; rfl),
        noRaise_append hinv.noRaise (by simp)⟩
  | set line k v r =>
    cases hshape
    cases a with
    | call c => cases line <;> cases h
    | next =>
      cases line <;> simp only [StoreSys.setStep, Option.ite_none_right_eq_some,
        Option.some.injEq, Option.isNone_none, ite_true] at h
      case lock =>
        obtain ⟨hfree, rfl⟩ := h
        exact hinv.frame hp rfl rfl rfl rfl (locks_acquire hinv.locks hfree (by rw [hp]; rfl) rfl)
          rfl nofun rfl rfl
      case log =>
        subst h
        refine ⟨shape_update hinv.shape rfl, hmove _ rfl,
          present_update (fun t' k _ => hinv.present t' k) nofun,
          ⟨es ++ [.set k v], by simp [hw, WAL.logSet],
            hwal.log (by rw [hp]; rfl) (by simp [CallPc.pending, applyEntry])
              (fun k' hk' => by simp [applyEntry, Ne.symm hk']) (hown k rfl)⟩,
          hinv.seq, hinv.bracket.move (by rw [hp]; rfl), hinv.noRaise⟩
      case write =>
        subst h
        exact ⟨shape_update hinv.shape rfl, hmove _ rfl,
          present_update (fun t' k' _ hk' =>
            PyDict.contains_insert_of_contains (hinv.present t' k' hk') k v) nofun,
          ⟨es, hw, hwal.apply (by rw [hp]; rfl) rfl (by simp)
            (fun k' hk' => by simp [Ne.symm hk']) (hown k rfl)⟩,
          hinv.seq.append_lin t (.set k v) .none (fun st hst => ⟨rfl, by simp [Call.run, hst]⟩),
          hinv.bracket.step [] (by simp [Event.thread]) (by rw [hp]; simp [CallPc.openEvents]),
            noRaise_append hinv.noRaise (by simp)⟩
      case persist =>
        subst h
        exact hinv.frame hp rfl rfl rfl rfl (hmove _ rfl) rfl nofun rfl
          (by simp [CallPc.openEvents])
      case release =>
        subst h
        exact ⟨shape_update hinv.shape trivial, locks_release hinv.locks (by rw [hp]; rfl) rfl,
          present_update (fun t' k _ => hinv.present t' k) nofun,
          ⟨es, hw, hwal.congr (pending_update_of_eq (by rw [hp]; rfl))⟩,
          hinv.seq.append_respond t .none,
          hinv.bracket.step [(.set k v, .none)] (by simp [Event.thread])
            (by rw [hp]; simp [CallPc.openEvents, callEvents]),
          noRaise_append hinv.noRaise (by simp)⟩
  | delete line k =>
    cases a with
    | call c => cases line <;> cases h
    | next =>
      cases line <;> simp only [StoreSys.deleteStep, Option.ite_none_right_eq_some,
        Option.some.injEq] at h
      case lock =>
        obtain ⟨hfree, rfl⟩ := h
        exact hinv.frame hp rfl rfl rfl rfl (locks_acquire hinv.locks hfree (by rw [hp]; rfl) rfl)
          trivial nofun rfl rfl
      case check =>
        split_ifs at h with hc <;> simp only [Option.some.injEq] at h <;> subst h
        · exact hinv.frame hp rfl rfl rfl rfl (hmove _ rfl) trivial
            (fun k' hk' => by cases hk'; exact hc) rfl rfl
        · exact ⟨shape_update hinv.shape trivial, hmove _ rfl,
            present_update (fun t' k _ => hinv.present t' k) nofun,
            ⟨es, hw, hwal.congr (pending_update_of_eq (by rw [hp]; rfl))⟩,
            hinv.seq.append_lin t (.delete k) (.bool false) (fun st hst => by
              simp [Call.run, KeyValueStore.delete, hst, hc]),
            hinv.bracket.step [] (by simp [Event.thread]) (by rw [hp]; simp [CallPc.openEvents]),
            noRaise_append hinv.noRaise (by simp)⟩
      case log =>
        subst h
        exact ⟨shape_update hinv.shape trivial, hmove _ rfl,
          present_update (fun t' k _ => hinv.present t' k)
            (fun k' hk' => by cases hk'; exact hinv.present t k (by rw [hp]; rfl)),
          ⟨es ++ [.delete k], by simp [hw, WAL.logDelete],
            hwal.log (by rw [hp]; rfl) (by simp [CallPc.pending, applyEntry])
              (fun k' hk' => by simp [applyEntry, Ne.symm hk']) (hown k rfl)⟩,
          hinv.seq, hinv.bracket.move (by rw [hp]; rfl), hinv.noRaise⟩
      case del =>
        split_ifs at h with hc <;> simp only [Option.some.injEq] at h <;> subst h
        · refine ⟨shape_update hinv.shape trivial, hmove _ rfl,
            present_update (fun t' k' hne hk' => ?_) nofun,
            ⟨es, hw, hwal.apply (by rw [hp]; rfl) rfl (by simp)
              (fun k' hk' => by simp [Ne.symm hk']) (hown k rfl)⟩,
            hinv.seq.append_lin t (.delete k) (.bool true) (fun st hst => by
              simp [Call.run, KeyValueStore.delete, hst, hc]),
            hinv.bracket.step [] (by simp [Event.thread]) (by rw [hp]; simp [CallPc.openEvents]),
            noRaise_append hinv.noRaise (by simp)⟩
          have hne' : k' ≠ k := fun e => hne (hinv.owner_unique
            (CallPc.lockedKey_of_checked hk') (by rw [e, hp]; rfl))
          simpa [PyDict.contains, Ne.symm hne'] using hinv.present t' k' hk'
        · exact absurd (hinv.present t k (by rw [hp]; rfl)) hc
      case persist =>
        subst h
        exact hinv.frame hp rfl rfl rfl rfl (hmove _ rfl) trivial nofun rfl rfl
      case release b =>
        subst h
        exact ⟨shape_update hinv.shape trivial, locks_release hinv.locks (by rw [hp]; rfl) rfl,
          present_update (fun t' k _ => hinv.present t' k) nofun,
          ⟨es, hw, hwal.congr (pending_update_of_eq (by rw [hp]; rfl))⟩,
          hinv.seq.append_respond t (.bool b),
          hinv.bracket.step [(.delete k, .bool b)] (by simp [Event.thread])
            (by rw [hp]; simp [CallPc.openEvents, callEvents]),
          noRaise_append hinv.noRaise (by simp)⟩
  | _ => exact hshape.elim

theorem SetDeleteInv.start {st₀ : KeyValueStore V} {es₀ : List (WALEntry V)}
    (hw : st₀.wal = some ⟨true, es₀⟩) : SetDeleteInv st₀ es₀ (StoreSys.start st₀) :=
  ⟨fun _ => trivial, fun k t => by simp [StoreSys.start, CallPc.lockedKey], nofun,
    ⟨[], by simp [StoreSys.start, hw], nofun, fun _ _ => rfl⟩, ⟨rfl, rfl⟩,
    fun _ => ⟨[], rfl⟩, fun _ => List.not_mem_nil _⟩

theorem SetDeleteInv.run {st₀ : KeyValueStore V} {es₀ : List (WALEntry V)}
    (hw : st₀.wal = some ⟨true, es₀⟩) {s : StoreSys V}
    (hrun : Relation.ReflTransGen (StoreStepBy Call.IsSetOrDelete) (StoreSys.start st₀) s) :
    SetDeleteInv st₀ es₀ s := by
  induction hrun with
  | refl => exact SetDeleteInv.start hw
  | tail _ hstep ih =>
    obtain ⟨t, a, ha, hs⟩ := hstep
    exact ih.step ha hs

end SetDelete

/-- Threads calling only `set` and `delete` on a store whose WAL is on, in any interleaving of
their statements, until every thread is idle. Each thread's history is its calls, each as
`invoke`, `lin`, `respond` in that order, and none raised; so ordering the calls by their `lin`
events respects real-time order (a call that returned before another started took effect
first). Run one after another in that order from the initial store, the calls give the
outcomes they returned and the final map. The WAL holds its old entries followed by those the
session wrote, and replaying these over the initial map gives the final map. -/
theorem setDelete_linearizable {st₀ : KeyValueStore V} {es₀ : List (WALEntry V)}
    (hw : st₀.wal = some ⟨true, es₀⟩) {s : StoreSys V}
    (hrun : Relation.ReflTransGen (StoreStepBy Call.IsSetOrDelete) (StoreSys.start st₀) s)
    (hidle : ∀ t, s.pc t = .idle) :
    (∀ t, ∃ calls : List (Call V × Outcome),
        s.events.filter (·.thread == t) = calls.flatMap (callEvents t) ∧
          ∀ c ∈ calls, c.2 ≠ .keyError) ∧
      (runCalls st₀ ((linearization s.events).map Prod.fst)).1 =
        (linearization s.events).map Prod.snd ∧
      (runCalls st₀ ((linearization s.events).map Prod.fst)).2.data = s.store.data ∧
      ∃ es, s.store.wal = some ⟨true, es₀ ++ es⟩ ∧
        ∀ k, (replayInto st₀.data es).get? k = s.store.data.get? k := by
  have hinv := SetDeleteInv.run hw hrun
  obtain ⟨es, hwal, _, hreplay⟩ := hinv.wal
  refine ⟨fun t => ?_, hinv.seq.1, hinv.seq.2, es, hwal, fun k => hreplay k fun t x hx => ?_⟩
  · obtain ⟨calls, hc⟩ := hinv.bracket t
    rw [hidle t] at hc
    refine ⟨calls, by simpa [CallPc.openEvents] using hc, fun c hmem hraise => ?_⟩
    have : Event.respond t c.2 ∈ s.events.filter (·.thread == t) := by
      rw [hc]
      exact List.mem_append_left _ (List.mem_flatMap.2 ⟨c, hmem, by simp [callEvents]⟩)
    exact hinv.noRaise t (hraise ▸ List.mem_of_mem_filter this)
  · rw [hidle t] at hx; cases hx
/-- A store whose WAL is on and empty, with no backend and the map `d`. -/
def walStore (d : PyDict String Nat) : KeyValueStore Nat := ⟨d, some ⟨true, []⟩, none⟩

/-- Thread 0 sets `"a"`; thread 1's `delete("a")` starts while the `set` holds the key's lock
and runs once it is released. -/
def setThenDelete : List (Nat × StoreAction Nat) :=
  [(0, .call (.set "a" 1)), (0, .next), (0, .next), (1, .call (.delete "a"))] ++
    List.replicate 3 (0, .next) ++ List.replicate 6 (1, .next)

/-- Where `setThenDelete` ends. -/
def setThenDeleteEnd : StoreSys Nat :=
  ((StoreSys.start (walStore PyDict.empty)).run setThenDelete).getD
    (StoreSys.start (walStore PyDict.empty))

theorem setThenDelete_linearizable :
    (walStore PyDict.empty).wal = some ⟨true, []⟩ ∧
      Relation.ReflTransGen (StoreStepBy Call.IsSetOrDelete)
        (StoreSys.start (walStore PyDict.empty)) setThenDeleteEnd ∧
      (∀ t, setThenDeleteEnd.pc t = .idle) ∧
      (∀ t, ∃ calls : List (Call Nat × Outcome),
        setThenDeleteEnd.events.filter (·.thread == t) = calls.flatMap (callEvents t) ∧
          ∀ c ∈ calls, c.2 ≠ .keyError) ∧
      (runCalls (walStore PyDict.empty) ((linearization setThenDeleteEnd.events).map Prod.fst)).1 =
        (linearization setThenDeleteEnd.events).map Prod.snd ∧
      (runCalls (walStore PyDict.empty)
        ((linearization setThenDeleteEnd.events).map Prod.fst)).2.data = setThenDeleteEnd.store.data ∧
      ∃ es, setThenDeleteEnd.store.wal = some ⟨true, [] ++ es⟩ ∧
        ∀ k, (replayInto (walStore PyDict.empty).data es).get? k =
          setThenDeleteEnd.store.data.get? k := by
  have hrun : (StoreSys.start (walStore PyDict.empty)).run setThenDelete =
      some setThenDeleteEnd := rfl
  have hreach := StoreSys.run_reach Call.IsSetOrDelete (fun x hx => by
    simp only [setThenDelete, List.mem_append, List.mem_cons, List.mem_replicate,
      List.not_mem_nil] at hx
    rcases hx with ((rfl | rfl | rfl | rfl | hx) | ⟨-, rfl⟩) | ⟨-, rfl⟩ <;> trivial) hrun
  have hidle := StoreSys.idle_of_run hrun (fun _ => rfl) (by decide)
  exact ⟨rfl, hreach, hidle, setDelete_linearizable rfl hreach hidle⟩

/-! ### The per-key locks are an atomic mutex

`keyLocks` takes `_lock_manager`'s per-key lock as an atomic mutex. Whatever calls run, every
step of the store moves it as `MutexStep` says, and `keyOwner_mutexRun` shows that the lock
manager, which the store never reaps, moves the owners of its keys' locks in the same steps. -/

/-- Each key's lock is held by the thread whose position says it holds it. -/
def StoreSys.LocksHeld (s : StoreSys V) : Prop :=
  ∀ k t, s.keyLocks k = some t ↔ (s.pc t).lockedKey = some k

theorem CallPc.lockedKey_updateLoop (items : List (String × V)) :
    (CallPc.updateLoop items).lockedKey = none := by
  rcases items with _ | ⟨⟨k, v⟩, items⟩ <;> rfl

/-- Every step keeps each key's lock with the thread whose position holds it, and moves the
locks as an atomic mutex does: a `with` block takes its key when it is free, and leaving it
gives the key back. -/
theorem StoreSys.LocksHeld.step {s s' : StoreSys V} {t : Nat} {a : StoreAction V}
    (hl : s.LocksHeld) (h : s.step t a = some s') :
    s'.LocksHeld ∧ MutexStep s.keyLocks s'.keyLocks := by
  unfold StoreSys.step at h
  generalize hp : s.pc t = p at h
  have hmove : ∀ p' : CallPc V, p'.lockedKey = p.lockedKey →
      ∀ k t', s.keyLocks k = some t' ↔ (Function.update s.pc t p' t').lockedKey = some k :=
    fun p' hk => locks_move hl (hp ▸ hk)
  have hheld : ∀ k, p.lockedKey = some k → s.keyLocks k = some t := fun k hk =>
    (hl k t).2 (hp ▸ hk)
  cases p with
  | idle =>
    cases a with
    | next => cases h
    | call c => cases h; exact ⟨hmove _ (by cases c <;> rfl), .stay rfl⟩
  | set line k v r =>
    cases a with
    | call c => cases line <;> cases h
    | next =>
      cases line <;> simp only [StoreSys.setStep, Option.ite_none_right_eq_some,
        Option.some.injEq] at h
      case lock =>
        obtain ⟨hfree, rfl⟩ := h
        exact ⟨locks_acquire hl hfree (by rw [hp]; rfl) rfl, .take t k hfree rfl⟩
      case release =>
        subst h
        refine ⟨locks_release hl (by rw [hp]; rfl) ?_, .give t k (hheld k rfl) rfl⟩
        rcases r with _ | r
        · rfl
        · exact CallPc.lockedKey_updateLoop r
      all_goals subst h; exact ⟨hmove _ rfl, .stay rfl⟩
  | delete line k =>
    cases a with
    | call c => cases line <;> cases h
    | next =>
      cases line <;> simp only [StoreSys.deleteStep, Option.ite_none_right_eq_some,
        Option.some.injEq] at h
      case lock =>
        obtain ⟨hfree, rfl⟩ := h
        exact ⟨locks_acquire hl hfree (by rw [hp]; rfl) rfl, .take t k hfree rfl⟩
      case check => split at h <;> (cases h; exact ⟨hmove _ rfl, .stay rfl⟩)
      case del =>
        split at h <;> cases h
        · exact ⟨hmove _ rfl, .stay rfl⟩
        · exact ⟨locks_release hl (by rw [hp]; rfl) rfl, .give t k (hheld k rfl) rfl⟩
      case release b =>
        subst h
        exact ⟨locks_release hl (by rw [hp]; rfl) rfl, .give t k (hheld k rfl) rfl⟩
      all_goals subst h; exact ⟨hmove _ rfl, .stay rfl⟩
  | clear line =>
    cases a with
    | call c => cases line <;> cases h
    | next =>
      cases line <;> simp only [StoreSys.clearStep, Option.ite_none_right_eq_some,
        Option.some.injEq] at h
      case lock => obtain ⟨-, rfl⟩ := h; exact ⟨hmove _ rfl, .stay rfl⟩
      all_goals subst h; exact ⟨hmove _ rfl, .stay rfl⟩
  | updateDisable items =>
    cases a <;> cases h
    exact ⟨hmove _ (CallPc.lockedKey_updateLoop items), .stay rfl⟩
  | updateEnable => cases a <;> cases h; exact ⟨hmove _ rfl, .stay rfl⟩
  | updateCheckpoint => cases a <;> cases h; exact ⟨hmove _ rfl, .stay rfl⟩

/-- Whatever calls run, the store's per-key locks move along every run as those of an atomic
per-key mutex do, starting from no owner at all. -/
theorem StoreSys.keyLocks_mutexRun {P : Call V → Prop} {st : KeyValueStore V} {s : StoreSys V}
    (h : Relation.ReflTransGen (StoreStepBy P) (StoreSys.start st) s) :
    s.LocksHeld ∧ Relation.ReflTransGen MutexStep (fun _ => none) s.keyLocks := by
  induction h with
  | refl => exact ⟨fun k t => by simp [StoreSys.start, CallPc.lockedKey], .refl⟩
  | tail _ hstep ih =>
    obtain ⟨t, a, -, hs⟩ := hstep
    have hnext := ih.1.step hs
    exact ⟨hnext.1, .tail ih.2 hnext.2⟩

/-! ### With `clear` or `update`

`clear` holds `_global_lock`, which no `set` or `delete` takes, so it runs between the WAL
append and the map write of a `set`, or between the membership check and the `del` of a
`delete`. `update` turns the shared WAL off while its `set`s run. -/

/-- The map `{"k": 1}`. -/
def oneKey : PyDict String Nat := ⟨[("k", 1)], by decide⟩

/-- Thread 0's `set("k", 1)` appends `SET` to the WAL; thread 1's `clear()` runs to the end;
thread 0 writes the map and returns. -/
def setAcrossClear : List (Nat × StoreAction Nat) :=
  [(0, .call (.set "k" 1)), (0, .next), (0, .next), (1, .call .clear)] ++
    List.replicate 5 (1, .next) ++ List.replicate 3 (0, .next)

/-- Thread 0's `delete("k")` finds `"k"` and logs `DELETE`; thread 1's `clear()` runs to the
end; thread 0's `del self._data[key]` raises. -/
def deleteAcrossClear : List (Nat × StoreAction Nat) :=
  [(0, .call (.delete "k")), (0, .next), (0, .next), (0, .next), (1, .call .clear)] ++
    List.replicate 5 (1, .next) ++ [(0, .next)]

/-- One thread runs `update({"k": 1})` to the end. -/
def updateAlone : List (Nat × StoreAction Nat) :=
  [(0, .call (.update oneKey))] ++ List.replicate 8 (0, .next)

/-- Every thread of `tr` is idle, memory holds `"k" = 1`, and the WAL replays over the empty map
to a map without `"k"`. -/
def losesKey (tr : List (Nat × StoreAction Nat)) (s : StoreSys Nat) : Bool :=
  (tr.map Prod.fst).all (fun t => s.pc t == .idle) && s.store.data.get? "k" == some 1 &&
    s.store.wal.map (fun w => (replayInto PyDict.empty w.entries).get? "k") == some none

theorem StoreAction.allowed_true (a : StoreAction V) : a.Allowed fun _ => True := by
  cases a <;> trivial

theorem losesKey_run (tr : List (Nat × StoreAction Nat))
    (h : ((StoreSys.start (walStore PyDict.empty)).run tr).map (losesKey tr) = some true) :
    ∃ s, Relation.ReflTransGen (StoreStepBy fun _ => True) (StoreSys.start (walStore PyDict.empty)) s ∧
      (∀ t, s.pc t = .idle) ∧ s.store.data.get? "k" = some 1 ∧
      s.store.wal.map (fun w => (replayInto PyDict.empty w.entries).get? "k") = some none := by
  obtain ⟨s, hrun, hc⟩ := Option.map_eq_some'.1 h
  simp only [losesKey, Bool.and_eq_true, List.all_eq_true, beq_iff_eq] at hc
  exact ⟨s, StoreSys.run_reach _ (fun x _ => x.2.allowed_true) hrun,
    StoreSys.idle_of_run hrun (fun _ => rfl) hc.1.1, hc.1.2, hc.2⟩

/-- Three runs. In `setAcrossClear`, a `set` whose WAL append comes before a `clear` and whose
map write comes after it leaves `"k" = 1` in memory, while the WAL the session wrote replays
to a map without it. In `deleteAcrossClear`, a `delete` whose membership check comes before a
`clear` raises `KeyError` at its `del`. In `updateAlone`, `update` run by one thread leaves
`"k" = 1` in memory and nothing in the WAL. -/
theorem concurrent_store_counterexamples :
    (∃ s, Relation.ReflTransGen (StoreStepBy fun _ => True) (StoreSys.start (walStore PyDict.empty)) s ∧
        (∀ t, s.pc t = .idle) ∧ s.store.data.get? "k" = some 1 ∧
        s.store.wal.map (fun w => (replayInto PyDict.empty w.entries).get? "k") = some none) ∧
      (∃ s, Relation.ReflTransGen (StoreStepBy fun _ => True) (StoreSys.start (walStore oneKey)) s ∧
        Event.respond 0 .keyError ∈ s.events) ∧
      ∃ s, Relation.ReflTransGen (StoreStepBy fun _ => True) (StoreSys.start (walStore PyDict.empty)) s ∧
        (∀ t, s.pc t = .idle) ∧ s.store.data.get? "k" = some 1 ∧
        s.store.wal.map (fun w => (replayInto PyDict.empty w.entries).get? "k") = some none := by
  have hraise : ((StoreSys.start (walStore oneKey)).run deleteAcrossClear).map
      (fun s => decide (Event.respond 0 .keyError ∈ s.events)) = some true := by decide
  obtain ⟨s, hrun, hmem⟩ := Option.map_eq_some'.1 hraise
  exact ⟨losesKey_run setAcrossClear (by decide),
    ⟨s, StoreSys.run_reach _ (fun x _ => x.2.allowed_true) hrun, of_decide_eq_true hmem⟩,
    losesKey_run updateAlone (by decide)⟩

end MiniKV
