/-
Module: MiniKV.Server.Router
Purpose: `Router` of `server/router.py` with its `Worker` threads of `server/worker.py`, under
  any interleaving of client threads in `_submit_request`, the worker loops and one `stop()`.
  The shared state is `_running`, `request_queue` (FIFO, bounded by `queue_size`), each
  worker's `running` flag, the store and whether `store.close()` ran, and each request's event
  and result. Each thread takes one statement at a time (`RouterSys.step`); `join(timeout=5.0)`
  returns once its worker has ended or the timeout has passed, so it may return while the
  worker runs. Shutdown does not drain the queue: `Worker.stop()` clears `running` before the
  worker has taken the requests ahead of its sentinel, and a client that passed the `_running`
  check puts its request behind the sentinels; either way `store.close()` runs with an accepted
  request never processed (`stop_leaves_request_unprocessed`). Nor does it wait for the
  workers: `store.close()` may run while a worker is inside `_process_request`, which then calls
  the closed store (`worker_applies_after_close`). What holds is that no request is applied to
  the store twice (`requests_applied_at_most_once`): a request waits at one place at a time (a
  client before its `put`, a queue position, a worker after its `get`), with its event unset, and
  `_process_request` removes it as it sets the event.
Trusted boundary: none
Main exports: Operation, OpResult, QItem, processRequest, WorkerPc, ClientPc, StopPc, RouterSys,
  RouterSys.step, RouterSys.Reachable, RouterSys.appliedAlong, RouterSys.OnceInv,
  stop_leaves_request_unprocessed, worker_applies_after_close, requests_applied_at_most_once
-/
import MiniKV.Core.Store
import Mathlib.Logic.Relation

namespace MiniKV

/-! ### Requests -/

/-- A `WorkerRequest` other than `SHUTDOWN`: its `OperationType` with the fields it reads. -/
inductive Operation (V : Type) where
  | get (key : String)
  | set (key : String) (value : V)
  | delete (key : String)
  | «exists» (key : String)
  | keys
  | values
  | items
  | clear
  | size
  | update (data : PyDict String V)
  | checkpoint
deriving DecidableEq

/-- What `_process_request` stores in `request.result`. -/
inductive OpResult (V : Type) where
  | value (v : Option V)
  | flag (b : Bool)
  | keys (ks : List String)
  | values (vs : List V)
  | items (kvs : List (String × V))
  | count (n : Nat)
  | stats (walEntries dbRows : Option Nat)

/-- An item of `request_queue`: a client's request by its identity, or the `SHUTDOWN` sentinel. -/
inductive QItem (V : Type) where
  | request (id : Nat) (op : Operation V)
  | shutdown
deriving DecidableEq

/-- `_process_request` on a request other than `SHUTDOWN`: the store call and the result. -/
def processRequest {V : Type} (s : KeyValueStore V) : Operation V → OpResult V × KeyValueStore V
  | .get key => (.value (s.get key), s)
  | .set key value => (.flag true, s.set key value)
  | .delete key => (.flag (s.delete key).1, (s.delete key).2)
  | .exists key => (.flag (s.exists key), s)
  | .keys => (.keys s.data.keys, s)
  | .values => (.values s.data.values, s)
  | .items => (.items s.data.entries, s)
  | .clear => (.flag true, s.clear)
  | .size => (.count s.size, s)
  | .update data => (.flag true, s.update data)
  | .checkpoint => (.stats s.checkpoint.1 s.checkpoint.2, s)

/-! ### Threads -/

/-- Where a worker thread is in `Worker._run`. -/
inductive WorkerPc (V : Type) where
  /-- `while self.running:`. -/
  | loop
  /-- `request = self.request_queue.get(timeout=0.1)`. -/
  | get
  /-- `self._process_request(request)` on the item it took. -/
  | process (item : QItem V)
  /-- `_run` has returned and the thread has ended. -/
  | exited
deriving DecidableEq

/-- Where a client thread is in `Router._submit_request`. -/
inductive ClientPc (V : Type) where
  | idle
  /-- `if not self._running: raise RuntimeError`, for request `id`. -/
  | check (id : Nat) (op : Operation V)
  /-- `self.request_queue.put(request, timeout=timeout or 5.0)`. -/
  | put (id : Nat) (op : Operation V)
  /-- `request.event.wait(timeout=timeout or 30.0)`. -/
  | wait (id : Nat)
deriving DecidableEq

/-- Where the thread that called `Router.stop()` is. -/
inductive StopPc where
  /-- `stop()` not called yet. -/
  | idle
  /-- `if not self._running: return`, then `self._running = False`. -/
  | check
  /-- `request_queue.put(SHUTDOWN)` for each worker, `left` still to put. -/
  | sentinels (left : Nat)
  /-- `worker.stop()` on worker `i`: `self.running = False`. -/
  | clearFlag (i : Nat)
  /-- `worker.stop()` on worker `i`: `self.thread.join(timeout=5.0)`, which returns once the
  worker has ended or after five seconds, whether or not it has. -/
  | join (i : Nat)
  /-- `self.store.close()`. -/
  | close
  | done

/-- A started `Router`, its workers, its clients and the stopping thread. Workers are
`0, …, numWorkers - 1`; `queueSize` is `maxsize` (`0` for no bound). -/
structure RouterSys (V : Type) where
  numWorkers : Nat
  queueSize : Nat
  running : Bool
  queue : List (QItem V)
  workerRunning : Nat → Bool
  store : KeyValueStore V
  closed : Bool
  events : Nat → Bool
  results : Nat → Option (OpResult V)
  nextId : Nat
  workers : Nat → WorkerPc V
  clients : Nat → ClientPc V
  stopper : StopPc

/-- One statement: a client enters `_submit_request` with a new request, a client or a worker
or the stopping thread takes its next statement, or a client's `put` or `wait` times out. -/
inductive RouterAction (V : Type) where
  | submit (c : Nat) (op : Operation V)
  | client (c : Nat)
  | clientTimeout (c : Nat)
  | worker (w : Nat)
  | stop

namespace RouterSys

variable {V : Type}

/-- `Router(num_workers, queue_size, ...)` after `start()`: every worker in its loop. -/
def started (numWorkers queueSize : Nat) (store : KeyValueStore V) : RouterSys V :=
  ⟨numWorkers, queueSize, true, [], fun _ => true, store, false, fun _ => false, fun _ => none, 0,
    fun _ => .loop, fun _ => .idle, .idle⟩

/-- `queue.Queue.put` goes through: `maxsize <= 0` or fewer than `maxsize` items. -/
def hasRoom (s : RouterSys V) : Bool := s.queueSize = 0 || s.queue.length < s.queueSize

/-- Statement of worker `w`; `none` when it is blocked or has ended. -/
def workerStep (s : RouterSys V) (w : Nat) : WorkerPc V → Option (RouterSys V)
  | .loop =>
    some { s with workers := Function.update s.workers w (if s.workerRunning w then .get else .exited) }
  | .get => match s.queue with
    | [] => some { s with workers := Function.update s.workers w .loop }
    | item :: rest =>
      some { s with queue := rest, workers := Function.update s.workers w (.process item) }
  | .process .shutdown =>
    some { s with
      workerRunning := Function.update s.workerRunning w false
      workers := Function.update s.workers w .loop }
  | .process (.request id op) =>
    some { s with
      store := (processRequest s.store op).2
      results := Function.update s.results id (some (processRequest s.store op).1)
      events := Function.update s.events id true
      workers := Function.update s.workers w .loop }
  | .exited => none

/-- Statement of client `c`. -/
def clientStep (s : RouterSys V) (c : Nat) : ClientPc V → Option (RouterSys V)
  | .idle => none
  | .check id op =>
    some { s with clients := Function.update s.clients c (if s.running then .put id op else .idle) }
  | .put id op =>
    if s.hasRoom then
      some { s with
        queue := s.queue ++ [.request id op]
        clients := Function.update s.clients c (.wait id) }
    else none
  | .wait id => if s.events id then some { s with clients := Function.update s.clients c .idle } else none

/-- A client's `put` on a full queue raises `queue.Full`, or its `wait` returns `False` and
`TimeoutError` is raised. -/
def clientTimeout (s : RouterSys V) (c : Nat) : ClientPc V → Option (RouterSys V)
  | .put _ _ =>
    if s.hasRoom then none else some { s with clients := Function.update s.clients c .idle }
  | .wait id =>
    if s.events id then none else some { s with clients := Function.update s.clients c .idle }
  | _ => none

/-- Statement of the thread in `stop()`. -/
def stopStep (s : RouterSys V) : StopPc → Option (RouterSys V)
  | .idle => some { s with stopper := .check }
  | .check =>
    if s.running then some { s with running := false, stopper := .sentinels s.numWorkers }
    else some { s with stopper := .done }
  | .sentinels 0 => some { s with stopper := .clearFlag 0 }
  | .sentinels (k + 1) =>
    if s.hasRoom then some { s with queue := s.queue ++ [.shutdown], stopper := .sentinels k }
    else none
  | .clearFlag i =>
    if i < s.numWorkers then
      some { s with workerRunning := Function.update s.workerRunning i false, stopper := .join i }
    else some { s with stopper := .close }
  | .join i => some { s with stopper := .clearFlag (i + 1) }
  | .close => some { s with closed := true, stopper := .done }
  | .done => none

/-- One statement of one thread. -/
def step (s : RouterSys V) : RouterAction V → Option (RouterSys V)
  | .submit c op => match s.clients c with
    | .idle =>
      some { s with nextId := s.nextId + 1, clients := Function.update s.clients c (.check s.nextId op) }
    | _ => none
  | .client c => s.clientStep c (s.clients c)
  | .clientTimeout c => s.clientTimeout c (s.clients c)
  | .worker w => if w < s.numWorkers then s.workerStep w (s.workers w) else none
  | .stop => s.stopStep s.stopper

/-- The states a started router reaches, one statement at a time. -/
def Reachable (s₀ s : RouterSys V) : Prop :=
  Relation.ReflTransGen (fun s s' => ∃ a, s.step a = some s') s₀ s

/-- Run the statements in order; `none` as soon as one is blocked. -/
def run (s : RouterSys V) : List (RouterAction V) → Option (RouterSys V)
  | [] => some s
  | a :: rest => (s.step a).bind fun s' => s'.run rest

theorem run_reachable {s s' : RouterSys V} {tr : List (RouterAction V)} (h : s.run tr = some s') :
    Reachable s s' := by
  induction tr generalizing s with
  | nil => cases h; exact .refl
  | cons a tr ih =>
    obtain ⟨s₁, h₁, h₂⟩ := Option.bind_eq_some.1 h
    exact .head ⟨a, h₁⟩ (ih h₂)

/-- A check that a run ends in a state passing it gives a reachable state passing it. -/
theorem exists_of_run (s₀ : RouterSys V) (tr : List (RouterAction V)) (P : RouterSys V → Bool)
    (h : (s₀.run tr).map P = some true) : ∃ s, s₀.Reachable s ∧ s₀.run tr = some s ∧ P s = true := by
  obtain ⟨s, hs, hP⟩ := Option.map_eq_some'.1 h
  exact ⟨s, run_reachable hs, hs, hP⟩

end RouterSys

/-! ### Shutdown leaves accepted requests behind -/

/-- The store of a `Router` with neither persistence nor WAL. -/
def memoryStore : KeyValueStore Nat := KeyValueStore.init none none

/-- One worker; client 0 gets `"k"`. The request is queued, `stop()` puts the sentinel, and
`Worker.stop()` clears the flag while the worker is at its loop test, so it ends at once. -/
def flagCleared : List (RouterAction Nat) :=
  [.submit 0 (.get "k"), .client 0, .client 0] ++ List.replicate 5 .stop ++ [.worker 0] ++
    List.replicate 3 .stop

/-- One worker; client 0 gets `"k"`. It passes the `_running` check, `stop()` puts the
sentinel, the worker takes it and ends, and the client then puts its request. -/
def putAfterSentinel : List (RouterAction Nat) :=
  [.submit 0 (.get "k"), .client 0] ++ List.replicate 4 .stop ++ List.replicate 4 (.worker 0) ++
    [.client 0] ++ List.replicate 4 .stop

open RouterSys in
/-- A run that ends with the store closed, client 0's `GET` still queued, its event unset, and
the client waiting on it. -/
theorem closed_with_request_queued {tr : List (RouterAction Nat)}
    (h : ((started 1 100 memoryStore).run tr).map (fun s => s.closed &&
      decide (QItem.request 0 (.get "k") ∈ s.queue) && !s.events 0 &&
      decide (s.clients 0 = .wait 0)) = some true) :
    ∃ s, (started 1 100 memoryStore).Reachable s ∧ (started 1 100 memoryStore).run tr = some s ∧
      s.closed = true ∧ QItem.request 0 (.get "k") ∈ s.queue ∧ s.events 0 = false ∧
      s.clients 0 = .wait 0 := by
  obtain ⟨s, hr, hs, hP⟩ := exists_of_run _ tr _ h
  simp only [Bool.and_eq_true, decide_eq_true_eq, Bool.not_eq_true'] at hP
  exact ⟨s, hr, hs, hP.1.1.1, hP.1.1.2, hP.1.2, hP.2⟩

open RouterSys in
/-- Both ways, `store.close()` runs while client 0's request is in the queue, its event unset,
and the client still waiting on it. -/
theorem stop_leaves_request_unprocessed :
    (∃ s, (started 1 100 memoryStore).Reachable s ∧ (started 1 100 memoryStore).run flagCleared = some s ∧
      s.closed = true ∧ QItem.request 0 (.get "k") ∈ s.queue ∧ s.events 0 = false ∧
      s.clients 0 = .wait 0) ∧
    (∃ s, (started 1 100 memoryStore).Reachable s ∧
      (started 1 100 memoryStore).run putAfterSentinel = some s ∧
      s.closed = true ∧ QItem.request 0 (.get "k") ∈ s.queue ∧ s.events 0 = false ∧
      s.clients 0 = .wait 0) :=
  ⟨closed_with_request_queued (by decide), closed_with_request_queued (by decide)⟩

/-- One worker; client 0 gets `"k"` and the worker takes the request. `stop()` puts the
sentinel and clears the flag, its `join` returns on the timeout while the worker is still in
`_process_request`, and `store.close()` runs. -/
def closeDuringProcess : List (RouterAction Nat) :=
  [.submit 0 (.get "k"), .client 0, .client 0, .worker 0, .worker 0] ++ List.replicate 8 .stop

/-- The request a client holds from its `_running` check to its `put`. -/
def ClientPc.held {V : Type} : ClientPc V → Option Nat
  | .check id _ => some id
  | .put id _ => some id
  | _ => none

/-- The request a worker has taken from the queue and not yet processed. -/
def WorkerPc.held {V : Type} : WorkerPc V → Option Nat
  | .process (.request id _) => some id
  | _ => none

/-- The request of a queue item; `SHUTDOWN` carries none. -/
def QItem.id? {V : Type} : QItem V → Option Nat
  | .request id _ => some id
  | .shutdown => none

/-- A place where a request waits before a worker applies it: a client between its check and
its `put`, a position of the queue, or a worker that has taken it. -/
inductive Loc where
  | client (c : Nat)
  | queue (i : Nat)
  | worker (w : Nat)
deriving DecidableEq

namespace RouterSys

variable {V : Type}

/-- The request waiting at a place. -/
def at? (s : RouterSys V) : Loc → Option Nat
  | .client c => (s.clients c).held
  | .queue i => s.queue[i]?.bind QItem.id?
  | .worker w => (s.workers w).held

/-- The request a statement applies to the store: a worker's `_process_request` on it. -/
def applied (s : RouterSys V) : RouterAction V → Option Nat
  | .worker w => (s.workers w).held
  | _ => none

/-- The requests the statements `tr` apply to the store, in order, up to the first statement
that is blocked. -/
def appliedAlong (s : RouterSys V) : List (RouterAction V) → List Nat
  | [] => []
  | a :: tr =>
    match s.step a with
    | some s' => (s.applied a).toList ++ s'.appliedAlong tr
    | none => []

/-- What keeps a request from being applied twice: the applied ones `P` are distinct with their
events set; a waiting request waits at one place only, with its event unset and an id already
handed out; and no id from `nextId` on has its event set. -/
structure OnceInv (s : RouterSys V) (P : List Nat) : Prop where
  nodup : P.Nodup
  done : ∀ id ∈ P, s.events id = true
  unique : ∀ l l' id, s.at? l = some id → s.at? l' = some id → l = l'
  pending : ∀ l id, s.at? l = some id → s.events id = false ∧ id < s.nextId
  fresh : ∀ id, s.nextId ≤ id → s.events id = false

/-- A statement that sets no event, hands out no id and applies nothing, and moves or drops the
waiting requests: each new place `l` holds what the old place `f l` held, for a one-to-one `f`. -/
theorem OnceInv.move {s s' : RouterSys V} {P : List Nat} (h : s.OnceInv P) (f : Loc → Loc)
    (hf : Function.Injective f) (hat : ∀ l id, s'.at? l = some id → s.at? (f l) = some id)
    (hev : s'.events = s.events) (hnext : s'.nextId = s.nextId) : s'.OnceInv P where
  nodup := h.nodup
  done id hid := hev ▸ h.done id hid
  unique l l' id hl hl' := hf (h.unique _ _ id (hat l id hl) (hat l' id hl'))
  pending l id hl := hev ▸ hnext ▸ h.pending (f l) id (hat l id hl)
  fresh id hid := hev ▸ h.fresh id (hnext ▸ hid)

theorem at?_client (s : RouterSys V) (c : Nat) : s.at? (.client c) = (s.clients c).held := rfl
theorem at?_queue (s : RouterSys V) (i : Nat) : s.at? (.queue i) = s.queue[i]?.bind QItem.id? := rfl
theorem at?_worker (s : RouterSys V) (w : Nat) : s.at? (.worker w) = (s.workers w).held := rfl

/-- A statement that only drops waiting requests, place by place. -/
theorem OnceInv.frame {s s' : RouterSys V} {P : List Nat} (h : s.OnceInv P)
    (hc : ∀ c id, (s'.clients c).held = some id → (s.clients c).held = some id)
    (hq : ∀ (i : Nat) id, s'.queue[i]?.bind QItem.id? = some id → s.queue[i]?.bind QItem.id? = some id)
    (hw : ∀ w id, (s'.workers w).held = some id → (s.workers w).held = some id)
    (hev : s'.events = s.events) (hnext : s'.nextId = s.nextId) : s'.OnceInv P :=
  h.move id Function.injective_id (fun l id hl => match l, hl with
    | .client c, hl => hc c id hl
    | .queue i, hl => hq i id hl
    | .worker w, hl => hw w id hl) hev hnext

/-- Updating one thread's place to one holding at most what it held. -/
theorem held_update {α : Type} (held : α → Option Nat) {f : Nat → α} {c : Nat} {p : α}
    (hp : ∀ id, held p = some id → held (f c) = some id) (c' id : Nat)
    (h : held (Function.update f c p c') = some id) : held (f c') = some id := by
  rw [Function.update_apply] at h
  split_ifs at h with hc
  · subst hc; exact hp id h
  · exact h

theorem bind_id?_append_shutdown (q : List (QItem V)) (i : Nat) :
    (q ++ [.shutdown])[i]?.bind QItem.id? = q[i]?.bind QItem.id? := by
  by_cases hi : i < q.length
  · rw [List.getElem?_append_left hi]
  · rw [List.getElem?_append_right (Nat.le_of_not_lt hi), List.getElem?_eq_none (Nat.le_of_not_lt hi)]
    cases i - q.length <;> rfl

theorem OnceInv.init (N Q : Nat) (store : KeyValueStore V) : (started N Q store).OnceInv [] where
  nodup := List.nodup_nil
  done _ h := nomatch h
  unique l _ _ hl := by cases l <;> cases hl
  pending l _ hl := by cases l <;> cases hl
  fresh _ _ := rfl

theorem OnceInv.append_none {s : RouterSys V} {P : List Nat} (h : s.OnceInv P) :
    s.OnceInv (P ++ (none : Option Nat).toList) := by
  rwa [Option.toList_none, List.append_nil]

/-- A new request: client `c` gets id `nextId`, which no place holds and whose event is unset. -/
theorem OnceInv.submit {s s' : RouterSys V} {P : List Nat} {c : Nat} {op : Operation V}
    (h : s.OnceInv P) (hc : s'.clients = Function.update s.clients c (.check s.nextId op))
    (hq : s'.queue = s.queue) (hw : s'.workers = s.workers) (hev : s'.events = s.events)
    (hn : s'.nextId = s.nextId + 1) : s'.OnceInv P := by
  have hat : ∀ l id, s'.at? l = some id →
      (l = .client c ∧ id = s.nextId) ∨ (l ≠ .client c ∧ s.at? l = some id) := by
    intro l id hl
    cases l with
    | client c' =>
      rw [at?_client, hc, Function.update_apply] at hl
      split_ifs at hl with hcc
      · exact .inl ⟨by rw [hcc], (Option.some.inj hl).symm⟩
      · exact .inr ⟨by simpa using hcc, hl⟩
    | queue i => exact .inr ⟨nofun, by rwa [at?_queue, hq] at hl⟩
    | worker w => exact .inr ⟨nofun, by rwa [at?_worker, hw] at hl⟩
  refine ⟨h.nodup, fun x hx => hev ▸ h.done x hx, fun l l' x hl hl' => ?_, fun l x hl => ?_,
    fun x hx => by rw [hev]; exact h.fresh x (by omega)⟩
  · rcases hat l x hl with ⟨rfl, rfl⟩ | ⟨-, hl⟩ <;> rcases hat l' _ hl' with ⟨rfl, hx⟩ | ⟨-, hl'⟩
    · rfl
    · exact absurd (h.pending _ _ hl').2 (by omega)
    · exact absurd (h.pending _ _ hl).2 (by omega)
    · exact h.unique _ _ x hl hl'
  · rw [hev, hn]
    rcases hat l x hl with ⟨-, rfl⟩ | ⟨-, hl⟩
    · exact ⟨h.fresh _ le_rfl, Nat.lt_succ_self _⟩
    · exact ⟨(h.pending _ _ hl).1, Nat.lt_succ_of_lt (h.pending _ _ hl).2⟩

/-- `put`: the request moves from client `c` to the end of the queue, and client `c` holds none. -/
theorem OnceInv.put {s s' : RouterSys V} {P : List Nat} {c id : Nat} {op : Operation V}
    (h : s.OnceInv P) (hp : s.clients c = .put id op)
    (hc : s'.clients = Function.update s.clients c (.wait id)) (hq : s'.queue = s.queue ++ [.request id op])
    (hw : s'.workers = s.workers) (hev : s'.events = s.events) (hn : s'.nextId = s.nextId) :
    s'.OnceInv P := by
  refine h.move (Equiv.swap (.client c) (.queue s.queue.length)) (Equiv.injective _)
    (fun l x hl => ?_) hev hn
  rw [Equiv.swap_apply_def]
  cases l with
  | client c' =>
    rw [at?_client, hc] at hl
    have hc' : c' ≠ c := fun e => by subst e; simp [ClientPc.held] at hl
    simpa [hc'] using held_update ClientPc.held (fun _ hx => by cases hx) c' x hl
  | queue i =>
    rw [at?_queue, hq] at hl
    by_cases hi : i < s.queue.length
    · rw [List.getElem?_append_left hi] at hl
      simpa [Nat.ne_of_lt hi] using hl
    · rw [List.getElem?_append_right (Nat.le_of_not_lt hi)] at hl
      obtain rfl : i = s.queue.length := by
        by_contra hne
        rw [List.getElem?_eq_none (by simp; omega)] at hl; cases hl
      simp only [Nat.sub_self, List.getElem?_cons_zero, Option.some_bind, QItem.id?] at hl
      simp [at?_client, hp, ClientPc.held, hl]
  | worker w => simpa [at?_worker, hw] using hl

/-- Where a place after worker `w`'s `get` was before: the worker's request at the head of the
queue, and every other queue position one further back. -/
def Loc.beforeGet (w : Nat) : Loc → Loc
  | .queue i => .queue (i + 1)
  | .worker w' => if w' = w then .queue 0 else .worker w'
  | l => l

theorem Loc.beforeGet_injective (w : Nat) : Function.Injective (Loc.beforeGet w) := by
  intro l l' e
  cases l <;> cases l' <;> simp only [Loc.beforeGet] at e <;> (try split_ifs at e) <;> simp_all

/-- `get`: the head of the queue moves to worker `w`, and the rest of the queue up by one. -/
theorem OnceInv.get {s s' : RouterSys V} {P : List Nat} {w : Nat} {item : QItem V}
    {rest : List (QItem V)} (h : s.OnceInv P) (hq : s.queue = item :: rest)
    (hc : s'.clients = s.clients) (hq' : s'.queue = rest)
    (hw : s'.workers = Function.update s.workers w (.process item)) (hev : s'.events = s.events)
    (hn : s'.nextId = s.nextId) : s'.OnceInv P := by
  refine h.move (Loc.beforeGet w) (Loc.beforeGet_injective w) (fun l x hl => ?_) hev hn
  cases l with
  | client c => rwa [at?_client, hc] at hl
  | queue i => simpa [at?_queue, hq, hq', Loc.beforeGet] using hl
  | worker w' =>
    rw [at?_worker, hw, Function.update_apply] at hl
    simp only [Loc.beforeGet]
    split_ifs at hl ⊢ with hww
    · cases item <;> simp_all [WorkerPc.held, QItem.id?, at?_queue]
    · exact hl

/-- `_process_request`: the worker's request leaves its place and has its event set. -/
theorem OnceInv.process {s s' : RouterSys V} {P : List Nat} {w id : Nat} {op : Operation V}
    (h : s.OnceInv P) (hp : s.workers w = .process (.request id op)) (hc : s'.clients = s.clients)
    (hq : s'.queue = s.queue) (hw : s'.workers = Function.update s.workers w .loop)
    (hev : s'.events = Function.update s.events id true) (hn : s'.nextId = s.nextId) :
    s'.OnceInv (P ++ [id]) := by
  have hwid : s.at? (.worker w) = some id := by simp [at?_worker, hp, WorkerPc.held]
  have hpend := h.pending _ _ hwid
  have hat : ∀ l x, s'.at? l = some x → s.at? l = some x ∧ x ≠ id := by
    intro l x hl
    have hl' : s.at? l = some x := by
      cases l with
      | client c => rwa [at?_client, hc] at hl
      | queue i => rwa [at?_queue, hq] at hl
      | worker w' =>
        rw [at?_worker, hw] at hl
        exact held_update WorkerPc.held (fun _ hx => by cases hx) w' x hl
    refine ⟨hl', fun hx => ?_⟩
    subst hx
    obtain rfl := h.unique _ _ _ hl' hwid
    simp [at?_worker, hw, WorkerPc.held] at hl
  refine ⟨h.nodup.append (List.nodup_singleton id) ?_, fun x hx => ?_, fun l l' x hl hl' =>
    h.unique l l' x (hat l x hl).1 (hat l' x hl').1, fun l x hl => ?_, fun x hx => ?_⟩
  · simp only [List.disjoint_singleton]
    exact fun hid => absurd (h.done id hid) (by simp [hpend.1])
  · rw [hev, Function.update_apply]
    split_ifs with hxid
    · rfl
    · exact h.done x (by simpa [hxid] using hx)
  · obtain ⟨hl, hne⟩ := hat l x hl
    simpa [hev, hn, Function.update_apply, hne] using h.pending l x hl
  · have hne : x ≠ id := fun e => by subst e; omega
    simpa [hev, Function.update_apply, hne] using h.fresh x (hn ▸ hx)

theorem OnceInv.clientStep {s s' : RouterSys V} {P : List Nat} {c : Nat} (h : s.OnceInv P)
    (hs : s.clientStep c (s.clients c) = some s') : s'.OnceInv P := by
  generalize hp : s.clients c = p at hs
  cases p with
  | idle => cases hs
  | check id op =>
    simp only [RouterSys.clientStep, Option.some.injEq] at hs; subst hs
    refine h.frame (held_update ClientPc.held fun x hx => ?_) (fun _ _ h => h) (fun _ _ h => h) rfl rfl
    rw [hp]; split at hx
    · exact hx
    · cases hx
  | put id op =>
    simp only [RouterSys.clientStep, Option.ite_none_right_eq_some, Option.some.injEq] at hs
    obtain ⟨-, rfl⟩ := hs
    exact h.put hp rfl rfl rfl rfl rfl
  | wait id =>
    simp only [RouterSys.clientStep, Option.ite_none_right_eq_some, Option.some.injEq] at hs
    obtain ⟨-, rfl⟩ := hs
    exact h.frame (held_update ClientPc.held fun _ hx => by cases hx) (fun _ _ h => h) (fun _ _ h => h) rfl rfl

theorem OnceInv.clientTimeout {s s' : RouterSys V} {P : List Nat} {c : Nat} (h : s.OnceInv P)
    (hs : s.clientTimeout c (s.clients c) = some s') : s'.OnceInv P := by
  obtain rfl : s' = { s with clients := Function.update s.clients c .idle } := by
    generalize s.clients c = p at hs
    cases p <;> simp only [RouterSys.clientTimeout, reduceCtorEq] at hs <;>
      split at hs <;> simp only [Option.some.injEq, reduceCtorEq] at hs <;> exact hs.symm
  exact h.frame (held_update ClientPc.held fun _ hx => by cases hx) (fun _ _ h => h) (fun _ _ h => h) rfl rfl

theorem OnceInv.workerStep {s s' : RouterSys V} {P : List Nat} {w : Nat} (h : s.OnceInv P)
    (hs : s.workerStep w (s.workers w) = some s') : s'.OnceInv (P ++ (s.workers w).held.toList) := by
  generalize hp : s.workers w = p at hs ⊢
  cases p with
  | loop =>
    simp only [RouterSys.workerStep, Option.some.injEq] at hs; subst hs
    refine OnceInv.append_none ?_
    exact h.frame (fun _ _ h => h) (fun _ _ h => h)
      (held_update WorkerPc.held fun _ hx => by split at hx <;> cases hx) rfl rfl
  | get =>
    cases hq : s.queue with
    | nil =>
      simp only [RouterSys.workerStep, hq, Option.some.injEq] at hs; subst hs
      refine OnceInv.append_none ?_
      exact h.frame (fun _ _ h => h) (fun _ _ h => by rwa [hq])
        (held_update WorkerPc.held fun _ hx => by cases hx) rfl rfl
    | cons item rest =>
      simp only [RouterSys.workerStep, hq, Option.some.injEq] at hs; subst hs
      refine OnceInv.append_none ?_
      exact h.get hq rfl rfl rfl rfl rfl
  | process item =>
    cases item with
    | shutdown =>
      simp only [RouterSys.workerStep, Option.some.injEq] at hs; subst hs
      refine OnceInv.append_none ?_
      exact h.frame (fun _ _ h => h) (fun _ _ h => h)
        (held_update WorkerPc.held fun _ hx => by cases hx) rfl rfl
    | request id op =>
      simp only [RouterSys.workerStep, Option.some.injEq] at hs; subst hs
      exact h.process hp rfl rfl rfl rfl rfl
  | exited => cases hs

/-- `stop()` leaves the clients, the workers' places, the events and the ids alone, and at most
puts a `SHUTDOWN` at the end of the queue. -/
theorem stopStep_frame {s s' : RouterSys V} {st : StopPc} (h : s.stopStep st = some s') :
    s'.clients = s.clients ∧ s'.workers = s.workers ∧ s'.events = s.events ∧ s'.nextId = s.nextId ∧
      (s'.queue = s.queue ∨ s'.queue = s.queue ++ [.shutdown]) := by
  cases st with
  | sentinels k =>
    rcases k with _ | k <;>
      simp only [RouterSys.stopStep, Option.ite_none_right_eq_some, Option.some.injEq] at h
    · subst h; exact ⟨rfl, rfl, rfl, rfl, .inl rfl⟩
    · obtain ⟨-, rfl⟩ := h; exact ⟨rfl, rfl, rfl, rfl, .inr rfl⟩
  | done => cases h
  | idle | check | clearFlag _ | join _ | close =>
    simp only [RouterSys.stopStep] at h
    (try split at h) <;> simp only [Option.some.injEq] at h <;> subst h <;>
      exact ⟨rfl, rfl, rfl, rfl, .inl rfl⟩

theorem OnceInv.stopStep {s s' : RouterSys V} {P : List Nat} (h : s.OnceInv P)
    (hs : s.stopStep s.stopper = some s') : s'.OnceInv P := by
  obtain ⟨hc, hw, hev, hn, hq⟩ := stopStep_frame hs
  refine h.frame (fun c x hx => hc ▸ hx) (fun i x hx => ?_) (fun w x hx => hw ▸ hx) hev hn
  rcases hq with hq | hq <;> rw [hq] at hx
  · exact hx
  · rwa [bind_id?_append_shutdown] at hx

theorem OnceInv.step {s s' : RouterSys V} {P : List Nat} {a : RouterAction V} (h : s.OnceInv P)
    (hs : s.step a = some s') : s'.OnceInv (P ++ (s.applied a).toList) := by
  cases a with
  | submit c op =>
    simp only [RouterSys.step] at hs
    split at hs <;> simp only [Option.some.injEq, reduceCtorEq] at hs
    subst hs
    exact OnceInv.append_none (h.submit rfl rfl rfl rfl rfl)
  | client c => exact OnceInv.append_none (h.clientStep hs)
  | clientTimeout c => exact OnceInv.append_none (h.clientTimeout hs)
  | worker w =>
    simp only [RouterSys.step, Option.ite_none_right_eq_some] at hs
    exact h.workerStep hs.2
  | stop => exact OnceInv.append_none (h.stopStep hs)

theorem OnceInv.appliedAlong {s : RouterSys V} {P : List Nat} (h : s.OnceInv P)
    (tr : List (RouterAction V)) : (P ++ s.appliedAlong tr).Nodup := by
  induction tr generalizing s P with
  | nil => simpa [RouterSys.appliedAlong] using h.nodup
  | cons a tr ih =>
    cases hs : s.step a with
    | none => simpa [RouterSys.appliedAlong, hs] using h.nodup
    | some s' =>
      simp only [RouterSys.appliedAlong, hs, ← List.append_assoc]
      exact ih (h.step hs)

end RouterSys

open RouterSys in
/-- In every interleaving of clients, workers and `stop()` from a started router, the workers
apply each request to the store at most once. -/
theorem requests_applied_at_most_once {V : Type} (N Q : Nat) (store : KeyValueStore V)
    (tr : List (RouterAction V)) : ((started N Q store).appliedAlong tr).Nodup :=
  (OnceInv.init N Q store).appliedAlong tr

/-- One `GET` submitted, put, taken and processed by the only worker. -/
example : (RouterSys.started 1 100 memoryStore).appliedAlong
    [.submit 0 (.get "k"), .client 0, .client 0, .worker 0, .worker 0, .worker 0] = [0] := by
  decide

end MiniKV
