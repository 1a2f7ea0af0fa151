/-
Module: MiniKV.Server.SequentialStore
Purpose: What a client of `Router` sees of its worker pool: the store called one request at a
  time, in the order the worker runs `_process_request`. The router model applies a whole
  `_process_request` in one statement and with no error, which is what the code does with one
  worker over a store without WAL or SQLite: several workers interleave the store's calls
  (`Core.Concurrent`, where a `delete` under a concurrent `clear` raises `KeyError`), and a WAL
  or SQLite raises on a value `json.dumps` cannot write or on a closed database, which
  `_process_request` records as the request's error. There, along any interleaving of clients,
  the worker and `stop()` from a started router, the store is the one the requests leave when
  run in the order the worker applied them from the starting store (`runRequests`); a request's
  event is set exactly when the worker has applied it, so `_submit_request` gets past
  `event.wait` only once its request has taken effect, and a timeout only while it has not; and
  the result recorded for it, which `_submit_request` returns, is what its operation returns at
  its place in that order. No other statement (a client's check, `put` or timeout, the worker's
  loop test, `get` or `SHUTDOWN`, any statement of `stop()`) touches the store, the results or
  the events. The last part rests on `RouterSys.OnceInv`: no request is applied twice, so no
  later write replaces its result.
Trusted boundary: none
Main exports: runRequests, RouterSys.effect, RouterSys.effectsAlong, RouterSys.step_effect,
  RouterSys.SeqInv, router_refines_sequential_store
-/
import MiniKV.Server.Router

namespace MiniKV

variable {V : Type}

/-- The store after the operations, called one after another by a single caller. -/
def runRequests (st : KeyValueStore V) (ops : List (Operation V)) : KeyValueStore V :=
  ops.foldl (fun st op => (processRequest st op).2) st

theorem runRequests_append_singleton (st : KeyValueStore V) (ops : List (Operation V))
    (op : Operation V) : runRequests st (ops ++ [op]) = (processRequest (runRequests st ops) op).2 :=
  List.foldl_concat _ _ _ _

namespace RouterSys

/-- The request a statement applies to the store, with its operation. -/
def effect (s : RouterSys V) : RouterAction V → Option (Nat × Operation V)
  | .worker w =>
    match s.workers w with
    | .process (.request id op) => some (id, op)
    | _ => none
  | _ => none

/-- The requests the statements `tr` apply, in order, up to the first statement that is blocked. -/
def effectsAlong (s : RouterSys V) : List (RouterAction V) → List (Nat × Operation V)
  | [] => []
  | a :: tr =>
    match s.step a with
    | some s' => (s.effect a).toList ++ s'.effectsAlong tr
    | none => []

theorem map_fst_effect (s : RouterSys V) (a : RouterAction V) :
    (s.effect a).toList.map Prod.fst = (s.applied a).toList := by
  cases a with
  | worker w =>
    simp only [effect, applied]
    split <;> rename_i hw <;> simp [hw, WorkerPc.held]
  | _ => rfl

theorem effectsAlong_map_fst (s : RouterSys V) (tr : List (RouterAction V)) :
    (s.effectsAlong tr).map Prod.fst = s.appliedAlong tr := by
  induction tr generalizing s with
  | nil => rfl
  | cons a tr ih =>
    cases hs : s.step a with
    | none => simp [effectsAlong, appliedAlong, hs]
    | some s' => simp only [effectsAlong, appliedAlong, hs, List.map_append, map_fst_effect, ih]

/-- What a statement that applies no request leaves alone. -/
def Quiet (s s' : RouterSys V) : Prop :=
  s'.store = s.store ∧ s'.results = s.results ∧ s'.events = s.events

theorem clientStep_quiet {s s' : RouterSys V} {c : Nat} {p : ClientPc V}
    (h : s.clientStep c p = some s') : Quiet s s' := by
  cases p <;> simp only [RouterSys.clientStep] at h <;> (try split at h) <;>
    simp only [Option.some.injEq, reduceCtorEq] at h <;> subst h <;> exact ⟨rfl, rfl, rfl⟩

theorem clientTimeout_quiet {s s' : RouterSys V} {c : Nat} {p : ClientPc V}
    (h : s.clientTimeout c p = some s') : Quiet s s' := by
  cases p <;> simp only [RouterSys.clientTimeout, reduceCtorEq] at h <;> split at h <;>
    simp only [Option.some.injEq, reduceCtorEq] at h <;> subst h <;> exact ⟨rfl, rfl, rfl⟩

theorem stopStep_quiet {s s' : RouterSys V} {st : StopPc} (h : s.stopStep st = some s') :
    Quiet s s' := by
  cases st with
  | sentinels k =>
    rcases k with _ | k <;> simp only [RouterSys.stopStep] at h <;> (try split at h) <;>
      simp only [Option.some.injEq, reduceCtorEq] at h <;> subst h <;> exact ⟨rfl, rfl, rfl⟩
  | done => cases h
  | _ =>
    simp only [RouterSys.stopStep] at h
    (try split at h) <;> simp only [Option.some.injEq, reduceCtorEq] at h <;> subst h <;>
      exact ⟨rfl, rfl, rfl⟩

/-- Everything one statement can do to the store, the results and the events: nothing, or
`_process_request` on the request its worker holds, which runs the operation on the store,
records its result and sets its event. -/
theorem step_effect {s s' : RouterSys V} {a : RouterAction V} (h : s.step a = some s') :
    (s.effect a = none ∧ Quiet s s') ∨
    ∃ id op, s.effect a = some (id, op) ∧ s'.store = (processRequest s.store op).2 ∧
      s'.results = Function.update s.results id (some (processRequest s.store op).1) ∧
      s'.events = Function.update s.events id true := by
  cases a with
  | submit c op =>
    simp only [step] at h
    split at h <;> simp only [Option.some.injEq, reduceCtorEq] at h
    subst h; exact .inl ⟨rfl, rfl, rfl, rfl⟩
  | client c => exact .inl ⟨rfl, clientStep_quiet h⟩
  | clientTimeout c => exact .inl ⟨rfl, clientTimeout_quiet h⟩
  | stop => exact .inl ⟨rfl, stopStep_quiet h⟩
  | worker w =>
    simp only [step, Option.ite_none_right_eq_some] at h
    obtain ⟨-, h⟩ := h
    simp only [effect]
    generalize s.workers w = p at h ⊢
    cases p with
    | process item =>
      cases item with
      | request id op =>
        simp only [workerStep, Option.some.injEq] at h
        subst h; exact .inr ⟨id, op, rfl, rfl, rfl, rfl⟩
      | shutdown =>
        simp only [workerStep, Option.some.injEq] at h
        subst h; exact .inl ⟨rfl, rfl, rfl, rfl⟩
    | exited => simp only [workerStep, reduceCtorEq, and_false] at h
    | _ =>
      simp only [workerStep] at h
      (try split at h) <;> simp only [Option.some.injEq, and_true] at h <;>
        exact .inl ⟨rfl, by subst h; exact ⟨rfl, rfl, rfl⟩⟩

/-- What ties a router state to the sequential store, given the requests `E` applied so far in
order: the store is theirs, each one's result is the one it computed unless a later request of
the same id replaced it, and the events set are theirs. -/
structure SeqInv (store : KeyValueStore V) (s : RouterSys V) (E : List (Nat × Operation V)) : Prop where
  replay : s.store = runRequests store (E.map Prod.snd)
  results : ∀ E₁ id op E₂, E = E₁ ++ (id, op) :: E₂ → id ∉ E₂.map Prod.fst →
    s.results id = some (processRequest (runRequests store (E₁.map Prod.snd)) op).1
  events : ∀ id, s.events id = true ↔ id ∈ E.map Prod.fst

theorem SeqInv.init (N Q : Nat) (store : KeyValueStore V) : (started N Q store).SeqInv store [] where
  replay := rfl
  results E₁ _ _ _ hE := absurd hE.symm (by simp)
  events _ := by simp [started]

theorem SeqInv.quiet {store : KeyValueStore V} {s s' : RouterSys V} {E : List (Nat × Operation V)}
    (h : s.SeqInv store E) (hq : Quiet s s') : s'.SeqInv store E := by
  obtain ⟨hst, hres, hev⟩ := hq
  exact ⟨hst ▸ h.replay, hres ▸ h.results, hev ▸ h.events⟩

/-- `_process_request` on request `id`: the sequential store takes one more step. -/
theorem SeqInv.process {store : KeyValueStore V} {s s' : RouterSys V} {E : List (Nat × Operation V)}
    {id : Nat} {op : Operation V} (h : s.SeqInv store E)
    (hst : s'.store = (processRequest s.store op).2)
    (hres : s'.results = Function.update s.results id (some (processRequest s.store op).1))
    (hev : s'.events = Function.update s.events id true) : s'.SeqInv store (E ++ [(id, op)]) := by
  refine ⟨by rw [hst, h.replay, List.map_append, List.map_singleton, runRequests_append_singleton],
    fun E₁ x o E₂ hE hx => ?_, fun x => ?_⟩
  · rcases List.eq_nil_or_concat E₂ with rfl | ⟨L, b, rfl⟩
    · obtain ⟨rfl, hb⟩ := List.append_inj' hE rfl
      obtain ⟨rfl, rfl⟩ := Prod.mk.inj (List.singleton_inj.1 hb)
      rw [hres, Function.update_same, h.replay]
    · rw [List.concat_eq_append] at hE hx
      rw [← List.cons_append, ← List.append_assoc] at hE
      obtain ⟨hE₁, hb⟩ := List.append_inj' hE rfl
      obtain rfl := (List.singleton_inj.1 hb).symm
      simp only [List.map_append, List.map_cons, List.map_nil, List.mem_append, List.mem_singleton,
        not_or] at hx
      rw [hres, Function.update_noteq hx.2]
      exact h.results E₁ x o L hE₁ hx.1
  · rw [hev, Function.update_apply]
    split_ifs with hx
    · simp [hx]
    · simp [h.events x, hx]

theorem SeqInv.step {store : KeyValueStore V} {s s' : RouterSys V} {E : List (Nat × Operation V)}
    {a : RouterAction V} (h : s.SeqInv store E) (hs : s.step a = some s') :
    s'.SeqInv store (E ++ (s.effect a).toList) := by
  rcases step_effect hs with ⟨he, hq⟩ | ⟨id, op, he, hst, hres, hev⟩
  · rw [he, Option.toList_none, List.append_nil]
    exact h.quiet hq
  · rw [he, Option.toList_some]
    exact h.process hst hres hev

theorem SeqInv.run {store : KeyValueStore V} {s s' : RouterSys V} {E : List (Nat × Operation V)}
    {tr : List (RouterAction V)} (h : s.SeqInv store E) (hr : s.run tr = some s') :
    s'.SeqInv store (E ++ s.effectsAlong tr) := by
  induction tr generalizing s E with
  | nil =>
    cases hr
    simpa [effectsAlong] using h
  | cons a tr ih =>
    obtain ⟨s₁, h₁, h₂⟩ := Option.bind_eq_some.1 hr
    simpa only [effectsAlong, h₁, List.append_assoc] using ih (h.step h₁) h₂

end RouterSys

open RouterSys in
/-- A router with one worker over a store without WAL or SQLite refines the store called by one
caller. In every interleaving of clients, the worker and `stop()` from a started router, with
`E` the requests in the order the worker applied them: the store is what running their
operations in that order leaves; a request's event is set exactly when it is in `E`, so a client
returns from `event.wait` only after its request took effect; and each request's recorded
result, the value `_submit_request` returns, is what its operation returns on the store the
requests before it left. -/
theorem router_refines_sequential_store (Q : Nat) (store : KeyValueStore V)
    (_hmem : store.wal = none ∧ store.persistence = none) (tr : List (RouterAction V))
    {s : RouterSys V} (h : (started 1 Q store).run tr = some s) :
    s.store = runRequests store (((started 1 Q store).effectsAlong tr).map Prod.snd) ∧
    (∀ id, s.events id = true ↔ id ∈ ((started 1 Q store).effectsAlong tr).map Prod.fst) ∧
    ∀ E₁ id op E₂, (started 1 Q store).effectsAlong tr = E₁ ++ (id, op) :: E₂ →
      s.results id = some (processRequest (runRequests store (E₁.map Prod.snd)) op).1 := by
  have hi := (SeqInv.init 1 Q store).run h
  rw [List.nil_append] at hi
  have hnd := (OnceInv.init 1 Q store).appliedAlong tr
  rw [List.nil_append, ← effectsAlong_map_fst] at hnd
  refine ⟨hi.replay, hi.events, fun E₁ id op E₂ hE => hi.results E₁ id op E₂ hE ?_⟩
  rw [hE, List.map_append, List.map_cons] at hnd
  exact (List.nodup_cons.1 (List.nodup_append.1 hnd).2.1).1

/-- One worker; client 0 sets `"k"` and client 1 gets it: both are put, the worker takes and
processes them in turn, and both clients return. -/
def setThenGet : List (RouterAction Nat) :=
  [.submit 0 (.set "k" 1), .submit 1 (.get "k"), .client 0, .client 1, .client 0, .client 1] ++
    List.replicate 6 (.worker 0) ++ [.client 0, .client 1]

example : (RouterSys.started 1 100 memoryStore).effectsAlong setThenGet =
    [(0, .set "k" 1), (1, .get "k")] := by
  decide

open RouterSys in
theorem router_refines_sequential_store_setThenGet :
    (memoryStore.wal = none ∧ memoryStore.persistence = none) ∧
    ∃ s, (started 1 100 memoryStore).run setThenGet = some s ∧
      s.store = runRequests memoryStore (((started 1 100 memoryStore).effectsAlong setThenGet).map Prod.snd) ∧
      (∀ id, s.events id = true ↔ id ∈ ((started 1 100 memoryStore).effectsAlong setThenGet).map Prod.fst) ∧
      ∀ E₁ id op E₂, (started 1 100 memoryStore).effectsAlong setThenGet = E₁ ++ (id, op) :: E₂ →
        s.results id = some (processRequest (runRequests memoryStore (E₁.map Prod.snd)) op).1 := by
  obtain ⟨s, -, hs, -⟩ := exists_of_run (started 1 100 memoryStore) setThenGet (fun _ => true) (by decide)
  exact ⟨⟨rfl, rfl⟩, s, hs, router_refines_sequential_store 100 memoryStore ⟨rfl, rfl⟩ setThenGet hs⟩

end MiniKV
