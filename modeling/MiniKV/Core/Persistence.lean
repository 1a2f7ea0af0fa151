/-
Module: MiniKV.Core.Persistence
Purpose: `SQLitePersistence` of `core/persistence.py` over its `kv_store` table as SQLite holds
  it: each key's row carries the `TEXT` that `json.dumps(value)` wrote, rows in scan order
  (`INSERT OR REPLACE` deletes the old row and appends a new one). `save` raises, before the
  `INSERT`, on a value `json.dumps` cannot write (an `int` past `maxStrDigits` digits, or nesting
  past the recursion levels left at the call). `load` and `load_all` read rows back through
  `json.loads` with the levels left at their call, so a row that is not JSON, or that `loads`
  cannot read, makes them raise. The value-level table of `Core.Store` is what the rows denote
  (`KvStore.Denotes`: the same keys in the same order, each row decoding to its value):
  `load_all` returns a dict exactly when the rows denote it, every backend call on a value
  `json.dumps` writes keeps the relation when reads have at least the levels writes had, `load`,
  `exists` and `get_size` answer as the dict `load_all` returns, and a bad row makes `load_all`
  raise the error of the first bad row. `KeyValueStore` drives its backend by `BackendCall`s, so
  the rows a session leaves denote the store's table, and a store without a WAL reopens over them
  with the memory it had. The value-level store does not raise: a session is followed only up to
  its first call whose `json.dumps` raises.
Trusted boundary: a full scan of `kv_store` returns its rows in insertion order.
Main exports: KvStore.save, KvStore.load, KvStore.delete, KvStore.loadAll, KvStore.clear,
  KvStore.exists, KvStore.getSize, KvStore.Denotes, KvStore.loadAll_eq_ok_iff, BackendCall,
  StoreOp.backendCalls, sessionRows, openRows
-/
import MiniKV.Core.Recovery
import MiniKV.Json.Decode

namespace MiniKV

/-! ### The table as text -/

namespace KvStore

/-- `save(key, value)` with `lw` levels of recursion left at `json.dumps(value)`: `INSERT OR
REPLACE` of the text. When `json.dumps` raises, the table is unchanged and the exception goes to
the caller. -/
def save (lw : Nat) (t : PyDict String (List Char)) (key : String) (value : Json) :
    Except DumpsError (PyDict String (List Char)) :=
  (jsonDumps lw value).map fun text => (t.erase key).insert key text

/-- `load(key)`, with `lr` levels of recursion left at `json.loads`: the key's row read back, and
`None` without one. -/
def load (lr : Nat) (t : PyDict String (List Char)) (key : String) : Except LoadsError Json :=
  match t.get? key with
  | some text => loads lr text
  | none => .ok .null

/-- `delete(key)`. -/
def delete (t : PyDict String (List Char)) (key : String) : PyDict String (List Char) :=
  t.erase key

/-- The loop of `load_all` over the rows still to read, `result` holding those read. -/
def loadRows (lr : Nat) (result : PyDict String Json) :
    List (String × List Char) → Except LoadsError (PyDict String Json)
  | [] => .ok result
  | (key, text) :: rows =>
    match loads lr text with
    | .ok value => loadRows lr (result.insert key value) rows
    | .error e => .error e

/-- `load_all()`, with `lr` levels of recursion left at `json.loads`. -/
def loadAll (lr : Nat) (t : PyDict String (List Char)) : Except LoadsError (PyDict String Json) :=
  loadRows lr PyDict.empty t.entries

/-- `clear()`. -/
def clear (_ : PyDict String (List Char)) : PyDict String (List Char) := PyDict.empty

/-- `exists(key)`: `SELECT 1 ... LIMIT 1` finds a row. -/
def «exists» (t : PyDict String (List Char)) (key : String) : Bool := t.contains key

/-- `get_size()`: `SELECT COUNT(*)`. -/
def getSize (t : PyDict String (List Char)) : Nat := t.size

theorem save_of_fits {lw : Nat} {value : Json} (h : value.fits lw = true)
    (t : PyDict String (List Char)) (key : String) :
    save lw t key value = .ok ((t.erase key).insert key (dumps false value)) := by
  rw [save, jsonDumps_of_fits h]
  rfl

/-! ### What the rows denote -/

/-- The rows of `t`, read back one by one in order with `lr` levels of recursion, are the
entries of `a`. -/
def Denotes (lr : Nat) (t : PyDict String (List Char)) (a : PyDict String Json) : Prop :=
  PyDict.Rel (fun text value => loads lr text = .ok value) t a

/-- A row reads back as an entry: the same key, its text decoding to the value. -/
def RowDecodes (lr : Nat) (r : String × List Char) (e : String × Json) : Prop :=
  r.1 = e.1 ∧ loads lr r.2 = .ok e.2

section

variable {lr : Nat}

theorem loadRows_of_forall₂ {rows : List (String × List Char)} {es : List (String × Json)}
    (h : List.Forall₂ (RowDecodes lr) rows es) (result : PyDict String Json) :
    loadRows lr result rows = .ok (es.foldl (fun acc e => acc.insert e.1 e.2) result) := by
  induction h generalizing result with
  | nil => rfl
  | @cons r e rows es hre _ ih =>
    obtain ⟨key, text⟩ := r
    obtain ⟨hk, hl⟩ := hre
    dsimp only at hk hl; subst hk
    simp only [loadRows, hl, ih, List.foldl_cons]

theorem forall₂_of_loadRows {rows : List (String × List Char)} {result b : PyDict String Json}
    (h : loadRows lr result rows = .ok b) :
    ∃ es, List.Forall₂ (RowDecodes lr) rows es ∧ b = es.foldl (fun acc e => acc.insert e.1 e.2) result := by
  induction rows generalizing result with
  | nil => exact ⟨[], .nil, (Except.ok.inj h).symm⟩
  | cons r rows ih =>
    obtain ⟨key, text⟩ := r
    simp only [loadRows] at h
    split at h
    · rename_i value hl
      obtain ⟨es, hes, rfl⟩ := ih h
      exact ⟨(key, value) :: es, .cons ⟨rfl, hl⟩ hes, rfl⟩
    · cases h

/-- `load_all` returns `a` exactly when the rows denote `a`. -/
theorem loadAll_eq_ok_iff {t : PyDict String (List Char)} {a : PyDict String Json} :
    loadAll lr t = .ok a ↔ Denotes lr t a := by
  constructor
  · intro h
    obtain ⟨es, hes, rfl⟩ := forall₂_of_loadRows h
    have hkeys : t.keys = es.map Prod.fst :=
      map_fst_eq_of_forall₂ (R := fun text value => loads lr text = .ok value) hes
    rw [Denotes, PyDict.Rel, PyDict.entries_foldl_insert (hkeys ▸ t.nodup)]
    exact hes
  · intro h
    rw [loadAll, loadRows_of_forall₂ h]
    exact congrArg _ (PyDict.empty_update a)

end

/-! ### Every backend call keeps the relation -/

section

variable {lw lr : Nat} {t : PyDict String (List Char)} {a : PyDict String Json}

/-- A `save` of a value Python holds and `json.dumps` writes appends a row that reads back as the
value, with at least the levels it was written with. -/
theorem Denotes.save (hl : lw ≤ lr) (h : Denotes lr t a) (key : String) {value : Json}
    (hv : value.valid = true) (hf : value.fits lw = true) :
    Denotes lr ((t.erase key).insert key (dumps false value)) (SQLitePersistence.save a key value) :=
  (h.erase key).insert key (loads_dumps hv (Json.fits_mono hl hf))

theorem Denotes.delete (h : Denotes lr t a) (key : String) :
    Denotes lr (delete t key) (SQLitePersistence.delete a key) :=
  h.erase key

theorem Denotes.clear (t : PyDict String (List Char)) (a : PyDict String Json) :
    Denotes lr (clear t) (SQLitePersistence.clear a) :=
  PyDict.Rel.empty

/-! ### The single-row reads -/

theorem Denotes.load (h : Denotes lr t a) (key : String) :
    load lr t key = .ok ((a.get? key).getD .null) := by
  unfold KvStore.load
  exact match t.get? key, a.get? key, h.get? key with
    | _, _, .some hl => hl
    | _, _, .none => rfl

theorem Denotes.exists (h : Denotes lr t a) (key : String) : «exists» t key = a.contains key :=
  h.contains key

theorem Denotes.getSize (h : Denotes lr t a) : getSize t = a.size :=
  h.size

end

/-! ### A row that is not JSON -/

theorem loadRows_eq_error_iff {lr : Nat} {result : PyDict String Json}
    {rows : List (String × List Char)} {e : LoadsError} :
    loadRows lr result rows = .error e ↔
      ∃ pre key text post, rows = pre ++ (key, text) :: post ∧
        (∀ r ∈ pre, ∃ v, loads lr r.2 = .ok v) ∧ loads lr text = .error e := by
  induction rows generalizing result with
  | nil => simp [loadRows]
  | cons r rows ih =>
    obtain ⟨key, text⟩ := r
    cases hl : loads lr text with
    | error e' =>
      simp only [loadRows, hl, Except.error.injEq]
      refine ⟨fun he => ⟨[], key, text, rows, rfl, by simp, he ▸ hl⟩, ?_⟩
      rintro ⟨pre, k, txt, post, hrows, hpre, hbad⟩
      cases pre with
      | nil =>
        obtain ⟨⟨-, rfl⟩, -⟩ := List.cons.inj hrows
        exact Except.error.inj (hl.symm.trans hbad)
      | cons p pre =>
        obtain ⟨rfl, -⟩ := List.cons.inj hrows
        obtain ⟨v, hv⟩ := hpre (key, text) (List.mem_cons_self _ _)
        exact absurd (hl.symm.trans hv) (by simp)
    | ok v =>
      simp only [loadRows, hl, ih]
      constructor
      · rintro ⟨pre, k, txt, post, rfl, hpre, hbad⟩
        refine ⟨(key, text) :: pre, k, txt, post, rfl, ?_, hbad⟩
        simpa [hl] using hpre
      · rintro ⟨pre, k, txt, post, hrows, hpre, hbad⟩
        cases pre with
        | nil =>
          obtain ⟨⟨-, rfl⟩, -⟩ := List.cons.inj hrows
          exact absurd (hl.symm.trans hbad) (by simp)
        | cons p pre =>
          obtain ⟨-, rfl⟩ := List.cons.inj hrows
          exact ⟨pre, k, txt, post, rfl, fun r hr => hpre r (List.mem_cons_of_mem _ hr), hbad⟩

end KvStore

/-! ### The calls a store makes on its backend -/

/-- A call `KeyValueStore` makes on its persistence backend. -/
inductive BackendCall where
  | save (key : String) (value : Json)
  | delete (key : String)
  | clear

namespace BackendCall

/-- The call on the value-level table of `Core.Store`. -/
def apply (a : PyDict String Json) : BackendCall → PyDict String Json
  | .save key value => SQLitePersistence.save a key value
  | .delete key => SQLitePersistence.delete a key
  | .clear => SQLitePersistence.clear a

/-- The call on the rows, with `lw` levels of recursion left at `json.dumps`. -/
def applyRows (lw : Nat) (t : PyDict String (List Char)) :
    BackendCall → Except DumpsError (PyDict String (List Char))
  | .save key value => KvStore.save lw t key value
  | .delete key => .ok (KvStore.delete t key)
  | .clear => .ok (KvStore.clear t)

/-- The value a `save` hands to `json.dumps` is one a Python program holds and `json.dumps`
writes with `lw` levels of recursion left. -/
def valid (lw : Nat) : BackendCall → Bool
  | .save _ value => value.valid && value.fits lw
  | _ => true

end BackendCall

section

variable {lw lr : Nat} {t : PyDict String (List Char)} {a : PyDict String Json}

theorem KvStore.Denotes.apply (hl : lw ≤ lr) (h : Denotes lr t a) {c : BackendCall}
    (hc : c.valid lw = true) : ∃ t', c.applyRows lw t = .ok t' ∧ Denotes lr t' (c.apply a) := by
  cases c with
  | save key value =>
    obtain ⟨hv, hf⟩ := Bool.and_eq_true_iff.1 hc
    exact ⟨_, KvStore.save_of_fits hf t key, h.save hl key hv hf⟩
  | delete key => exact ⟨_, rfl, h.delete key⟩
  | clear => exact ⟨_, rfl, Denotes.clear t a⟩

/-- A run of backend calls, each stopping the run when it raises. -/
theorem KvStore.Denotes.foldlM (hl : lw ≤ lr) (h : Denotes lr t a) {calls : List BackendCall}
    (hv : ∀ c ∈ calls, c.valid lw = true) :
    ∃ t', calls.foldlM (BackendCall.applyRows lw) t = .ok t' ∧
      Denotes lr t' (calls.foldl BackendCall.apply a) := by
  induction calls generalizing t a with
  | nil => exact ⟨t, rfl, h⟩
  | cons c calls ih =>
    obtain ⟨t₁, h₁, hd₁⟩ := h.apply hl (hv c (List.mem_cons_self _ _))
    obtain ⟨t₂, h₂, hd₂⟩ := ih hd₁ fun c' hc' => hv c' (List.mem_cons_of_mem _ hc')
    exact ⟨t₂, by simp only [List.foldlM_cons, h₁]; exact h₂, hd₂⟩

end

/-- Over any table `load_all` accepts, backend calls whose values Python holds and `json.dumps`
writes all return, and leave a table that `load_all`, with at least the levels the writes had,
reads as the value-level calls' result. -/
theorem loadAll_after_backend_calls {lw lr : Nat} (hl : lw ≤ lr) {t : PyDict String (List Char)}
    {a : PyDict String Json} (h : KvStore.loadAll lr t = .ok a) (calls : List BackendCall)
    (hv : ∀ c ∈ calls, c.valid lw = true) :
    ∃ t', calls.foldlM (BackendCall.applyRows lw) t = .ok t' ∧
      KvStore.loadAll lr t' = .ok (calls.foldl BackendCall.apply a) := by
  obtain ⟨t', ht, hd⟩ := (KvStore.loadAll_eq_ok_iff.1 h).foldlM hl hv
  exact ⟨t', ht, KvStore.loadAll_eq_ok_iff.2 hd⟩

theorem loadAll_after_save_delete_resave :
    ∃ t', [BackendCall.save "a" (.bool true), .delete "b", .save "b" .null, .save "a" (.string "x")].foldlM
        (BackendCall.applyRows 0) PyDict.empty = .ok t' ∧
      KvStore.loadAll 0 t' = .ok ⟨[("b", .null), ("a", .string "x")], by decide⟩ :=
  loadAll_after_backend_calls (Nat.le_refl 0) (t := PyDict.empty) (a := PyDict.empty) rfl _ (by decide)

/-- `load`, `exists` and `get_size`, each one query on the table, answer as the dict `load_all`
returns. -/
theorem single_row_reads_agree_with_loadAll {lr : Nat} {t : PyDict String (List Char)}
    {a : PyDict String Json} (h : KvStore.loadAll lr t = .ok a) (key : String) :
    KvStore.load lr t key = .ok ((a.get? key).getD .null) ∧ KvStore.exists t key = a.contains key ∧
      KvStore.getSize t = a.size :=
  have hd := KvStore.loadAll_eq_ok_iff.1 h
  ⟨hd.load key, hd.exists key, hd.getSize⟩

theorem single_row_reads_of_two_rows :
    KvStore.load 1 ⟨[("a", "[1, 2]".toList), ("b", "null".toList)], by decide⟩ "c" = .ok .null ∧
      KvStore.exists ⟨[("a", "[1, 2]".toList), ("b", "null".toList)], by decide⟩ "c" = false ∧
      KvStore.getSize ⟨[("a", "[1, 2]".toList), ("b", "null".toList)], by decide⟩ = 2 :=
  @single_row_reads_agree_with_loadAll 1 ⟨[("a", "[1, 2]".toList), ("b", "null".toList)], by decide⟩
    ⟨[("a", .array [.number ⟨"1".toList, by decide, by decide⟩,
    .number ⟨"2".toList, by decide, by decide⟩]), ("b", .null)], by decide⟩ rfl "c"

/-- `load_all` raises exactly when some row is not JSON `loads` reads, and then with the error of
the first such row in scan order. -/
theorem loadAll_raises_first_bad_row {lr : Nat} {t : PyDict String (List Char)} {e : LoadsError} :
    KvStore.loadAll lr t = .error e ↔
      ∃ pre key text post, t.entries = pre ++ (key, text) :: post ∧
        (∀ r ∈ pre, ∃ v, loads lr r.2 = .ok v) ∧ loads lr text = .error e :=
  KvStore.loadRows_eq_error_iff

/-! ### The rows a store's session leaves -/

/-- What `KeyValueStore` asks of its backend on a call from state `s`: `set` saves, `delete` of
a present key deletes, `clear` clears, and `update` saves every entry in order. -/
def StoreOp.backendCalls (s : KeyValueStore Json) : StoreOp Json → List BackendCall
  | .set key value => [.save key value]
  | .delete key => if s.data.contains key then [.delete key] else []
  | .clear => [.clear]
  | .update d => d.entries.map fun e => .save e.1 e.2
  | .checkpoint => []

/-- The values a call hands the store are ones a Python program holds and `json.dumps` writes
with `lw` levels of recursion left. -/
def StoreOp.valid (lw : Nat) : StoreOp Json → Bool
  | .set _ value => value.valid && value.fits lw
  | .update d => d.values.all fun v => v.valid && v.fits lw
  | _ => true

theorem persistence_foldl_set {V : Type} (es : List (String × V)) (s : KeyValueStore V) :
    (es.foldl (fun acc e => acc.set e.1 e.2) s).persistence =
      s.persistence.map fun t => es.foldl (fun t e => SQLitePersistence.save t e.1 e.2) t := by
  induction es generalizing s with
  | nil => simp
  | cons e es ih => simp only [List.foldl_cons, ih, KeyValueStore.set_persistence, Option.map_map]; rfl

/-- A call changes the table by its backend calls and nothing else. -/
theorem StoreOp.persistence_run (s : KeyValueStore Json) (op : StoreOp Json) :
    (op.run s).persistence = s.persistence.map fun a => (op.backendCalls s).foldl BackendCall.apply a := by
  cases op with
  | set key value => rfl
  | delete key =>
    by_cases hk : s.data.contains key <;>
      simp [StoreOp.run, KeyValueStore.delete, backendCalls, hk, BackendCall.apply]
  | clear => rfl
  | update d =>
    simp [StoreOp.run, KeyValueStore.update, persistence_foldl_set, backendCalls, List.foldl_map,
      BackendCall.apply]
  | checkpoint => simp [StoreOp.run, backendCalls]

theorem StoreOp.valid_backendCalls {lw : Nat} {op : StoreOp Json} (hv : op.valid lw = true)
    (s : KeyValueStore Json) : ∀ c ∈ op.backendCalls s, c.valid lw = true := by
  cases op with
  | set key value => simpa [backendCalls, BackendCall.valid, StoreOp.valid] using hv
  | delete key => by_cases hk : s.data.contains key <;> simp [backendCalls, hk, BackendCall.valid]
  | update d =>
    simp only [StoreOp.valid, List.all_eq_true, PyDict.values, List.mem_map] at hv
    simp only [backendCalls, List.mem_map, forall_exists_index, and_imp]
    rintro _ e he rfl
    exact hv _ ⟨e, he, rfl⟩
  | clear | checkpoint => simp [backendCalls, BackendCall.valid]

/-- The rows of `kv_store` after the calls `ops` on a store in state `s` whose table held the
rows `t`, with `lw` levels of recursion left at every `json.dumps`; the value-level store does
not raise, so the session is followed up to the first call whose `json.dumps` raises. -/
def sessionRows (lw : Nat) (s : KeyValueStore Json) (t : PyDict String (List Char)) :
    List (StoreOp Json) → Except DumpsError (PyDict String (List Char))
  | [] => .ok t
  | op :: ops =>
    ((op.backendCalls s).foldlM (BackendCall.applyRows lw) t).bind fun t => sessionRows lw (op.run s) t ops

/-- Through any session whose values Python holds and `json.dumps` writes, every call returns and
the rows denote the store's table. -/
theorem sessionRows_denotes {lw lr : Nat} (hl : lw ≤ lr) {s : KeyValueStore Json}
    {t : PyDict String (List Char)} {a : PyDict String Json} (hs : s.persistence = some a)
    (h : KvStore.Denotes lr t a) {ops : List (StoreOp Json)} (hv : ∀ op ∈ ops, op.valid lw = true) :
    ∃ t' a', sessionRows lw s t ops = .ok t' ∧ (runOps s ops).persistence = some a' ∧
      KvStore.Denotes lr t' a' := by
  induction ops generalizing s t a with
  | nil => exact ⟨t, a, rfl, hs, h⟩
  | cons op ops ih =>
    obtain ⟨t₁, h₁, hd₁⟩ := h.foldlM hl (op.valid_backendCalls (hv op (List.mem_cons_self _ _)) s)
    obtain ⟨t', a', h', hp, hd⟩ := ih (by rw [StoreOp.persistence_run, hs]; rfl) hd₁
      fun op' h' => hv op' (List.mem_cons_of_mem _ h')
    exact ⟨t', a', by rw [sessionRows, h₁]; exact h', hp, hd⟩

/-! ### Reopening over the rows -/

/-- `KeyValueStore(persistence=SQLitePersistence(db), enable_wal=False)` over the rows of `db`:
`_load_from_persistence` reads them with `load_all`, with `lr` levels of recursion left, which
may raise. -/
def openRows (lr : Nat) (t : PyDict String (List Char)) : Except LoadsError (KeyValueStore Json) :=
  (KvStore.loadAll lr t).map fun a => KeyValueStore.init (some a) none

theorem openRows_eq_ok {lr : Nat} {t : PyDict String (List Char)} {a : PyDict String Json}
    (h : KvStore.loadAll lr t = .ok a) :
    openRows lr t = .ok ⟨a, none, some a⟩ := by
  simp [openRows, h, Except.map, KeyValueStore.init, KeyValueStore.loadFromPersistence,
    SQLitePersistence.loadAll, PyDict.empty_update]

theorem mirrored_runOps {V : Type} {s : KeyValueStore V} (h : Mirrored s) (ops : List (StoreOp V)) :
    Mirrored (runOps s ops) := by
  induction ops generalizing s with
  | nil => exact h
  | cons op ops ih => exact ih (mirrored_run h op)

/-- A store with SQLite and no WAL, opened over rows `load_all` accepts and run through any
calls whose values Python holds and `json.dumps` writes, leaves rows over which a new store,
reading with at least the levels the writes had, opens with the same table and the same answer
to every `get`. -/
theorem reopen_without_wal {lw lr : Nat} (hl : lw ≤ lr) {t : PyDict String (List Char)}
    {s : KeyValueStore Json} (hs : openRows lr t = .ok s) (ops : List (StoreOp Json))
    (hv : ∀ op ∈ ops, op.valid lw = true) :
    ∃ t' s', sessionRows lw s t ops = .ok t' ∧ openRows lr t' = .ok s' ∧
      s'.persistence = (runOps s ops).persistence ∧ ∀ key, s'.get key = (runOps s ops).get key := by
  obtain ⟨a, ha, rfl⟩ : ∃ a, KvStore.loadAll lr t = .ok a ∧ s = ⟨a, none, some a⟩ := by
    cases h : KvStore.loadAll lr t with
    | error e => simp [openRows, h, Except.map] at hs
    | ok a => exact ⟨a, rfl, Except.ok.inj ((openRows_eq_ok h).symm.trans hs) |>.symm⟩
  obtain ⟨t', a', ht, hp, hd⟩ :=
    sessionRows_denotes (s := ⟨a, none, some a⟩) hl rfl (KvStore.loadAll_eq_ok_iff.1 ha) hv
  obtain ⟨a'', hp'', he⟩ := mirrored_runOps (s := ⟨a, none, some a⟩) ⟨a, rfl, rfl⟩ ops
  obtain rfl : a' = a'' := Option.some.inj (hp.symm.trans hp'')
  exact ⟨t', ⟨a', none, some a'⟩, ht, openRows_eq_ok (KvStore.loadAll_eq_ok_iff.2 hd), hp.symm,
    fun key => congrFun he key⟩

theorem reopen_without_wal_after_update :
    ∃ t' s', sessionRows 1 ⟨PyDict.empty, none, some PyDict.empty⟩ PyDict.empty
        [.set "a" (.array []), .update ⟨[("b", .null), ("a", .bool false)], by decide⟩, .delete "b"] = .ok t' ∧
      openRows 1 t' = .ok s' ∧
      s'.persistence = (runOps ⟨PyDict.empty, none, some PyDict.empty⟩
        [.set "a" (.array []), .update ⟨[("b", .null), ("a", .bool false)], by decide⟩, .delete "b"]).persistence ∧
      ∀ key, s'.get key = (runOps ⟨PyDict.empty, none, some PyDict.empty⟩
        [.set "a" (.array []), .update ⟨[("b", .null), ("a", .bool false)], by decide⟩, .delete "b"]).get key :=
  reopen_without_wal (Nat.le_refl 1) (t := PyDict.empty) rfl _ (by decide)

/-! ### The node's files -/

/-- A WAL record's value is one a Python program holds and `json.dumps` writes with `lw` levels
of recursion left. -/
def WALEntry.valid (lw : Nat) : WALEntry Json → Bool
  | .set _ value => value.valid && value.fits lw
  | _ => true

theorem valid_of_get?_replayInto {lw : Nat} {data : PyDict String Json} {es : List (WALEntry Json)}
    (hd : ∀ k v, data.get? k = some v → (v.valid && v.fits lw) = true)
    (he : ∀ e ∈ es, e.valid lw = true) :
    ∀ k v, (replayInto data es).get? k = some v → (v.valid && v.fits lw) = true := by
  induction es generalizing data with
  | nil => exact hd
  | cons e es ih =>
    refine ih ?_ fun e' h' => he e' (List.mem_cons_of_mem _ h')
    have hvalid := he e (List.mem_cons_self _ _)
    intro k v hk
    cases e with
    | set key value =>
      simp only [applyEntry, PyDict.get?_insert] at hk
      split at hk
      · exact Option.some.inj hk ▸ hvalid
      · exact hd k v hk
    | delete key =>
      simp only [applyEntry, PyDict.get?_erase] at hk
      split at hk
      · cases hk
      · exact hd k v hk
    | clear => cases hk

/-- What `_recover_from_wal` asks of the backend: a `save` of every recovered entry. -/
def recoveryCalls (walFile : List (WALEntry Json)) : List BackendCall :=
  (replayInto PyDict.empty walFile).entries.map fun e => .save e.1 e.2

theorem valid_recoveryCalls {lw : Nat} {walFile : List (WALEntry Json)}
    (hwal : ∀ e ∈ walFile, e.valid lw = true) : ∀ c ∈ recoveryCalls walFile, c.valid lw = true := by
  simp only [recoveryCalls, List.mem_map, forall_exists_index, and_imp]
  rintro _ e he rfl
  exact valid_of_get?_replayInto (fun _ _ h => by cases h) hwal e.1 e.2 (PyDict.mem_entries_iff.1 he)

theorem openDisk_persistence_eq (d : Disk Json) :
    (KeyValueStore.openDisk d).persistence = some ((recoveryCalls d.walFile).foldl BackendCall.apply d.database) := by
  rw [openDisk_persistence, recoveryCalls, List.foldl_map]; rfl

/-- The rows after `KeyValueStore.__init__` has recovered from the WAL over the rows `t`, with
`lw` levels of recursion left at `json.dumps`; a `save` that raises makes `__init__` raise. -/
def recoveredRows (lw : Nat) (walFile : List (WALEntry Json)) (t : PyDict String (List Char)) :
    Except DumpsError (PyDict String (List Char)) :=
  (recoveryCalls walFile).foldlM (BackendCall.applyRows lw) t

end MiniKV
