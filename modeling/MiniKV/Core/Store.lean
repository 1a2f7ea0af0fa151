/-
Module: MiniKV.Core.Store
Purpose: `KeyValueStore` of `core/store.py` as a state record (`_data`, `_wal`,
  `_persistence`) with one function per method, run sequentially. The persistence backend is
  its `kv_store` table, kept as a dict in row order (`INSERT OR REPLACE` moves a row to the
  end). Construction follows `__init__`: WAL-first recovery when both a WAL and a backend are
  present, a load from the backend when only the backend is. `Disk` is what survives the
  process (the WAL file and the table); `close()` and a crash leave the same `Disk`, since
  `close` only flushes and closes handles.
Trusted boundary: none
Main exports: SQLitePersistence, KeyValueStore, KeyValueStore.init, KeyValueStore.recoverFromWal,
  Disk, KeyValueStore.openDisk, StoreOp, runOps, session
-/
import MiniKV.Core.Wal

namespace MiniKV

/-! ### The persistence table -/

namespace SQLitePersistence

variable {V : Type}

/-- `save(key, value)`: `INSERT OR REPLACE`, which deletes the old row and appends a new one. -/
def save (t : PyDict String V) (key : String) (value : V) : PyDict String V :=
  (t.erase key).insert key value

/-- `delete(key)`. -/
def delete (t : PyDict String V) (key : String) : PyDict String V := t.erase key

/-- `clear()`. -/
def clear (_ : PyDict String V) : PyDict String V := PyDict.empty

/-- `load_all()`: the table as a dict, in row order. -/
def loadAll (t : PyDict String V) : PyDict String V := t

@[simp] theorem clear_eq (t : PyDict String V) : clear t = PyDict.empty := rfl

@[simp] theorem get?_save (t : PyDict String V) (k k' : String) (v : V) :
    (save t k v).get? k' = if k = k' then some v else t.get? k' := by
  by_cases h : k = k' <;> simp [save, h]

end SQLitePersistence

/-! ### The store -/

/-- The fields of a `KeyValueStore` that its methods read and write. -/
structure KeyValueStore (V : Type) where
  data : PyDict String V
  wal : Option (WAL V)
  persistence : Option (PyDict String V)

namespace KeyValueStore

variable {V : Type}

/-- `set(key, value)`: log to the WAL, write memory, persist. -/
def set (s : KeyValueStore V) (key : String) (value : V) : KeyValueStore V :=
  { wal := s.wal.map (·.logSet key value)
    data := s.data.insert key value
    persistence := s.persistence.map (SQLitePersistence.save · key value) }

/-- `get(key)`. -/
def get (s : KeyValueStore V) (key : String) : Option V := s.data.get? key

/-- `delete(key)`: `False` for an absent key, else log, remove from memory and the backend. -/
def delete (s : KeyValueStore V) (key : String) : Bool × KeyValueStore V :=
  if s.data.contains key then
    (true,
      { wal := s.wal.map (·.logDelete key)
        data := s.data.erase key
        persistence := s.persistence.map (SQLitePersistence.delete · key) })
  else (false, s)

/-- `exists(key)`. -/
def «exists» (s : KeyValueStore V) (key : String) : Bool := s.data.contains key

/-- `clear()`. -/
def clear (s : KeyValueStore V) : KeyValueStore V :=
  { wal := s.wal.map WAL.logClear
    data := PyDict.empty
    persistence := s.persistence.map SQLitePersistence.clear }

/-- `size()`. -/
def size (s : KeyValueStore V) : Nat := s.data.size

/-- `update(data)`: disable the WAL, `set` every entry, re-enable the WAL and checkpoint it. -/
def update (s : KeyValueStore V) (d : PyDict String V) : KeyValueStore V :=
  let s' := d.entries.foldl (fun acc e => acc.set e.1 e.2) { s with wal := s.wal.map WAL.disable }
  { s' with wal := s'.wal.map WAL.enable }

/-- `_recover_from_wal`: replay the WAL into memory with the backend detached and the WAL
disabled, re-enable both, save every recovered entry, then truncate the WAL. -/
def recoverFromWal (s : KeyValueStore V) : KeyValueStore V :=
  match s.wal with
  | none => s
  | some w =>
    let data := replayInto s.data w.replay
    { data
      wal := some w.enable.truncate
      persistence := s.persistence.map fun t =>
        data.entries.foldl (fun t e => SQLitePersistence.save t e.1 e.2) t }

/-- `_load_from_persistence`: `self._data.update(load_all())`. -/
def loadFromPersistence (s : KeyValueStore V) : KeyValueStore V :=
  match s.persistence with
  | none => s
  | some t => { s with data := s.data.update (SQLitePersistence.loadAll t) }

/-- `__init__(persistence, enable_wal, wal_file)`, given the records already in `wal_file`
when `enable_wal` holds. -/
def init (persistence : Option (PyDict String V)) (walFile : Option (List (WALEntry V))) :
    KeyValueStore V :=
  let s : KeyValueStore V :=
    { data := PyDict.empty, wal := walFile.map (⟨true, ·⟩), persistence }
  if s.wal.isSome && s.persistence.isSome then s.recoverFromWal
  else if s.persistence.isSome then s.loadFromPersistence
  else s

/-- `checkpoint()`: the WAL's entry count and the table's row count; no state changes. -/
def checkpoint (s : KeyValueStore V) : Option Nat × Option Nat :=
  (s.wal.map fun w => w.checkpoint.1, s.persistence.map PyDict.size)

@[simp] theorem get?_delete_data (s : KeyValueStore V) (key k : String) :
    (s.delete key).2.data.get? k = if key = k then none else s.data.get? k := by
  unfold delete
  split
  · simp
  · rename_i h
    split
    · subst_vars; simpa [PyDict.contains_iff] using h
    · rfl

@[simp] theorem set_data (s : KeyValueStore V) (k : String) (v : V) :
    (s.set k v).data = s.data.insert k v := rfl
@[simp] theorem set_wal (s : KeyValueStore V) (k : String) (v : V) :
    (s.set k v).wal = s.wal.map (·.logSet k v) := rfl
@[simp] theorem set_persistence (s : KeyValueStore V) (k : String) (v : V) :
    (s.set k v).persistence = s.persistence.map (SQLitePersistence.save · k v) := rfl
@[simp] theorem clear_data (s : KeyValueStore V) : s.clear.data = PyDict.empty := rfl
@[simp] theorem clear_wal (s : KeyValueStore V) : s.clear.wal = s.wal.map WAL.logClear := rfl
@[simp] theorem clear_persistence (s : KeyValueStore V) :
    s.clear.persistence = s.persistence.map SQLitePersistence.clear := rfl

end KeyValueStore

/-! ### Sessions over the files -/

/-- What outlives a node process: the records of the WAL file and the `kv_store` table. -/
structure Disk (V : Type) where
  walFile : List (WALEntry V)
  database : PyDict String V

namespace KeyValueStore

variable {V : Type}

/-- The files a store with both a WAL and a backend leaves behind, after `close()` or a crash. -/
def disk (s : KeyValueStore V) : Disk V :=
  ⟨(s.wal.map WAL.entries).getD [], s.persistence.getD PyDict.empty⟩

/-- The store `Router` builds over the files: `KeyValueStore(SQLitePersistence(db_path),
enable_wal=True, wal_file=wal_path)`. -/
def openDisk (d : Disk V) : KeyValueStore V := init (some d.database) (some d.walFile)

end KeyValueStore

/-- The mutating calls a session makes on its store. -/
inductive StoreOp (V : Type) where
  | set (key : String) (value : V)
  | delete (key : String)
  | clear
  | update (data : PyDict String V)
  | checkpoint

/-- One call, returning normally. -/
def StoreOp.run {V : Type} (s : KeyValueStore V) : StoreOp V → KeyValueStore V
  | .set k v => s.set k v
  | .delete k => (s.delete k).2
  | .clear => s.clear
  | .update d => s.update d
  | .checkpoint => s

/-- A sequence of calls, in order. -/
def runOps {V : Type} (s : KeyValueStore V) (ops : List (StoreOp V)) : KeyValueStore V :=
  ops.foldl StoreOp.run s

/-- One session: open the store over the files, run the calls, then `close()` or crash. -/
def session {V : Type} (d : Disk V) (ops : List (StoreOp V)) : Disk V :=
  (runOps (KeyValueStore.openDisk d) ops).disk

end MiniKV
