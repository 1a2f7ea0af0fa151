/-
Module: MiniKV.Core.Wal
Purpose: The write-ahead log of `core/wal.py` at the level of its records: the `_enabled` flag
  and the entries of `log_file` in file order. `log_set`, `log_delete` and `log_clear` are one
  guarded append (`WAL.log`) applied to their own record; `replay` returns the file's entries;
  `truncate` removes the file. The text of a line (`to_json`, `from_json`, line splitting) is
  below this layer: a file written by `_write_entry` reads back as these records.
  `replayInto` is the loop of `KeyValueStore._recover_from_wal` that applies records to a map.
Trusted boundary: none
Main exports: WALEntry, WAL, WAL.log, WAL.logSet, WAL.logDelete, WAL.logClear, applyEntry,
  replayInto, replayInto_append
-/
import MiniKV.Core.PyDict

namespace MiniKV

/-- A log record as `KeyValueStore` writes it: `WALOperation` with the fields it fills. -/
inductive WALEntry (V : Type) where
  | set (key : String) (value : V)
  | delete (key : String)
  | clear
deriving DecidableEq, Repr

/-- A `WAL` object: `_enabled` and the records of `log_file`, oldest first. -/
structure WAL (V : Type) where
  enabled : Bool
  entries : List (WALEntry V)

namespace WAL

variable {V : Type}

/-- `enable()`. -/
def enable (w : WAL V) : WAL V := { w with enabled := true }

/-- `disable()`. -/
def disable (w : WAL V) : WAL V := { w with enabled := false }

/-- `_write_entry`: append one line and fsync it. -/
def writeEntry (w : WAL V) (e : WALEntry V) : WAL V := { w with entries := w.entries ++ [e] }

/-- The shared body of the `log_*` methods: a no-op while disabled, else `_write_entry`. -/
def log (w : WAL V) (e : WALEntry V) : WAL V := if w.enabled then w.writeEntry e else w

/-- `log_set(key, value)`. -/
def logSet (w : WAL V) (key : String) (value : V) : WAL V := w.log (.set key value)

/-- `log_delete(key)`. -/
def logDelete (w : WAL V) (key : String) : WAL V := w.log (.delete key)

/-- `log_clear()`. -/
def logClear (w : WAL V) : WAL V := w.log .clear

/-- `replay()`: every entry of the file in order (an absent file has none). -/
def replay (w : WAL V) : List (WALEntry V) := w.entries

/-- `truncate()`: close the handle and remove the file. -/
def truncate (w : WAL V) : WAL V := { w with entries := [] }

/-- `checkpoint()`: flush and fsync, then report `get_entry_count()`. -/
def checkpoint (w : WAL V) : Nat × WAL V := (w.entries.length, w)

@[simp] theorem enable_entries (w : WAL V) : w.enable.entries = w.entries := rfl
@[simp] theorem disable_entries (w : WAL V) : w.disable.entries = w.entries := rfl
@[simp] theorem enable_enabled (w : WAL V) : w.enable.enabled = true := rfl
@[simp] theorem disable_enabled (w : WAL V) : w.disable.enabled = false := rfl
@[simp] theorem truncate_entries (w : WAL V) : w.truncate.entries = [] := rfl
@[simp] theorem truncate_enabled (w : WAL V) : w.truncate.enabled = w.enabled := rfl
@[simp] theorem replay_eq (w : WAL V) : w.replay = w.entries := rfl

@[simp] theorem log_enabled (w : WAL V) (e : WALEntry V) : (w.log e).enabled = w.enabled := by
  unfold log writeEntry; split <;> rfl

@[simp] theorem log_mk_true (es : List (WALEntry V)) (e : WALEntry V) :
    (WAL.mk true es).log e = ⟨true, es ++ [e]⟩ := rfl

/-- What every `log_*` call does to the file. -/
@[simp] theorem log_entries (w : WAL V) (e : WALEntry V) :
    (w.log e).entries = if w.enabled then w.entries ++ [e] else w.entries := by
  unfold log writeEntry; split <;> rfl

end WAL

/-! ### Applying records to a map -/

/-- One iteration of the replay loop in `_recover_from_wal`. -/
def applyEntry {V : Type} (data : PyDict String V) : WALEntry V → PyDict String V
  | .set key value => data.insert key value
  | .delete key => data.erase key
  | .clear => PyDict.empty

/-- The replay loop of `_recover_from_wal`, over the entries in file order. -/
def replayInto {V : Type} (data : PyDict String V) (entries : List (WALEntry V)) :
    PyDict String V :=
  entries.foldl applyEntry data

@[simp] theorem replayInto_nil {V : Type} (data : PyDict String V) : replayInto data [] = data :=
  rfl

theorem replayInto_append {V : Type} (data : PyDict String V) (es es' : List (WALEntry V)) :
    replayInto data (es ++ es') = replayInto (replayInto data es) es' :=
  List.foldl_append _ _ _ _

@[simp] theorem replayInto_snoc {V : Type} (data : PyDict String V) (es : List (WALEntry V))
    (e : WALEntry V) : replayInto data (es ++ [e]) = applyEntry (replayInto data es) e := by
  simp [replayInto_append, replayInto]

end MiniKV
