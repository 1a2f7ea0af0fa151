/-
Module: MiniKV.Core.Recovery
Purpose: What survives a restart. `openDisk_data` is the key fact: a store built with both a
  WAL and a backend rebuilds `_data` from the WAL alone, starting from `{}`, and never reads
  the table. Within a session the WAL replayed over the session's starting map is the memory
  (`runOps_walWitness`), and every call keeps the table equal to memory (`runOps_mirrored`).
  Recovery itself empties the WAL, so the map a session starts from is lost at the next
  restart unless it was empty: a restart is exact after a session on fresh files
  (`restart_after_fresh_session`), the second restart forgets what the first one recovered
  (`second_restart_loses_recovered_data`), and the table keeps rows the replay never mentions
  (`openDisk_mirrored_iff`, `recovery_keeps_stale_row`).
Trusted boundary: none
Main exports: openDisk_data, WalWitness, runOps_walWitness, Mirrored, runOps_mirrored,
  openDisk_mirrored_iff, restart_after_fresh_session, second_restart_loses_recovered_data,
  recovery_keeps_stale_row
-/
import MiniKV.Core.Store

namespace MiniKV

open KeyValueStore

variable {V : Type}

/-! ### Construction over the files -/

/-- Recovery rebuilds memory from the WAL records alone, starting from `{}`. -/
theorem openDisk_data (d : Disk V) : (openDisk d).data = replayInto PyDict.empty d.walFile := rfl

/-- After construction the WAL is enabled and its file is gone. -/
theorem openDisk_wal (d : Disk V) : (openDisk d).wal = some ⟨true, []⟩ := rfl

/-- The table after construction: every recovered entry saved over the old rows. -/
theorem openDisk_persistence (d : Disk V) :
    (openDisk d).persistence = some ((replayInto PyDict.empty d.walFile).entries.foldl
      (fun t e => SQLitePersistence.save t e.1 e.2) d.database) := rfl

/-! ### The WAL witnesses memory within a session -/

/-- The WAL is on and its records, replayed over `start`, give memory. -/
def WalWitness (start : PyDict String V) (s : KeyValueStore V) : Prop :=
  ∃ entries, s.wal = some ⟨true, entries⟩ ∧ s.data = replayInto start entries

/-- The calls that log what they do: all but `update`. -/
def StoreOp.Logged : StoreOp V → Prop
  | .update _ => False
  | _ => True

theorem walWitness_run {start : PyDict String V} {s : KeyValueStore V} {op : StoreOp V}
    (hop : op.Logged) (h : WalWitness start s) : WalWitness start (op.run s) := by
  obtain ⟨es, hw, hd⟩ := h
  cases op with
  | set k v => exact ⟨es ++ [.set k v], by simp [StoreOp.run, hw, WAL.logSet], by
      simp [StoreOp.run, hd, applyEntry]⟩
  | delete k =>
    show WalWitness start (s.delete k).2
    unfold KeyValueStore.delete
    split
    · exact ⟨es ++ [.delete k], by simp [hw, WAL.logDelete], by simp [hd, applyEntry]⟩
    · exact ⟨es, hw, hd⟩
  | clear => exact ⟨es ++ [.clear], by simp [StoreOp.run, hw, WAL.logClear], by
      simp [StoreOp.run, applyEntry]⟩
  | update _ => exact hop.elim
  | checkpoint => exact ⟨es, hw, hd⟩

/-- Over a whole session without `update`, replaying the WAL over the starting map is memory. -/
theorem runOps_walWitness {start : PyDict String V} {s : KeyValueStore V}
    {ops : List (StoreOp V)} (hops : ∀ op ∈ ops, op.Logged) (h : WalWitness start s) :
    WalWitness start (runOps s ops) := by
  induction ops generalizing s with
  | nil => exact h
  | cons op ops ih =>
    exact ih (fun o ho => hops o (List.mem_cons_of_mem _ ho))
      (walWitness_run (hops op (List.mem_cons_self _ _)) h)

/-- A freshly opened store is witnessed by its empty WAL over the recovered map. -/
theorem walWitness_openDisk (d : Disk V) : WalWitness (openDisk d).data (openDisk d) :=
  ⟨[], rfl, rfl⟩

/-- A restart after a session that began on fresh files (no WAL records, an empty table)
and made no `update` call restores that session's final map exactly. -/
theorem restart_after_fresh_session {ops : List (StoreOp V)} (hops : ∀ op ∈ ops, op.Logged) :
    (openDisk (session ⟨[], PyDict.empty⟩ ops)).data =
      (runOps (openDisk ⟨[], PyDict.empty⟩) ops).data := by
  obtain ⟨es, hw, hd⟩ := runOps_walWitness hops (walWitness_openDisk ⟨[], PyDict.empty⟩)
  rw [hd, session, openDisk_data, disk, hw]
  rfl

/-- A session on fresh files that sets two keys and deletes one of them. -/
theorem restart_after_set_then_delete :
    (∀ op ∈ ([.set "a" 1, .set "b" 2, .delete "a"] : List (StoreOp Nat)), op.Logged) ∧
      (openDisk (session ⟨[], PyDict.empty⟩ [.set "a" 1, .set "b" 2, .delete "a"])).data =
        (runOps (openDisk ⟨[], PyDict.empty⟩) [.set "a" 1, .set "b" 2, .delete "a"]).data :=
  ⟨by simp [StoreOp.Logged], restart_after_fresh_session (by simp [StoreOp.Logged])⟩

/-- Two sessions on fresh files: set `"a"` and close, then open and close. The map the second
session ends with holds `"a"`; the store built at the start of the third has no `"a"`. -/
theorem second_restart_loses_recovered_data (v : V) :
    (runOps (openDisk (session ⟨[], PyDict.empty⟩ [.set "a" v])) []).get "a" = some v ∧
      (openDisk (session (session ⟨[], PyDict.empty⟩ [.set "a" v]) [])).get "a" = none := by
  simp [runOps, session, StoreOp.run, KeyValueStore.get, openDisk_data, disk, replayInto, applyEntry,
    WAL.logSet, openDisk_wal]

/-! ### The table mirrors memory -/

/-- `persistence.load_all() == _data`. -/
def Mirrored (s : KeyValueStore V) : Prop :=
  ∃ t, s.persistence = some t ∧ (SQLitePersistence.loadAll t).get? = s.data.get?

theorem mirrored_set {s : KeyValueStore V} (h : Mirrored s) (k : String) (v : V) :
    Mirrored (s.set k v) := by
  obtain ⟨t, ht, he⟩ := h
  exact ⟨SQLitePersistence.save t k v, by simp [ht],
    funext fun k' => by simp [SQLitePersistence.loadAll, ← he]⟩

theorem mirrored_foldl_set (es : List (String × V)) {s : KeyValueStore V} (h : Mirrored s) :
    Mirrored (es.foldl (fun acc e => acc.set e.1 e.2) s) := by
  induction es generalizing s with
  | nil => exact h
  | cons e es ih => exact ih (mirrored_set h e.1 e.2)

theorem mirrored_run {s : KeyValueStore V} (h : Mirrored s) (op : StoreOp V) :
    Mirrored (op.run s) := by
  cases op with
  | set k v => exact mirrored_set h k v
  | delete k =>
    obtain ⟨t, ht, he⟩ := h
    show Mirrored (s.delete k).2
    unfold KeyValueStore.delete
    split
    · exact ⟨SQLitePersistence.delete t k, by simp [ht], funext fun k' => by
        simp [SQLitePersistence.loadAll, SQLitePersistence.delete, ← he]⟩
    · exact ⟨t, ht, he⟩
  | clear =>
    obtain ⟨t, ht, -⟩ := h
    exact ⟨PyDict.empty, by simp [StoreOp.run, ht], rfl⟩
  | update d =>
    obtain ⟨t, ht, he⟩ := mirrored_foldl_set d.entries
      (show Mirrored { s with wal := s.wal.map WAL.disable } from h)
    exact ⟨t, ht, he⟩
  | checkpoint => exact h

/-- Every state reached by calls that return normally keeps the table equal to memory, once
it is so. -/
theorem runOps_mirrored {s : KeyValueStore V} (h : Mirrored s) (ops : List (StoreOp V)) :
    Mirrored (runOps s ops) := by
  induction ops generalizing s with
  | nil => exact h
  | cons op ops ih => exact ih (mirrored_run h op)

/-- A store opened on fresh files mirrors its table, and keeps doing so through a `set`, an
`update` (which bypasses the WAL but not the table) and a `delete`. -/
theorem fresh_store_mirrored_after_calls :
    Mirrored (openDisk (⟨[], PyDict.empty⟩ : Disk Nat)) ∧
      Mirrored (runOps (openDisk (⟨[], PyDict.empty⟩ : Disk Nat))
        [.set "a" 1, .update ⟨[("b", 2)], by decide⟩, .delete "a"]) :=
  ⟨⟨PyDict.empty, rfl, rfl⟩, runOps_mirrored ⟨PyDict.empty, rfl, rfl⟩ _⟩


/-- Saving the entries of a dict over a table, as recovery does. -/
theorem get?_foldl_save (data t : PyDict String V) (k : String) :
    (data.entries.foldl (fun t e => SQLitePersistence.save t e.1 e.2) t).get? k =
      match data.get? k with
      | some v => some v
      | none => t.get? k := by
  obtain ⟨es, hes⟩ := data
  show _ = match lookupEntry k es with | some v => some v | none => t.get? k
  induction es generalizing t with
  | nil => rfl
  | cons e es ih =>
    obtain ⟨j, w⟩ := e
    rw [List.map_cons, List.nodup_cons] at hes
    rw [List.foldl_cons, ih _ hes.2]
    by_cases hj : j = k
    · subst hj; simp [lookupEntry, lookupEntry_eq_none.2 hes.1]
    · simp [lookupEntry, hj]

/-- Right after construction over any files, the table equals memory exactly when every row
of the old table is a key the WAL replay recovered: recovery saves the recovered entries and
removes nothing. -/
theorem openDisk_mirrored_iff (d : Disk V) :
    Mirrored (openDisk d) ↔
      ∀ k, d.database.get? k ≠ none → (openDisk d).data.get? k ≠ none := by
  refine ⟨fun ⟨t, ht, he⟩ k hk hnone => ?_, fun h => ⟨_, openDisk_persistence d, funext fun k => ?_⟩⟩
  · rw [openDisk_persistence, Option.some.injEq] at ht
    have := congrFun he k
    rw [← ht, SQLitePersistence.loadAll, get?_foldl_save, ← openDisk_data, hnone] at this
    exact hk this
  · rw [SQLitePersistence.loadAll, get?_foldl_save, ← openDisk_data]
    cases hk : (openDisk d).data.get? k with
    | some v => rfl
    | none => simpa [hk] using mt (h k)

/-- Two sessions on fresh files: set `"a"` and close, then open and close. The store built at
the start of the third session has no `"a"` in memory while its table still has the row. -/
theorem recovery_keeps_stale_row (v : V) :
    ¬ Mirrored (openDisk (session (session ⟨[], PyDict.empty⟩ [.set "a" v]) [])) := by
  rw [openDisk_mirrored_iff]
  intro h
  exact h "a" (fun h => by cases h) rfl

end MiniKV
