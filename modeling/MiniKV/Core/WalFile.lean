/-
Module: MiniKV.Core.WalFile
Purpose: The write-ahead log of `core/wal.py` at the level of its file: the text `_write_entry`
  appends (`to_json()`, `json.dumps(asdict(self))`, and a newline), and `replay`, which reads
  the file with universal newlines, strips each line, skips empty lines and the lines
  `json.loads` rejects with `JSONDecodeError`, and builds `WALEntry(**data)` from the others.
  The dataclass checks no field, so a record holds four JSON values, and a line that is JSON but
  not a dict with exactly the four fields raises the call's `TypeError`, which `replay` does not
  catch (`replay_typeError_line`); nor does it catch `json.loads`'s `ValueError` and
  `RecursionError`. `to_json()` raises too, on a record nested deeper than the recursion levels
  left at the call (in `asdict`) or holding an `int` past `maxStrDigits` digits (in
  `json.dumps`): `_write_entry` has then created the file and writes nothing, and the `log_*`
  call raises (`log_set_long_int_logs_nothing`). Every line the code writes reads back: after
  any run of calls on a missing or truncated file, `replay` with at least the levels the calls
  had returns one record per `log_*` call made while enabled whose record `to_json()` wrote
  (`replay_run_logged`), and the file refines the record-level `WAL` of `Core.Wal` on calls whose
  records it writes (`walFile_refines_wal`). Files are read as text already decoded from UTF-8,
  and lines are written with `\n` (POSIX).
Trusted boundary: none
Main exports: WALRecord, WALRecord.toJson, WALRecord.writable, WALRecord.ofKwargs,
  WALRecord.fromJson, pyStrip, readLines, replayLines, WalFile, WalFile.replay,
  WalFile.getEntryCount, logText, replay_logText, replay_typeError_line, WalCall,
  WalCall.logged, replay_run_logged, log_set_long_int_logs_nothing, Refines, walFile_refines_wal
-/
import MiniKV.Json.Decode
import MiniKV.Core.Wal

namespace MiniKV

/-! ### Records -/

/-- A `WALEntry` as `WALEntry(**data)` builds it: the dataclass checks no field's type, so each
of the four holds whatever JSON value the line had. -/
structure WALRecord where
  timestamp : Json
  operation : Json
  key : Json
  value : Json
deriving DecidableEq

namespace WALRecord

/-- The record `log_set`, `log_delete` or `log_clear` builds for an entry, stamped with
`datetime.utcnow().isoformat()`; the operation is the `WALOperation` value. -/
def ofEntry (timestamp : String) : WALEntry Json → WALRecord
  | .set key value => ⟨.string timestamp, .string "SET", .string key, value⟩
  | .delete key => ⟨.string timestamp, .string "DELETE", .string key, .null⟩
  | .clear => ⟨.string timestamp, .string "CLEAR", .null, .null⟩

/-- `asdict(self)`: the fields in declaration order. -/
def asdict (r : WALRecord) : List (String × Json) :=
  [("timestamp", r.timestamp), ("operation", r.operation), ("key", r.key), ("value", r.value)]

/-- The text `to_json` writes: `json.dumps(asdict(self))`, when it returns. -/
def line (r : WALRecord) : List Char := dumps false (.object r.asdict)

/-- `to_json()` with `lvl` levels of recursion left: `asdict` copies the fields recursively first
and raises `RecursionError` on a record nested deeper than that; `json.dumps` then raises at
the first `int` it cannot write. -/
def toJson (lvl : Nat) (r : WALRecord) : Except DumpsError (List Char) :=
  if (Json.object r.asdict).depth ≤ lvl then jsonDumps lvl (.object r.asdict) else .error .recursionError

/-- `to_json()` writes the record with `lvl` levels of recursion left. -/
def writable (lvl : Nat) (r : WALRecord) : Bool := (Json.object r.asdict).fits lvl

/-- Every field is a value a Python program can hold. -/
def valid (r : WALRecord) : Bool :=
  r.timestamp.valid && r.operation.valid && r.key.valid && r.value.valid

theorem toJson_of_writable {lvl : Nat} {r : WALRecord} (h : r.writable lvl = true) :
    r.toJson lvl = .ok r.line :=
  (if_pos (Json.depth_le_of_fits h)).trans (jsonDumps_of_fits h)

theorem toJson_of_not_writable {lvl : Nat} {r : WALRecord} (h : r.writable lvl = false) :
    ∃ e, r.toJson lvl = .error e := by
  unfold toJson jsonDumps
  split
  · cases he : encodeError? lvl (.object r.asdict) with
    | none => simp [writable, Json.fits, he] at h
    | some e => exact ⟨e, rfl⟩
  · exact ⟨_, rfl⟩

end WALRecord

/-- The parameters of the dataclass's `__init__`, in order. -/
def walEntryFields : List String := ["timestamp", "operation", "key", "value"]

/-- The name `type(x).__name__` gives for a JSON value; a number is an `int` when
`_match_number_unicode` read no fraction and no exponent. -/
def Json.typeName : Json → String
  | .null => "NoneType"
  | .bool _ => "bool"
  | .number n => if n.isInt then "int" else "float"
  | .string _ => "str"
  | .array _ => "list"
  | .object _ => "dict"

/-- The `TypeError`s of the call `WALEntry(**data)`. -/
inductive KwargsError where
  /-- `argument after ** must be a mapping, not <type>`. -/
  | notMapping (typeName : String)
  /-- `__init__() got an unexpected keyword argument '<name>'`, for the first such key. -/
  | unexpectedKeyword (name : String)
  /-- `__init__() missing <n> required positional argument(s): <names>`. -/
  | missingArguments (names : List String)
deriving DecidableEq, Repr

/-- `WALEntry(**data)`: a dict, whose keys are bound to the parameters in the dict's order
before the missing ones are reported. -/
def WALRecord.ofKwargs : Json → Except KwargsError WALRecord
  | .object fields =>
    match fields.find? fun f => f.1 ∉ walEntryFields with
    | some (name, _) => .error (.unexpectedKeyword name)
    | none =>
      match lookupEntry "timestamp" fields, lookupEntry "operation" fields,
        lookupEntry "key" fields, lookupEntry "value" fields with
      | some t, some o, some k, some v => .ok ⟨t, o, k, v⟩
      | _, _, _, _ =>
        .error (.missingArguments (walEntryFields.filter fun n => lookupEntry n fields = none))
  | data => .error (.notMapping data.typeName)

/-- What `from_json` raises: `json.loads`'s errors, or the `TypeError` of the call. -/
inductive FromJsonError where
  | loads (e : LoadsError)
  | typeError (e : KwargsError)
deriving DecidableEq, Repr

/-- `from_json`: `WALEntry(**json.loads(json_str))`, with `lvl` levels of recursion left. -/
def WALRecord.fromJson (lvl : Nat) (line : List Char) : Except FromJsonError WALRecord :=
  match loads lvl line with
  | .error e => .error (.loads e)
  | .ok data =>
    match WALRecord.ofKwargs data with
    | .error e => .error (.typeError e)
    | .ok r => .ok r

/-! ### Lines -/

/-- `Py_UNICODE_ISSPACE`: the characters `str.strip()` removes. -/
def isPySpace (c : Char) : Bool :=
  (0x09 ≤ c.toNat && c.toNat ≤ 0x0D) || (0x1C ≤ c.toNat && c.toNat ≤ 0x20) || c.toNat == 0x85 ||
    c.toNat == 0xA0 || c.toNat == 0x1680 || (0x2000 ≤ c.toNat && c.toNat ≤ 0x200A) ||
    c.toNat == 0x2028 || c.toNat == 0x2029 || c.toNat == 0x202F || c.toNat == 0x205F ||
    c.toNat == 0x3000

/-- `str.strip()`. -/
def pyStrip (s : List Char) : List Char :=
  ((s.dropWhile isPySpace).reverse.dropWhile isPySpace).reverse

/-- Universal newlines on reading (`IncrementalNewlineDecoder` with `translate`): `\r\n` and a
lone `\r` become `\n`; `afterCR` is its pending carriage return. -/
def translateNewlines (afterCR : Bool) : List Char → List Char
  | [] => []
  | c :: s =>
    if c = '\r' then '\n' :: translateNewlines true s
    else if c = '\n' ∧ afterCR then translateNewlines false s
    else c :: translateNewlines false s

/-- `for line in f`: the text cut after each `\n`, the last line without one if the text does
not end with a newline; `cur` is the line read so far. -/
def readLines (cur : List Char) : List Char → List (List Char)
  | [] => if cur = [] then [] else [cur]
  | c :: s => if c = '\n' then (cur ++ [c]) :: readLines [] s else readLines (cur ++ [c]) s

/-- What `replay` raises: the exceptions its `except json.JSONDecodeError` lets through. -/
inductive ReplayError where
  | typeError (e : KwargsError)
  | valueError (digits : Nat)
  | recursionError
deriving DecidableEq, Repr

/-- The loop of `replay` over the lines of the file, with `lvl` levels of recursion left at
`json.loads`: strip, skip empty lines and lines it rejects with `JSONDecodeError`, and append
the record of every other line. -/
def replayLines (lvl : Nat) : List (List Char) → Except ReplayError (List WALRecord)
  | [] => .ok []
  | line :: lines =>
    if pyStrip line = [] then replayLines lvl lines
    else
      match WALRecord.fromJson lvl (pyStrip line) with
      | .ok entry => (replayLines lvl lines).map (entry :: ·)
      | .error (.loads (.jsonDecodeError _ _)) => replayLines lvl lines
      | .error (.loads (.valueError d)) => .error (.valueError d)
      | .error (.loads .recursionError) => .error .recursionError
      | .error (.typeError e) => .error (.typeError e)

/-! ### The log file -/

/-- A `WAL` object over its file: `_enabled`, and the text of `log_file`, `none` while the file
does not exist. -/
structure WalFile where
  enabled : Bool
  file : Option (List Char)

namespace WalFile

/-- `enable()`. -/
def enable (w : WalFile) : WalFile := { w with enabled := true }

/-- `disable()`. -/
def disable (w : WalFile) : WalFile := { w with enabled := false }

/-- `_write_entry` with `lvl` levels of recursion left at `to_json()`: `open()` creates the file
for appending, then the line and a newline are written. When `to_json()` raises, the file has
been created, nothing is written, and the exception goes to the caller. -/
def writeEntry (lvl : Nat) (w : WalFile) (entry : WALRecord) : WalFile × Option DumpsError :=
  match entry.toJson lvl with
  | .ok line => ({ w with file := some (w.file.getD [] ++ line ++ ['\n']) }, none)
  | .error e => ({ w with file := some (w.file.getD []) }, some e)

/-- The shared body of the `log_*` methods: a no-op while disabled, else `_write_entry`. -/
def log (lvl : Nat) (w : WalFile) (entry : WALRecord) : WalFile × Option DumpsError :=
  if w.enabled then w.writeEntry lvl entry else (w, none)

/-- `log_set(key, value)`, at the time `timestamp`. -/
def logSet (lvl : Nat) (w : WalFile) (timestamp key : String) (value : Json) :
    WalFile × Option DumpsError :=
  w.log lvl (.ofEntry timestamp (.set key value))

/-- `log_delete(key)`, at the time `timestamp`. -/
def logDelete (lvl : Nat) (w : WalFile) (timestamp key : String) : WalFile × Option DumpsError :=
  w.log lvl (.ofEntry timestamp (.delete key))

/-- `log_clear()`, at the time `timestamp`. -/
def logClear (lvl : Nat) (w : WalFile) (timestamp : String) : WalFile × Option DumpsError :=
  w.log lvl (.ofEntry timestamp .clear)

/-- `replay()`, with `lvl` levels of recursion left at `json.loads`: no records without a file,
else the loop over its lines. -/
def replay (lvl : Nat) (w : WalFile) : Except ReplayError (List WALRecord) :=
  match w.file with
  | none => .ok []
  | some text => replayLines lvl (readLines [] (translateNewlines false text))

/-- `truncate()`: close the handle and remove the file. -/
def truncate (w : WalFile) : WalFile := { w with file := none }

/-- `get_entry_count()`: the number of lines of the file. -/
def getEntryCount (w : WalFile) : Nat :=
  match w.file with
  | none => 0
  | some text => (readLines [] (translateNewlines false text)).length

/-- `checkpoint()`: flush and fsync, then report `get_entry_count()`. -/
def checkpoint (w : WalFile) : Nat := w.getEntryCount

end WalFile

/-! ### Reading back the lines `_write_entry` writes -/

theorem isPySpace_of_printable {c : Char} (hp : Printable c) (hc : c ≠ ' ') : isPySpace c = false := by
  have h32 : c.toNat ≠ 32 := fun h => hc (by rw [← Char.ofNat_toNat c, h])
  have h1 : 32 ≤ c.toNat := hp.1
  have h2 : c.toNat ≤ 126 := hp.2
  simp only [isPySpace, Bool.or_eq_false_iff, Bool.and_eq_false_iff, decide_eq_false_iff_not,
    beq_eq_false_iff_ne, ne_eq]
  omega

/-- `line.strip()` of a line `_write_entry` wrote gives back the JSON text. -/
theorem pyStrip_dumps (v : Json) : pyStrip (dumps false v ++ ['\n']) = dumps false v := by
  have hp := dumps_printable v
  obtain ⟨c, cs, hc, hc'⟩ := dumps_head_ne_space false v
  obtain ⟨ds, d, hd, hd'⟩ := dumps_last v
  have hsc : isPySpace c = false := isPySpace_of_printable (hp c (by rw [hc]; exact List.mem_cons_self _ _)) hc'
  have hsd : isPySpace d = false := isPySpace_of_printable (hp d (by rw [hd]; simp)) hd'
  have h1 : (dumps false v ++ ['\n']).dropWhile isPySpace = dumps false v ++ ['\n'] := by
    rw [hc, List.cons_append, List.dropWhile_cons_of_neg (by simp [hsc])]
  rw [pyStrip, h1, List.reverse_append, List.reverse_singleton, List.singleton_append,
    List.dropWhile_cons_of_pos (by decide), hd, List.reverse_append, List.reverse_singleton,
    List.singleton_append, List.dropWhile_cons_of_neg (by simp [hsd]), List.reverse_cons,
    List.reverse_reverse]

theorem translateNewlines_append {x : List Char} (h : '\r' ∉ x) (s : List Char) :
    translateNewlines false (x ++ s) = x ++ translateNewlines false s := by
  induction x with
  | nil => rfl
  | cons c x ih =>
    rw [List.mem_cons, not_or] at h
    simp [translateNewlines, Ne.symm h.1, ih h.2]

theorem readLines_append {x : List Char} (h : '\n' ∉ x) (cur s : List Char) :
    readLines cur (x ++ '\n' :: s) = (cur ++ x ++ ['\n']) :: readLines [] s := by
  induction x generalizing cur with
  | nil => simp [readLines]
  | cons c x ih =>
    rw [List.mem_cons, not_or] at h
    simp [readLines, Ne.symm h.1, ih h.2]

/-- The text `_write_entry` leaves after writing `rs`, one line each. -/
def logText (rs : List WALRecord) : List Char := rs.flatMap fun r => r.line ++ ['\n']

/-- `dumps` writes no line break: they are not printable. -/
theorem not_mem_dumps {c : Char} (hc : ¬Printable c) (v : Json) : c ∉ dumps false v :=
  fun h => hc (dumps_printable v c h)

theorem translateNewlines_logText (rs : List WALRecord) (s : List Char) :
    translateNewlines false (logText rs ++ s) = logText rs ++ translateNewlines false s := by
  refine translateNewlines_append (fun h => ?_) s
  obtain ⟨r, -, hr⟩ := List.mem_flatMap.1 h
  rcases List.mem_append.1 hr with hr | hr
  · exact not_mem_dumps (by decide) _ hr
  · simp at hr

theorem readLines_logText (rs : List WALRecord) (s : List Char) :
    readLines [] (logText rs ++ s) = rs.map (fun r => r.line ++ ['\n']) ++ readLines [] s := by
  induction rs with
  | nil => rfl
  | cons r rs ih =>
    rw [logText, List.flatMap_cons, List.append_assoc, List.append_assoc, List.singleton_append,
      readLines_append (x := r.line) (not_mem_dumps (by decide) _), ← logText, ih]
    rfl

/-- `from_json` of the line `to_json()` wrote is the record, for a record of values a program
holds, read with the levels it was written with. -/
theorem fromJson_line {lvl : Nat} {r : WALRecord} (hv : r.valid = true) (hw : r.writable lvl = true) :
    WALRecord.fromJson lvl r.line = .ok r := by
  have hobj : (Json.object r.asdict).valid = true := by
    simpa [Json.valid, Json.validFields, WALRecord.asdict, WALRecord.valid, and_assoc] using hv
  rw [WALRecord.fromJson, WALRecord.line, loads_dumps hobj hw]
  rfl

theorem replayLines_logText {lvl : Nat} {rs : List WALRecord}
    (hv : ∀ r ∈ rs, r.valid = true ∧ r.writable lvl = true) (more : List (List Char)) :
    replayLines lvl (rs.map (fun r => r.line ++ ['\n']) ++ more) =
      (replayLines lvl more).map (rs ++ ·) := by
  induction rs with
  | nil =>
    rw [List.map_nil, List.nil_append]
    cases replayLines lvl more <;> rfl
  | cons r rs ih =>
    have hne : r.line ≠ [] := List.ne_nil_of_length_pos (dumps_length_pos _)
    obtain ⟨hrv, hrw⟩ := hv r (List.mem_cons_self _ _)
    rw [List.map_cons, List.cons_append, replayLines, WALRecord.line, pyStrip_dumps, ← WALRecord.line,
      if_neg hne, fromJson_line hrv hrw, ih fun r' h => hv r' (List.mem_cons_of_mem _ h)]
    cases replayLines lvl more <;> rfl

/-- The file `_write_entry` leaves after writing `rs` replays as `rs`. -/
theorem replay_logText (lvl : Nat) (enabled : Bool) {rs : List WALRecord}
    (hv : ∀ r ∈ rs, r.valid = true ∧ r.writable lvl = true) :
    (WalFile.mk enabled (some (logText rs))).replay lvl = .ok rs := by
  rw [← List.append_nil (logText rs)]
  simp only [WalFile.replay, translateNewlines_logText, readLines_logText, replayLines_logText hv]
  exact congrArg Except.ok (List.append_nil rs)

/-- A line holding a JSON value that is not a record stops `replay` with the `TypeError` of
`WALEntry(**data)`, whatever the file holds after it: `replay` catches only
`json.JSONDecodeError`. -/
theorem replay_typeError_line (lvl : Nat) (enabled : Bool) (rs : List WALRecord) (j : Json)
    {e : KwargsError} (hrs : ∀ r ∈ rs, r.valid = true ∧ r.writable lvl = true) (hj : j.valid = true)
    (hjf : j.fits lvl = true) (he : WALRecord.ofKwargs j = .error e) (after : List Char) :
    (WalFile.mk enabled (some (logText rs ++ dumps false j ++ '\n' :: after))).replay lvl =
      .error (.typeError e) := by
  have hne : dumps false j ≠ [] := List.ne_nil_of_length_pos (dumps_length_pos j)
  have hline : replayLines lvl ((dumps false j ++ ['\n']) :: readLines [] (translateNewlines false after)) =
      .error (.typeError e) := by
    simp only [replayLines, pyStrip_dumps, if_neg hne, WALRecord.fromJson, loads_dumps hj hjf, he]
  have hnl : translateNewlines false ('\n' :: after) = '\n' :: translateNewlines false after := rfl
  simp only [WalFile.replay, List.append_assoc, translateNewlines_logText,
    translateNewlines_append (not_mem_dumps (by decide) j), hnl, readLines_logText,
    readLines_append (not_mem_dumps (by decide) j), List.nil_append,
    replayLines_logText hrs, hline]
  rfl

theorem replay_list_line :
    WALRecord.ofKwargs (.array []) = .error (.notMapping "list") ∧
      (WalFile.mk true (some "[]\n".toList)).replay 1 = .error (.typeError (.notMapping "list")) :=
  ⟨rfl, replay_typeError_line 1 true [] (.array []) (fun _ h => nomatch h) rfl rfl rfl []⟩

example : (WalFile.mk true (some "\x7b\x7d\n".toList)).replay 1 =
    .error (.typeError (.missingArguments ["timestamp", "operation", "key", "value"])) := rfl

example : (WalFile.mk true (some "nul\n \r\n".toList)).replay 1 = .ok [] := rfl

example : (WalFile.mk true (some "[[]]\n".toList)).replay 1 = .error .recursionError := rfl

/-! ### Runs of calls -/

/-- A call a program makes on a `WAL`; a `log_*` call carries the time `utcnow()` gives it. -/
inductive WalCall where
  | logSet (timestamp key : String) (value : Json)
  | logDelete (timestamp key : String)
  | logClear (timestamp : String)
  | enable
  | disable

namespace WalCall

/-- The value a call logs is one a Python program can hold. -/
def valid : WalCall → Bool
  | .logSet _ _ value => value.valid
  | _ => true

/-- `to_json()` writes the record the call builds with `lw` levels of recursion left. -/
def writable (lw : Nat) : WalCall → Bool
  | .logSet ts key value => (WALRecord.ofEntry ts (.set key value)).writable lw
  | .logDelete ts key => (WALRecord.ofEntry ts (.delete key)).writable lw
  | .logClear ts => (WALRecord.ofEntry ts .clear).writable lw
  | .enable | .disable => true

/-- The entries a run of calls with `lw` levels of recursion left at `to_json()` should leave in
the log, read off the calls themselves: one per `log_*` call made while the WAL is enabled
whose record `to_json()` writes, with its time, operation, key and value, in call order; a call
whose record it cannot write raises and logs nothing. -/
def logged (lw : Nat) : Bool → List WalCall → List WALRecord
  | _, [] => []
  | _, .enable :: calls => logged lw true calls
  | _, .disable :: calls => logged lw false calls
  | en, .logSet ts key value :: calls =>
    ([⟨.string ts, .string "SET", .string key, value⟩].filter fun r => en && r.writable lw) ++
      logged lw en calls
  | en, .logDelete ts key :: calls =>
    ([⟨.string ts, .string "DELETE", .string key, .null⟩].filter fun r => en && r.writable lw) ++
      logged lw en calls
  | en, .logClear ts :: calls =>
    ([⟨.string ts, .string "CLEAR", .null, .null⟩].filter fun r => en && r.writable lw) ++
      logged lw en calls

end WalCall

namespace WalFile

/-- One call on the file-level `WAL`, with `lw` levels of recursion left at `to_json()`. -/
def call (lw : Nat) (w : WalFile) : WalCall → WalFile × Option DumpsError
  | .logSet ts key value => w.logSet lw ts key value
  | .logDelete ts key => w.logDelete lw ts key
  | .logClear ts => w.logClear lw ts
  | .enable => (w.enable, none)
  | .disable => (w.disable, none)

/-- A run of calls, in order; a call that raises leaves the file as it left it, and its caller
sees the exception. -/
def run (lw : Nat) (w : WalFile) (calls : List WalCall) : WalFile :=
  calls.foldl (fun w c => (w.call lw c).1) w

theorem file_log (lw : Nat) (w : WalFile) (r : WALRecord) :
    (w.log lw r).1.file.getD [] =
      w.file.getD [] ++ logText ([r].filter fun r => w.enabled && r.writable lw) := by
  unfold log writeEntry
  cases hen : w.enabled
  · simp [logText]
  · cases hw : r.writable lw
    · obtain ⟨e, he⟩ := WALRecord.toJson_of_not_writable hw
      simp [he, hw, logText]
    · simp [WALRecord.toJson_of_writable hw, hw, logText]

theorem enabled_log (lw : Nat) (w : WalFile) (r : WALRecord) : (w.log lw r).1.enabled = w.enabled := by
  unfold log writeEntry
  split
  · split <;> rfl
  · rfl

/-- The file after a run holds the lines of the records the calls logged. -/
theorem file_run (lw : Nat) (w : WalFile) (calls : List WalCall) :
    (w.run lw calls).file.getD [] = w.file.getD [] ++ logText (WalCall.logged lw w.enabled calls) := by
  induction calls generalizing w with
  | nil => simp [run, WalCall.logged, logText]
  | cons c calls ih =>
    rw [run, List.foldl_cons, ← run, ih]
    cases c with
    | enable | disable => rfl
    | logSet ts key value | logDelete ts key | logClear ts =>
      simp only [call, logSet, logDelete, logClear, file_log, enabled_log, WalCall.logged,
        logText, List.flatMap_append, List.append_assoc]
      rfl

end WalFile

theorem logText_eq_nil {rs : List WALRecord} (h : logText rs = []) : rs = [] := by
  cases rs with
  | nil => rfl
  | cons r rs => simp [logText] at h

theorem valid_of_mem_logged {lw : Nat} {calls : List WalCall} (hv : ∀ c ∈ calls, c.valid = true) :
    ∀ en, ∀ r ∈ WalCall.logged lw en calls, r.valid = true ∧ r.writable lw = true := by
  induction calls with
  | nil => intro _ r hr; cases hr
  | cons c calls ih =>
    have ih := ih fun c' h => hv c' (List.mem_cons_of_mem _ h)
    have hc := hv c (List.mem_cons_self _ _)
    intro en r hr
    cases c with
    | enable => exact ih true r hr
    | disable => exact ih false r hr
    | logSet ts key value | logDelete ts key | logClear ts =>
      rcases List.mem_append.1 hr with hr | hr
      · obtain ⟨hr, hw⟩ := List.mem_filter.1 hr
        obtain rfl := List.mem_singleton.1 hr
        refine ⟨?_, (Bool.and_eq_true_iff.1 hw).2⟩
        first | rfl | simpa [WALRecord.valid, Json.valid] using hc
      · exact ih en r hr

/-- A file whose text is the lines of valid records replays as those records, and a missing
file as none. -/
theorem replay_of_file {lvl : Nat} {w : WalFile} {rs : List WALRecord} (h : w.file.getD [] = logText rs)
    (hv : ∀ r ∈ rs, r.valid = true ∧ r.writable lvl = true) : w.replay lvl = .ok rs := by
  obtain ⟨en, file⟩ := w
  cases file with
  | none => rw [logText_eq_nil h.symm]; rfl
  | some text =>
    simp only [Option.getD_some] at h
    rw [h]
    exact replay_logText lvl en hv

/-- Logging round trip: after any calls on a missing or truncated file, `replay` with at least
the levels the calls had at `to_json()` returns one record per `log_*` call made while enabled
whose record `to_json()` wrote, in call order, with its time, operation, key and value. -/
theorem replay_run_logged (lw lr : Nat) (hl : lw ≤ lr) (enabled : Bool) (calls : List WalCall)
    (hv : ∀ c ∈ calls, c.valid = true) :
    (WalFile.run lw ⟨enabled, none⟩ calls).replay lr = .ok (WalCall.logged lw enabled calls) :=
  replay_of_file (WalFile.file_run lw _ calls) fun r hr =>
    (valid_of_mem_logged hv enabled r hr).imp_right (Json.fits_mono hl)

theorem replay_run_newline_value :
    (WalFile.run 1 ⟨true, none⟩ [.logSet "t0" "k\n" (.string "a\r\nb "), .logSet "t1" "k" (.array []),
      .disable, .logDelete "t2" "k", .enable, .logClear "t3"]).replay 1 =
      .ok [⟨.string "t0", .string "SET", .string "k\n", .string "a\r\nb "⟩,
        ⟨.string "t3", .string "CLEAR", .null, .null⟩] :=
  replay_run_logged 1 1 le_rfl true _ (by decide)

/-- The text of `10 ** 4300`, an `int` of 4301 digits. -/
def longIntText : NumberText :=
  ⟨'1' :: List.replicate 4300 '0', List.cons_ne_nil _ _, fun c hc => by
    rcases List.mem_cons.1 hc with rfl | hc
    · decide
    · rw [List.eq_of_mem_replicate hc]; decide⟩

theorem longIntText_digits : longIntText.digits = 4301 := by
  rw [NumberText.digits, longIntText]
  dsimp only
  rw [List.filter_cons_of_pos (by decide), List.filter_replicate_of_pos (by decide), List.length_cons,
    List.length_replicate]

theorem longIntText_exceedsLimit : longIntText.exceedsLimit = true := by
  have hint : longIntText.isInt = true := by
    simp only [NumberText.isInt, longIntText, List.all_cons, List.all_replicate]
    rfl
  rw [NumberText.exceedsLimit, hint, longIntText_digits]
  rfl

/-- `log_set` of `10 ** 4300` while enabled raises, `ValueError` in `json.dumps` when a level of
recursion is left (`RecursionError` in `asdict` otherwise), after `open()` has created the file:
the run writes no line, and `replay` returns no record for the call. -/
theorem logSet_longIntText (lw lr : Nat) :
    ((WalFile.mk true none).logSet lw "t0" "k" (.number longIntText)).2 =
      some (if lw = 0 then .recursionError else .valueError 4301) ∧
    (WalFile.run lw ⟨true, none⟩ [.logSet "t0" "k" (.number longIntText)]).replay lr = .ok [] := by
  have hjson : (WALRecord.ofEntry "t0" (.set "k" (.number longIntText))).toJson lw =
      .error (if lw = 0 then .recursionError else .valueError 4301) := by
    cases lw with
    | zero => rfl
    | succ l =>
      have he : encodeError? (l + 1) (.object (WALRecord.ofEntry "t0" (.set "k" (.number longIntText))).asdict) =
          some (.valueError 4301) := by
        simp only [encodeError?, WALRecord.ofEntry, WALRecord.asdict, encodeErrorFields?,
          longIntText_exceedsLimit, longIntText_digits, if_true]
        rfl
      rw [WALRecord.toJson, if_pos (by simp [Json.depth, Json.depthFields, WALRecord.ofEntry, WALRecord.asdict]),
        jsonDumps, he]
      rfl
  have hlog : (WalFile.mk true none).logSet lw "t0" "k" (.number longIntText) =
      (⟨true, some []⟩, some (if lw = 0 then .recursionError else .valueError 4301)) := by
    rw [WalFile.logSet, WalFile.log, if_pos rfl, WalFile.writeEntry, hjson]
    rfl
  exact ⟨by rw [hlog], by rw [WalFile.run, List.foldl_cons, List.foldl_nil, WalFile.call, hlog]; rfl⟩

/-- With a hundred levels of recursion left, `log_set` of `10 ** 4300` raises `ValueError` and
the log replays as empty. -/
theorem log_set_long_int_logs_nothing :
    ((WalFile.mk true none).logSet 100 "t0" "k" (.number longIntText)).2 = some (.valueError 4301) ∧
    (WalFile.run 100 ⟨true, none⟩ [.logSet "t0" "k" (.number longIntText)]).replay 100 = .ok [] :=
  logSet_longIntText 100 100

/-- `get_entry_count()` of a file of written lines counts the records. -/
theorem getEntryCount_of_file {w : WalFile} {rs : List WALRecord} (h : w.file.getD [] = logText rs) :
    w.getEntryCount = rs.length := by
  obtain ⟨en, file⟩ := w
  cases file with
  | none => rw [logText_eq_nil h.symm]; rfl
  | some text =>
    simp only [Option.getD_some] at h
    show (readLines [] (translateNewlines false text)).length = rs.length
    rw [h, ← List.append_nil (logText rs), translateNewlines_logText, readLines_logText]
    simp [translateNewlines, readLines]

/-! ### The file refines the record-level log -/

/-- The same call on the record-level `WAL`, which keeps no times. -/
def WAL.call (a : WAL Json) : WalCall → WAL Json
  | .logSet _ key value => a.logSet key value
  | .logDelete _ key => a.logDelete key
  | .logClear _ => a.logClear
  | .enable => a.enable
  | .disable => a.disable

/-- A run of calls on the record-level `WAL`. -/
def WAL.run (a : WAL Json) (calls : List WalCall) : WAL Json := calls.foldl WAL.call a

/-- A file-level `WAL` over a record-level one: the same flag, and a file holding one line per
record-level entry, written for it at the time in `stamped`, each a record of values a program
holds that `to_json()` wrote with `lw` levels of recursion left. -/
structure Refines (lw : Nat) (w : WalFile) (a : WAL Json) (stamped : List (String × WALEntry Json)) :
    Prop where
  enabled : w.enabled = a.enabled
  entries : stamped.map Prod.snd = a.entries
  text : w.file.getD [] = logText (stamped.map fun p => WALRecord.ofEntry p.1 p.2)
  valid : ∀ p ∈ stamped, (WALRecord.ofEntry p.1 p.2).valid = true ∧
    (WALRecord.ofEntry p.1 p.2).writable lw = true

namespace Refines

variable {lw : Nat} {w : WalFile} {a : WAL Json} {stamped : List (String × WALEntry Json)}

theorem init (lw : Nat) (enabled : Bool) : Refines lw ⟨enabled, none⟩ ⟨enabled, []⟩ [] :=
  ⟨rfl, rfl, rfl, fun _ h => nomatch h⟩

/-- One `log_*` call whose record `to_json()` writes writes its line exactly when the
record-level log appends the entry. -/
theorem log (h : Refines lw w a stamped) (ts : String) (e : WALEntry Json)
    (hv : (WALRecord.ofEntry ts e).valid = true) (hw : (WALRecord.ofEntry ts e).writable lw = true) :
    Refines lw (w.log lw (.ofEntry ts e)).1 (a.log e) (stamped ++ if a.enabled then [(ts, e)] else []) where
  enabled := by rw [WalFile.enabled_log, WAL.log_enabled, h.enabled]
  entries := by rw [WAL.log_entries, List.map_append, h.entries]; cases a.enabled <;> simp
  text := by
    rw [WalFile.file_log, h.text, h.enabled, List.map_append, logText, logText, logText,
      List.flatMap_append]
    cases a.enabled <;> simp [hw]
  valid p hp := by
    rcases List.mem_append.1 hp with hp | hp
    · exact h.valid p hp
    · have : p = (ts, e) := by cases a.enabled <;> simp_all
      exact this ▸ ⟨hv, hw⟩

theorem call (h : Refines lw w a stamped) (c : WalCall) (hc : c.valid = true)
    (hw : c.writable lw = true) : ∃ stamped', Refines lw (w.call lw c).1 (a.call c) stamped' := by
  cases c with
  | logSet ts key value =>
    exact ⟨_, h.log ts (.set key value)
      (by simpa [WALRecord.valid, WALRecord.ofEntry, Json.valid, WalCall.valid] using hc) hw⟩
  | logDelete ts key => exact ⟨_, h.log ts (.delete key) rfl hw⟩
  | logClear ts => exact ⟨_, h.log ts .clear rfl hw⟩
  | enable => exact ⟨stamped, rfl, h.entries, h.text, h.valid⟩
  | disable => exact ⟨stamped, rfl, h.entries, h.text, h.valid⟩

theorem run (h : Refines lw w a stamped) (calls : List WalCall)
    (hv : ∀ c ∈ calls, c.valid = true ∧ c.writable lw = true) :
    ∃ stamped', Refines lw (w.run lw calls) (a.run calls) stamped' := by
  induction calls generalizing w a stamped with
  | nil => exact ⟨stamped, h⟩
  | cons c calls ih =>
    obtain ⟨hc, hw⟩ := hv c (List.mem_cons_self _ _)
    obtain ⟨stamped', h'⟩ := h.call c hc hw
    exact ih h' fun c' hc' => hv c' (List.mem_cons_of_mem _ hc')

/-- `truncate()` removes the file as the record-level log drops its entries. -/
theorem truncate (h : Refines lw w a stamped) : Refines lw w.truncate a.truncate [] :=
  ⟨h.enabled, rfl, rfl, fun _ hp => nomatch hp⟩

/-- `replay()` with at least the levels the records were written with returns the record-level
entries, each with the time it was logged. -/
theorem replay (h : Refines lw w a stamped) {lr : Nat} (hl : lw ≤ lr) :
    w.replay lr = .ok (stamped.map fun p => WALRecord.ofEntry p.1 p.2) :=
  replay_of_file h.text fun r hr => by
    obtain ⟨p, hp, rfl⟩ := List.mem_map.1 hr
    exact (h.valid p hp).imp_right (Json.fits_mono hl)

/-- `checkpoint()` counts one line per record-level entry. -/
theorem checkpoint (h : Refines lw w a stamped) : w.checkpoint = a.checkpoint.1 := by
  rw [WalFile.checkpoint, getEntryCount_of_file h.text, List.length_map, ← List.length_map, h.entries]
  rfl

end Refines

/-- The file-level `WAL` refines the record-level one on calls whose records `to_json()` writes:
after any such calls from a missing file, `replay()` with at least the levels the calls had
returns the record-level log's entries, each with the time it was logged, and `checkpoint()`
reports their number. -/
theorem walFile_refines_wal (lw lr : Nat) (hl : lw ≤ lr) (enabled : Bool) (calls : List WalCall)
    (hv : ∀ c ∈ calls, c.valid = true ∧ c.writable lw = true) :
    ∃ stamped : List (String × WALEntry Json),
      stamped.map Prod.snd = (WAL.run ⟨enabled, []⟩ calls).entries ∧
      (WalFile.run lw ⟨enabled, none⟩ calls).replay lr = .ok (stamped.map fun p => .ofEntry p.1 p.2) ∧
      (WalFile.run lw ⟨enabled, none⟩ calls).checkpoint = (WAL.run ⟨enabled, []⟩ calls).checkpoint.1 := by
  obtain ⟨stamped, h⟩ := (Refines.init lw enabled).run calls hv
  exact ⟨stamped, h.entries, h.replay hl, h.checkpoint⟩

theorem walFile_refines_wal_three_calls :
    ∃ stamped : List (String × WALEntry Json),
      stamped.map Prod.snd = [.set "k" (.array [.null]), .clear] ∧
      (WalFile.run 2 ⟨true, none⟩ [.logSet "t0" "k" (.array [.null]), .disable, .logDelete "t1" "k",
        .enable, .logClear "t2"]).replay 2 = .ok (stamped.map fun p => .ofEntry p.1 p.2) ∧
      (WalFile.run 2 ⟨true, none⟩ [.logSet "t0" "k" (.array [.null]), .disable, .logDelete "t1" "k",
        .enable, .logClear "t2"]).checkpoint = 2 :=
  walFile_refines_wal 2 2 le_rfl true [.logSet "t0" "k" (.array [.null]), .disable, .logDelete "t1" "k",
    .enable, .logClear "t2"] (by decide)

end MiniKV
