/-
Module: MiniKV.Json.Encode
Purpose: `json.dumps` with its default `ensure_ascii=True` and separators `(', ', ': ')`, and
  `sort_keys` as a flag: `py_encode_basestring_ascii` for strings, `[...]` and `{...}` joins,
  dict entries sorted by key when asked. The text it writes has a lexical shape, read by a
  small scanner (`scan`) that tracks whether it stands outside a string literal, inside one,
  just after a backslash, or just after a `:` outside literals: every `dumps` output scans
  from outside to outside (`scan_dumps`) and never starts with a space. From this, a `:`
  followed by a whole `dumps` output can only be the `:` in front of it
  (`colon_dumps_injective`): the Merkle leaf text `f"{key}:{json}"` determines its key and
  its JSON, even for keys that contain `:`. Every character `dumps` writes is printable ASCII
  (`dumps_printable`), and no output starts or ends with a space. `dumps` is the text
  `json.dumps` writes when it returns; `jsonDumps` adds what the C encoder raises: `ValueError`
  at the first `int` past `maxStrDigits` digits, and `RecursionError` at the first list or dict
  it enters with no level of recursion left. Whether it raises depends on the levels it is given
  only upwards (`Json.fits_mono`).
Trusted boundary: none
Main exports: hexChars, escapeAscii, encodeBasestringAscii, dumps, ScanState, scan, scan_dumps,
  dumps_head_ne_space, colon_dumps_injective, Printable, dumps_printable, dumps_last, DumpsError,
  encodeError?, jsonDumps, Json.fits, Json.fits_mono, Json.depth_le_of_fits
-/
import MiniKV.Json.Value
import Mathlib.Data.List.Sort
import Mathlib.Data.String.Basic

namespace MiniKV

/-! ### Strings -/

/-- The lowercase hex digits. -/
def hexChars : List Char := "0123456789abcdef".toList

/-- One lowercase hex digit, as `'{0:04x}'.format` writes it. -/
def hexDigit (d : Nat) : Char := hexChars.getD d '0'

theorem hexDigit_mem_hexChars (d : Nat) : hexDigit d ∈ hexChars := by
  unfold hexDigit
  rw [List.getD_eq_getElem?_getD]
  cases h : hexChars[d]? with
  | none => decide
  | some c => exact List.getElem?_mem h

/-- `'\\u{0:04x}'.format(n)`. -/
def uEscape (n : Nat) : List Char :=
  ['\\', 'u', hexDigit (n / 4096 % 16), hexDigit (n / 256 % 16), hexDigit (n / 16 % 16),
    hexDigit (n % 16)]

/-- The `replace` function of `py_encode_basestring_ascii`: `ESCAPE_DCT` for the backslash, the
quote and the control characters, the character itself in `' '..'~'`, and `\uXXXX` (a surrogate
pair past the BMP) for everything else. -/
def escapeAscii (c : Char) : List Char :=
  if c = '\\' then ['\\', '\\']
  else if c = '"' then ['\\', '"']
  else if c = '\x08' then ['\\', 'b']
  else if c = '\x0c' then ['\\', 'f']
  else if c = '\n' then ['\\', 'n']
  else if c = '\r' then ['\\', 'r']
  else if c = '\t' then ['\\', 't']
  else if ' ' ≤ c ∧ c ≤ '~' then [c]
  else if c.toNat < 0x10000 then uEscape c.toNat
  else
    uEscape (0xd800 ||| ((c.toNat - 0x10000) >>> 10 &&& 0x3ff)) ++
      uEscape (0xdc00 ||| ((c.toNat - 0x10000) &&& 0x3ff))

/-- `py_encode_basestring_ascii(s)`: the quoted, escaped string. -/
def encodeBasestringAscii (s : String) : List Char :=
  '"' :: s.toList.flatMap escapeAscii ++ ['"']

/-! ### Values -/

/-- `'[' + ', '.join(items) + ']'`, and the same for `{...}`; `[]` and `{}` when empty. -/
def joinItems (openC closeC : Char) : List (List Char) → List Char
  | [] => [openC, closeC]
  | x :: xs => openC :: x ++ xs.flatMap (fun y => ',' :: ' ' :: y) ++ [closeC]

/-- `sorted(dct.items())` for a dict, whose keys are distinct. -/
def sortFields (fields : List (String × List Char)) : List (String × List Char) :=
  fields.mergeSort fun a b => decide (a.1 ≤ b.1)

mutual

/-- The text `json.dumps(value, sort_keys=sortKeys)` writes, when it returns. -/
def dumps (sortKeys : Bool) : Json → List Char
  | .null => "null".toList
  | .bool b => if b then "true".toList else "false".toList
  | .number n => n.text
  | .string s => encodeBasestringAscii s
  | .array items => joinItems '[' ']' (dumpsList sortKeys items)
  | .object fields =>
    joinItems '{' '}' (((if sortKeys then sortFields else id) (dumpsFields sortKeys fields)).map
      fun f => encodeBasestringAscii f.1 ++ ':' :: ' ' :: f.2)

/-- The encodings of a list's items. -/
def dumpsList (sortKeys : Bool) : List Json → List (List Char)
  | [] => []
  | x :: xs => dumps sortKeys x :: dumpsList sortKeys xs

/-- A dict's keys with the encodings of their values. -/
def dumpsFields (sortKeys : Bool) : List (String × Json) → List (String × List Char)
  | [] => []
  | (k, v) :: fs => (k, dumps sortKeys v) :: dumpsFields sortKeys fs

end

/-! ### The lexical shape of the output -/

/-- Where a left-to-right reader of `dumps` output stands. -/
inductive ScanState where
  | outside
  | inString
  | escaped
  | afterColon
deriving DecidableEq, Repr

/-- One character: a quote opens or closes a literal, a backslash escapes the next character
inside one, and outside literals a backslash never occurs and a `:` is followed by a space. -/
def scanStep : ScanState → Char → Option ScanState
  | .outside, c =>
    if c = '"' then some .inString
    else if c = '\\' then none
    else if c = ':' then some .afterColon
    else some .outside
  | .afterColon, c => if c = ' ' then some .outside else none
  | .inString, c =>
    if c = '"' then some .outside
    else if c = '\\' then some .escaped
    else some .inString
  | .escaped, _ => some .inString

/-- Read a whole text; `none` once the text breaks the shape. -/
def scan (s : ScanState) : List Char → Option ScanState
  | [] => some s
  | c :: cs => (scanStep s c).bind fun s' => scan s' cs

@[simp] theorem scan_nil (s : ScanState) : scan s [] = some s := rfl

theorem scan_cons (s : ScanState) (c : Char) (cs : List Char) :
    scan s (c :: cs) = (scanStep s c).bind fun s' => scan s' cs := rfl

theorem scan_append (s : ScanState) (u w : List Char) :
    scan s (u ++ w) = (scan s u).bind fun s' => scan s' w := by
  induction u generalizing s with
  | nil => rfl
  | cons c u ih =>
    simp only [List.cons_append, scan_cons, ih]
    cases scanStep s c <;> rfl

/-- Text with no quote, backslash or colon leaves a reader outside literals where it was. -/
theorem scan_outside_plain {w : List Char} (h : ∀ c ∈ w, c ≠ '"' ∧ c ≠ '\\' ∧ c ≠ ':') :
    scan .outside w = some .outside := by
  induction w with
  | nil => rfl
  | cons c w ih =>
    obtain ⟨h₁, h₂, h₃⟩ := h c (List.mem_cons_self _ _)
    simp [scan_cons, scanStep, h₁, h₂, h₃, ih fun d hd => h d (List.mem_cons_of_mem _ hd)]

/-- Text with no quote or backslash keeps a reader inside a literal. -/
theorem scan_inString_plain {w : List Char} (h : ∀ c ∈ w, c ≠ '"' ∧ c ≠ '\\') :
    scan .inString w = some .inString := by
  induction w with
  | nil => rfl
  | cons c w ih =>
    obtain ⟨h₁, h₂⟩ := h c (List.mem_cons_self _ _)
    simp [scan_cons, scanStep, h₁, h₂, ih fun d hd => h d (List.mem_cons_of_mem _ hd)]

theorem hexDigit_plain (d : Nat) : hexDigit d ≠ '"' ∧ hexDigit d ≠ '\\' := by
  have : ∀ c ∈ hexChars, c ≠ '"' ∧ c ≠ '\\' := by decide
  exact this _ (hexDigit_mem_hexChars d)

theorem scan_uEscape (n : Nat) : scan .inString (uEscape n) = some .inString := by
  have h := @scan_inString_plain [hexDigit (n / 4096 % 16), hexDigit (n / 256 % 16),
    hexDigit (n / 16 % 16), hexDigit (n % 16)] (by simpa using
      ⟨hexDigit_plain _, hexDigit_plain _, hexDigit_plain _, hexDigit_plain _⟩)
  simpa [uEscape, scan_cons, scanStep] using h

/-- One `ESCAPE_DCT` entry of `escapeAscii`'s chain: a backslash pair, or what follows. -/
theorem scan_ite_escape {p : Prop} [Decidable p] {x : Char} {rest : List Char}
    (h : ¬p → scan .inString rest = some .inString) :
    scan .inString (if p then ['\\', x] else rest) = some .inString := by
  by_cases hp : p
  · rw [if_pos hp]; rfl
  · rw [if_neg hp]; exact h hp

/-- Every escape `py_encode_basestring_ascii` writes keeps a reader inside the literal. -/
theorem scan_escapeAscii (c : Char) : scan .inString (escapeAscii c) = some .inString := by
  unfold escapeAscii
  refine scan_ite_escape fun h₁ => scan_ite_escape fun h₂ => scan_ite_escape fun _ =>
    scan_ite_escape fun _ => scan_ite_escape fun _ => scan_ite_escape fun _ =>
    scan_ite_escape fun _ => ?_
  by_cases hp : ' ' ≤ c ∧ c ≤ '~'
  · rw [if_pos hp]; simp [scan_cons, scanStep, h₁, h₂]
  rw [if_neg hp]
  by_cases hb : c.toNat < 0x10000
  · rw [if_pos hb]; exact scan_uEscape _
  · rw [if_neg hb, scan_append, scan_uEscape, Option.some_bind, scan_uEscape]

theorem scan_encodeBasestringAscii (s : String) :
    scan .outside (encodeBasestringAscii s) = some .outside := by
  have hbody : ∀ cs : List Char, scan .inString (cs.flatMap escapeAscii) = some .inString := by
    intro cs
    induction cs with
    | nil => rfl
    | cons c cs ih => rw [List.flatMap_cons, scan_append, scan_escapeAscii, Option.some_bind, ih]
  simp [encodeBasestringAscii, scan_cons, scanStep, scan_append, hbody]

theorem scan_flatMap {α : Type} (f : α → List Char) {ys : List α}
    (h : ∀ y ∈ ys, scan .outside (f y) = some .outside) :
    scan .outside (ys.flatMap f) = some .outside := by
  induction ys with
  | nil => rfl
  | cons y ys ih =>
    rw [List.flatMap_cons, scan_append, h y (List.mem_cons_self _ _), Option.some_bind,
      ih fun z hz => h z (List.mem_cons_of_mem _ hz)]

theorem scan_joinItems (o c : Char) (ho : scanStep .outside o = some .outside)
    (hc : scanStep .outside c = some .outside) {xs : List (List Char)}
    (h : ∀ x ∈ xs, scan .outside x = some .outside) :
    scan .outside (joinItems o c xs) = some .outside := by
  have hsep : ∀ y ∈ xs, scan .outside (',' :: ' ' :: y) = some .outside := fun y hy => by
    simpa [scan_cons, scanStep] using h y hy
  cases xs with
  | nil => simp [joinItems, scan_cons, ho, hc]
  | cons x xs =>
    simp only [joinItems, List.cons_append, List.append_assoc, scan_cons, ho, Option.some_bind,
      scan_append, h x (List.mem_cons_self _ _),
      scan_flatMap _ fun y hy => hsep y (List.mem_cons_of_mem _ hy), hc, scan_nil]

theorem mem_sortFields {f : String × List Char} {fields : List (String × List Char)} :
    f ∈ sortFields fields ↔ f ∈ fields := List.mem_mergeSort

mutual

/-- Every `dumps` output is a sequence of whole literals and punctuation: it takes a reader
from outside literals back to outside literals. -/
theorem scan_dumps (sortKeys : Bool) : ∀ j : Json, scan .outside (dumps sortKeys j) = some .outside
  | .null => rfl
  | .bool b => by cases b <;> rfl
  | .number n =>
    scan_outside_plain fun c hc => by
      have := n.chars c hc
      revert this
      generalize c = d
      unfold numberChars
      simp only [List.mem_cons, List.mem_singleton, String.toList, List.not_mem_nil, or_false]
      rintro (rfl | rfl | rfl | rfl | rfl | rfl | rfl | rfl | rfl | rfl | rfl | rfl | rfl | rfl |
        rfl | rfl | rfl | rfl | rfl | rfl | rfl | rfl | rfl) <;> decide
  | .string s => scan_encodeBasestringAscii s
  | .array items => by
    rw [dumps]
    exact scan_joinItems '[' ']' (by decide) (by decide) (scan_dumpsList sortKeys items)
  | .object fields => by
    rw [dumps]
    refine scan_joinItems '{' '}' (by decide) (by decide) fun x hx => ?_
    obtain ⟨f, hf, rfl⟩ := List.mem_map.1 hx
    have hf' : f ∈ dumpsFields sortKeys fields := by
      cases sortKeys
      · exact hf
      · exact mem_sortFields.1 hf
    simp [scan_append, scan_encodeBasestringAscii, scan_cons, scanStep,
      scan_dumpsFields sortKeys fields f hf']

theorem scan_dumpsList (sortKeys : Bool) :
    ∀ items : List Json, ∀ x ∈ dumpsList sortKeys items, scan .outside x = some .outside
  | [] => fun _ h => nomatch h
  | j :: js => fun x hx => by
    rw [dumpsList, List.mem_cons] at hx
    rcases hx with rfl | hx
    · exact scan_dumps sortKeys j
    · exact scan_dumpsList sortKeys js x hx

theorem scan_dumpsFields (sortKeys : Bool) :
    ∀ fields : List (String × Json), ∀ f ∈ dumpsFields sortKeys fields,
      scan .outside f.2 = some .outside
  | [] => fun _ h => nomatch h
  | (_, v) :: fs => fun f hf => by
    rw [dumpsFields, List.mem_cons] at hf
    rcases hf with rfl | hf
    · exact scan_dumps sortKeys v
    · exact scan_dumpsFields sortKeys fs f hf

end

theorem joinItems_head (o c : Char) (xs : List (List Char)) :
    ∃ rest, joinItems o c xs = o :: rest := by
  cases xs <;> exact ⟨_, rfl⟩

/-- What a `dumps` output starts with: a character of a number, the first letter of a constant,
a quote or an opening bracket. -/
theorem dumps_head_mem (sortKeys : Bool) (j : Json) :
    ∃ c cs, dumps sortKeys j = c :: cs ∧ c ∈ numberChars ++ ['n', 't', 'f', '"', '[', '{'] := by
  cases j with
  | null => exact ⟨_, _, rfl, by decide⟩
  | bool b => cases b <;> exact ⟨_, _, rfl, by decide⟩
  | number n =>
    obtain ⟨c, cs, hcs⟩ := List.exists_cons_of_ne_nil n.nonempty
    exact ⟨c, cs, hcs, List.mem_append_left _ (n.chars c (by rw [hcs]; exact List.mem_cons_self _ _))⟩
  | string s => exact ⟨_, _, rfl, by decide⟩
  | array items =>
    obtain ⟨rest, h⟩ := joinItems_head '[' ']' (dumpsList sortKeys items)
    exact ⟨_, rest, by rw [dumps, h], by decide⟩
  | object fields =>
    obtain ⟨rest, h⟩ := joinItems_head '{' '}' _
    exact ⟨_, rest, by rw [dumps, h], by decide⟩

/-- No `dumps` output is empty or starts with a space. -/
theorem dumps_head_ne_space (sortKeys : Bool) (j : Json) :
    ∃ c cs, dumps sortKeys j = c :: cs ∧ c ≠ ' ' := by
  obtain ⟨c, cs, h, hc⟩ := dumps_head_mem sortKeys j
  exact ⟨c, cs, h, fun e => absurd (e ▸ hc) (by decide)⟩

/-! ### Where a `:` can stand -/

/-- Two readers of one text, one started outside literals and one inside: while both accept,
exactly one of them is inside a literal. -/
inductive Opposite : ScanState → ScanState → Prop where
  | outsideIn : Opposite .outside .inString
  | inOutside : Opposite .inString .outside
  | colonIn : Opposite .afterColon .inString
  | inColon : Opposite .inString .afterColon

theorem Opposite.scanStep {s t s' t' : ScanState} {c : Char} (h : Opposite s t)
    (hs : scanStep s c = some s') (ht : scanStep t c = some t') : Opposite s' t' := by
  cases h <;> simp only [MiniKV.scanStep] at hs ht <;> split_ifs at hs ht <;>
    first | (cases hs; cases ht; constructor) | simp_all

theorem Opposite.scan {s t s' t' : ScanState} {w : List Char} (h : Opposite s t)
    (hs : MiniKV.scan s w = some s') (ht : MiniKV.scan t w = some t') : Opposite s' t' := by
  induction w generalizing s t with
  | nil => cases hs; cases ht; exact h
  | cons c w ih =>
    rw [scan_cons] at hs ht
    cases hs' : MiniKV.scanStep s c <;> cases ht' : MiniKV.scanStep t c <;>
      simp only [hs', ht', Option.none_bind, Option.some_bind, reduceCtorEq] at hs ht
    exact ih (h.scanStep hs' ht') hs ht

/-- A text that scans outside-to-outside does not scan from inside a literal to outside. -/
theorem scan_inString_ne_outside {w : List Char} (h : scan .outside w = some .outside) :
    scan .inString w ≠ some .outside := fun h' => nomatch Opposite.outsideIn.scan h h'

/-- A `dumps` output never reads as some text, a `:`, and a second `dumps` output. -/
theorem dumps_ne_colon_dumps (sortKeys : Bool) (v₁ v₂ : Json) (m : List Char) :
    dumps sortKeys v₁ ≠ m ++ ':' :: dumps sortKeys v₂ := by
  intro h
  have h₁ := scan_dumps sortKeys v₁
  rw [h, scan_append] at h₁
  obtain ⟨c, cs, hcs, hc⟩ := dumps_head_ne_space sortKeys v₂
  have h₂ := scan_dumps sortKeys v₂
  cases hm : scan .outside m with
  | none => simp [hm] at h₁
  | some s =>
    rw [hm, Option.some_bind, scan_cons] at h₁
    cases s with
    | outside => simp [scanStep, scan, hcs, hc] at h₁
    | afterColon => simp [scanStep] at h₁
    | inString => exact scan_inString_ne_outside h₂ (by simpa [scanStep] using h₁)
    | escaped => exact scan_inString_ne_outside h₂ (by simpa [scanStep] using h₁)

/-- The text `key ++ ":" ++ dumps value` determines the key and the encoded value, whatever
`:` the key itself contains. -/
theorem colon_dumps_injective (sortKeys : Bool) {k₁ k₂ : List Char} {v₁ v₂ : Json}
    (h : k₁ ++ ':' :: dumps sortKeys v₁ = k₂ ++ ':' :: dumps sortKeys v₂) :
    k₁ = k₂ ∧ dumps sortKeys v₁ = dumps sortKeys v₂ := by
  rcases List.append_eq_append_iff.1 h with ⟨a, rfl, ha⟩ | ⟨c, rfl, hc⟩
  · cases a with
    | nil => simpa using ha
    | cons x a =>
      simp only [List.cons_append, List.cons.injEq] at ha
      exact absurd ha.2 (dumps_ne_colon_dumps sortKeys v₁ v₂ a)
  · cases c with
    | nil => simpa using hc.symm
    | cons x c =>
      simp only [List.cons_append, List.cons.injEq] at hc
      exact absurd hc.2 (dumps_ne_colon_dumps sortKeys v₂ v₁ c)

/-! ### Printable ASCII -/

/-- The characters `escapeAscii` writes as themselves: printable ASCII. -/
def Printable (c : Char) : Prop := ' ' ≤ c ∧ c ≤ '~'

instance : DecidablePred Printable := fun c => inferInstanceAs (Decidable (' ' ≤ c ∧ c ≤ '~'))

theorem hexDigit_printable (d : Nat) : Printable (hexDigit d) := by
  have : ∀ c ∈ hexChars, Printable c := by decide
  exact this _ (hexDigit_mem_hexChars d)

theorem uEscape_printable (n : Nat) : ∀ c ∈ uEscape n, Printable c := by
  simp only [uEscape, List.mem_cons, List.mem_singleton, List.not_mem_nil, or_false]
  rintro c (rfl | rfl | rfl | rfl | rfl | rfl) <;> first | decide | exact hexDigit_printable _

theorem ite_escape_printable {p : Prop} [Decidable p] {x : Char} {rest : List Char}
    (hx : Printable x) (h : ¬p → ∀ c ∈ rest, Printable c) :
    ∀ c ∈ (if p then ['\\', x] else rest), Printable c := by
  by_cases hp : p
  · rw [if_pos hp]
    simp only [List.mem_cons, List.mem_singleton, List.not_mem_nil, or_false]
    rintro c (rfl | rfl)
    · decide
    · exact hx
  · rw [if_neg hp]; exact h hp

/-- `ensure_ascii`: every character of an escape is printable ASCII. -/
theorem escapeAscii_printable (c : Char) : ∀ d ∈ escapeAscii c, Printable d := by
  unfold escapeAscii
  refine ite_escape_printable (by decide) fun _ => ite_escape_printable (by decide) fun _ =>
    ite_escape_printable (by decide) fun _ => ite_escape_printable (by decide) fun _ =>
    ite_escape_printable (by decide) fun _ => ite_escape_printable (by decide) fun _ =>
    ite_escape_printable (by decide) fun _ => ?_
  by_cases hp : ' ' ≤ c ∧ c ≤ '~'
  · rw [if_pos hp]
    rintro d (_ | ⟨_, ⟨⟩⟩)
    exact hp
  rw [if_neg hp]
  by_cases hb : c.toNat < 0x10000
  · rw [if_pos hb]; exact uEscape_printable _
  · rw [if_neg hb]
    intro d hd
    rcases List.mem_append.1 hd with hd | hd <;> exact uEscape_printable _ d hd

theorem encodeBasestringAscii_printable (s : String) :
    ∀ c ∈ encodeBasestringAscii s, Printable c := by
  intro c hc
  simp only [encodeBasestringAscii, List.cons_append, List.mem_cons, List.mem_append,
    List.mem_flatMap, List.mem_singleton, List.not_mem_nil, or_false] at hc
  rcases hc with rfl | ⟨d, -, hd⟩ | rfl
  · decide
  · exact escapeAscii_printable d c hd
  · decide

theorem joinItems_printable {o c : Char} (ho : Printable o) (hc : Printable c)
    {xs : List (List Char)} (h : ∀ x ∈ xs, ∀ d ∈ x, Printable d) :
    ∀ d ∈ joinItems o c xs, Printable d := by
  cases xs with
  | nil =>
    simp only [joinItems, List.mem_cons, List.mem_singleton, List.not_mem_nil, or_false]
    rintro d (rfl | rfl) <;> assumption
  | cons x xs =>
    intro d hd
    simp only [joinItems, List.cons_append, List.mem_cons, List.mem_append, List.mem_flatMap,
      List.mem_singleton, List.not_mem_nil, or_false] at hd
    rcases hd with rfl | (hd | ⟨y, hy, rfl | rfl | hd⟩) | rfl
    · exact ho
    · exact h x (List.mem_cons_self _ _) d hd
    · decide
    · decide
    · exact h y (List.mem_cons_of_mem _ hy) d hd
    · exact hc

mutual

/-- `ensure_ascii`: every character `dumps` writes is printable ASCII. -/
theorem dumps_printable : ∀ v : Json, ∀ c ∈ dumps false v, Printable c
  | .null => by decide
  | .bool b => by cases b <;> decide
  | .number n => fun c hc => by
    have hall : ∀ c ∈ numberChars, Printable c := by decide
    exact hall c (n.chars c hc)
  | .string s => encodeBasestringAscii_printable s
  | .array items => joinItems_printable (by decide) (by decide) (dumpsList_printable items)
  | .object fields => joinItems_printable (by decide) (by decide) fun x hx d hd => by
    obtain ⟨⟨k, w⟩, hf, rfl⟩ := List.mem_map.1 hx
    simp only [List.mem_append, List.mem_cons] at hd
    rcases hd with hd | rfl | rfl | hd
    · exact encodeBasestringAscii_printable k d hd
    · decide
    · decide
    · exact dumpsFields_printable fields (k, w) hf d hd

theorem dumpsList_printable : ∀ items : List Json, ∀ x ∈ dumpsList false items, ∀ c ∈ x, Printable c
  | [] => fun _ h => nomatch h
  | v :: vs => fun x hx => by
    rw [dumpsList, List.mem_cons] at hx
    rcases hx with rfl | hx
    · exact dumps_printable v
    · exact dumpsList_printable vs x hx

theorem dumpsFields_printable : ∀ fields : List (String × Json),
    ∀ f ∈ dumpsFields false fields, ∀ c ∈ f.2, Printable c
  | [] => fun _ h => nomatch h
  | (k, v) :: fs => fun f hf => by
    rw [dumpsFields, List.mem_cons] at hf
    rcases hf with rfl | hf
    · exact dumps_printable v
    · exact dumpsFields_printable fs f hf

end

theorem joinItems_last (o c : Char) (xs : List (List Char)) : ∃ cs, joinItems o c xs = cs ++ [c] := by
  cases xs with
  | nil => exact ⟨[o], rfl⟩
  | cons x xs => exact ⟨_, rfl⟩

/-- No `dumps` output ends with a space. -/
theorem dumps_last (v : Json) : ∃ cs c, dumps false v = cs ++ [c] ∧ c ≠ ' ' := by
  cases v with
  | null => exact ⟨"nul".toList, 'l', rfl, by decide⟩
  | bool b =>
    cases b with
    | false => exact ⟨"fals".toList, 'e', rfl, by decide⟩
    | true => exact ⟨"tru".toList, 'e', rfl, by decide⟩
  | number n =>
    obtain ⟨cs, c, hcs⟩ := (List.eq_nil_or_concat n.text).resolve_left n.nonempty
    have hc : c ∈ numberChars := n.chars c (by rw [hcs]; simp)
    exact ⟨cs, c, by rw [← List.concat_eq_append]; exact hcs, fun h => absurd (h ▸ hc) (by decide)⟩
  | string s => exact ⟨'"' :: s.toList.flatMap escapeAscii, '"', rfl, by decide⟩
  | array items =>
    obtain ⟨cs, h⟩ := joinItems_last '[' ']' (dumpsList false items)
    exact ⟨cs, _, h, by decide⟩
  | object fields =>
    obtain ⟨cs, h⟩ := joinItems_last '{' '}' _
    exact ⟨cs, _, h, by decide⟩

/-! ### What `json.dumps` raises -/

/-- The exceptions `json.dumps` raises on a value it cannot write. -/
inductive DumpsError where
  /-- `int.__repr__` of an `int` with more than `maxStrDigits` digits: "Exceeds the limit (4300
  digits) for integer string conversion". -/
  | valueError (digits : Nat)
  /-- `Py_EnterRecursiveCall(" while encoding a JSON object")` with no level left. -/
  | recursionError
deriving DecidableEq, Repr

mutual

/-- The first exception `encoder_listencode_obj` meets, walking the value in the order it writes
it, with `lvl` levels of recursion left: each list or dict it enters takes one, and an `int` too
long for `int.__repr__` raises `ValueError`. -/
def encodeError? : Nat → Json → Option DumpsError
  | _, .number n => if n.exceedsLimit then some (.valueError n.digits) else none
  | l, .array items =>
    match l with
    | 0 => some .recursionError
    | l + 1 => encodeErrorList? l items
  | l, .object fields =>
    match l with
    | 0 => some .recursionError
    | l + 1 => encodeErrorFields? l fields
  | _, _ => none

/-- The first exception among a list's items. -/
def encodeErrorList? (l : Nat) : List Json → Option DumpsError
  | [] => none
  | v :: vs => (encodeError? l v).orElse fun _ => encodeErrorList? l vs

/-- The first exception among a dict's values. -/
def encodeErrorFields? (l : Nat) : List (String × Json) → Option DumpsError
  | [] => none
  | (_, v) :: fs => (encodeError? l v).orElse fun _ => encodeErrorFields? l fs

end

/-- `json.dumps(value)` with `lvl` levels of recursion left: the text, or what it raises. -/
def jsonDumps (lvl : Nat) (v : Json) : Except DumpsError (List Char) :=
  match encodeError? lvl v with
  | some e => .error e
  | none => .ok (dumps false v)

/-- `json.dumps` writes the value with `lvl` levels of recursion left. -/
def Json.fits (lvl : Nat) (v : Json) : Bool := (encodeError? lvl v).isNone

theorem jsonDumps_of_fits {lvl : Nat} {v : Json} (h : v.fits lvl = true) :
    jsonDumps lvl v = .ok (dumps false v) := by
  rw [Json.fits, Option.isNone_iff_eq_none] at h
  rw [jsonDumps, h]

theorem encodeErrorList?_eq_none {l : Nat} {items : List Json} :
    encodeErrorList? l items = none ↔ ∀ v ∈ items, encodeError? l v = none := by
  induction items with
  | nil => simp [encodeErrorList?]
  | cons v vs ih => cases h : encodeError? l v <;> simp [encodeErrorList?, h, ih]

theorem encodeErrorFields?_eq_none {l : Nat} {fields : List (String × Json)} :
    encodeErrorFields? l fields = none ↔ ∀ f ∈ fields, encodeError? l f.2 = none := by
  induction fields with
  | nil => simp [encodeErrorFields?]
  | cons f fs ih => obtain ⟨k, v⟩ := f; cases h : encodeError? l v <;> simp [encodeErrorFields?, h, ih]

namespace Json

@[simp] theorem fits_number (l : Nat) (n : NumberText) : (Json.number n).fits l = !n.exceedsLimit := by
  simp only [fits, encodeError?]
  cases n.exceedsLimit <;> rfl

@[simp] theorem fits_array_zero (items : List Json) : (Json.array items).fits 0 = false := rfl

@[simp] theorem fits_object_zero (fields : List (String × Json)) : (Json.object fields).fits 0 = false := rfl

theorem fits_array_succ {l : Nat} {items : List Json} :
    (Json.array items).fits (l + 1) = true ↔ ∀ v ∈ items, v.fits l = true := by
  simp only [fits, encodeError?, Option.isNone_iff_eq_none, encodeErrorList?_eq_none]

theorem fits_object_succ {l : Nat} {fields : List (String × Json)} :
    (Json.object fields).fits (l + 1) = true ↔ ∀ f ∈ fields, f.2.fits l = true := by
  simp only [fits, encodeError?, Option.isNone_iff_eq_none, encodeErrorFields?_eq_none]

/-- A value `json.dumps` writes with some levels left it writes with more. -/
theorem fits_mono {l l' : Nat} (hl : l ≤ l') {v : Json} (h : v.fits l = true) : v.fits l' = true := by
  induction l generalizing l' v with
  | zero =>
    cases v with
    | array | object => simp at h
    | number n => simpa using h
    | _ => rfl
  | succ l ih =>
    obtain ⟨l', rfl⟩ : ∃ l'', l' = l'' + 1 := ⟨l' - 1, by omega⟩
    cases v with
    | array items =>
      exact fits_array_succ.2 fun v hv => ih (by omega) (fits_array_succ.1 h v hv)
    | object fields =>
      exact fits_object_succ.2 fun f hf => ih (by omega) (fits_object_succ.1 h f hf)
    | number n => simpa using h
    | _ => rfl

/-- The value nests no deeper than the levels `json.dumps` wrote it with. -/
theorem depth_le_of_fits {l : Nat} {v : Json} (h : v.fits l = true) : v.depth ≤ l := by
  induction l generalizing v with
  | zero =>
    cases v with
    | array items => exact absurd h (by simp)
    | object fields => exact absurd h (by simp)
    | _ => exact Nat.le_refl 0
  | succ l ih =>
    cases v with
    | array items =>
      exact Nat.succ_le_succ (depthList_le_iff.2 fun v hv => ih (fits_array_succ.1 h v hv))
    | object fields =>
      exact Nat.succ_le_succ (depthFields_le_iff.2 fun f hf => ih (fits_object_succ.1 h f hf))
    | _ => exact Nat.zero_le _

end Json

end MiniKV
