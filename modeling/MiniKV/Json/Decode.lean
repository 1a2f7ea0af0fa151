/-
Module: MiniKV.Json.Decode
Purpose: `json.loads` on a `str`, as the C scanner of `_json` runs it by default (`strict=True`,
  no hooks): the whitespace loops, the named constants, `_match_number_unicode`,
  `scanstring_unicode` with its escapes and surrogate pairs, `_parse_array_unicode`,
  `_parse_object_unicode` (a dict, so a repeated key keeps its first place and takes its last
  value), and `JSONDecoder.decode`'s BOM and "Extra data" checks, with the message and position
  of every `JSONDecodeError`. A position is kept as the number of characters left there, and
  `loads` turns it into an index. Besides `JSONDecodeError`, `loads` raises `ValueError` on an
  `int` past `maxStrDigits` digits and `RecursionError` on a list or dict it enters with no
  level of recursion left (`Py_EnterRecursiveCall`); the levels are a parameter. The text of
  every value Python holds reads back as that value when `json.dumps` wrote it with at most the
  levels `loads` has: `loads lvl (dumps false v) = .ok v` (`loads_dumps`), for every value
  whose numbers are spelled as Python writes them and whose dicts have distinct keys
  (`Json.valid`) and that fits in `lvl` levels (`Json.fits`).
Trusted boundary: none
Main exports: isWhitespace, skipWhitespace, ScanError, scanString, matchNumber, matchConstant,
  scanOnce, parseItems, parseMembers, LoadsError, loads, NumberText.spelled, Json.valid,
  scanString_flatMap_escapeAscii, matchNumber_append, scanOnce_dumps, loads_dumps
-/
import MiniKV.Json.Encode
import MiniKV.Core.PyDict

namespace MiniKV

/-! ### Characters -/

/-- `IS_WHITESPACE`: the characters the scanner skips between tokens. -/
def isWhitespace (c : Char) : Bool := c == ' ' || c == '\t' || c == '\n' || c == '\r'

/-- The scanner's whitespace loops: skip to the next other character. -/
def skipWhitespace (s : List Char) : List Char := s.dropWhile isWhitespace

/-- Where a scan stops: a `JSONDecodeError`, with its message and the number of characters
left at its position, the `ValueError` of `int(s)` on a text of too many digits, or no level of
recursion left. -/
inductive ScanError where
  | decode (msg : String) (left : Nat)
  | valueError (digits : Nat)
  | recursion
deriving DecidableEq, Repr

/-- One hex digit of a `\uXXXX` escape, either case. -/
def hexValue? (c : Char) : Option Nat :=
  if '0' ≤ c ∧ c ≤ '9' then some (c.toNat - '0'.toNat)
  else if 'a' ≤ c ∧ c ≤ 'f' then some (c.toNat - 'a'.toNat + 10)
  else if 'A' ≤ c ∧ c ≤ 'F' then some (c.toNat - 'A'.toNat + 10)
  else none

/-- The four digits of a `\uXXXX` escape, shifted in one by one. -/
def hex4 (a b c d : Char) : Option Nat := do
  let a ← hexValue? a
  let b ← hexValue? b
  let c ← hexValue? c
  let d ← hexValue? d
  return ((a * 16 + b) * 16 + c) * 16 + d

/-- The one-character escapes `\"`, `\\`, `\/`, `\b`, `\f`, `\n`, `\r`, `\t`. -/
def shortEscape (c : Char) : Option Char :=
  if c = '"' then some '"'
  else if c = '\\' then some '\\'
  else if c = '/' then some '/'
  else if c = 'b' then some '\x08'
  else if c = 'f' then some '\x0c'
  else if c = 'n' then some '\n'
  else if c = 'r' then some '\r'
  else if c = 't' then some '\t'
  else none

/-- `Py_UNICODE_IS_HIGH_SURROGATE`. -/
def isHighSurrogate (u : Nat) : Bool := 0xD800 ≤ u && u ≤ 0xDBFF

/-- `Py_UNICODE_IS_LOW_SURROGATE`. -/
def isLowSurrogate (u : Nat) : Bool := 0xDC00 ≤ u && u ≤ 0xDFFF

/-- `Py_UNICODE_JOIN_SURROGATES`. -/
def joinSurrogates (hi lo : Nat) : Nat := (((hi &&& 0x3FF) <<< 10) ||| (lo &&& 0x3FF)) + 0x10000

/-- The character a decoded code point stands for. Python keeps a lone surrogate in the string;
a Lean `Char` cannot hold one, so here it reads as U+FFFD. -/
def codePointChar (u : Nat) : Char :=
  if isHighSurrogate u || isLowSurrogate u then '�' else Char.ofNat u

/-! ### Strings -/

/-- The escape after a backslash in `scanstring_unicode`: the character it stands for and how
many characters after the backslash it takes. A `\uXXXX` needs a character after its digits,
and a high surrogate is joined with a following `\uXXXX` low surrogate when a character follows
that one too; otherwise the scanner reads on right after the first escape. `quote` is the number
of characters left at the string's opening quote, where an unterminated string is reported. -/
def decodeEscape (quote : Nat) : List Char → Except ScanError (Char × Nat)
  | [] => .error (.decode "Unterminated string starting at" quote)
  | e :: rest =>
    if e = 'u' then
      match rest with
      | a :: b :: c :: d :: r :: rs =>
        match hex4 a b c d with
        | none => .error (.decode "Invalid \\uXXXX escape" (rs.length + 6))
        | some u =>
          if isHighSurrogate u then
            match rs with
            | e₂ :: a' :: b' :: c' :: d' :: _ :: _ =>
              if r = '\\' ∧ e₂ = 'u' then
                match hex4 a' b' c' d' with
                | none => .error (.decode "Invalid \\uXXXX escape" rs.length)
                | some u' =>
                  if isLowSurrogate u' then .ok (codePointChar (joinSurrogates u u'), 11)
                  else .ok (codePointChar u, 5)
              else .ok (codePointChar u, 5)
            | _ => .ok (codePointChar u, 5)
          else .ok (codePointChar u, 5)
      | _ => .error (.decode "Invalid \\uXXXX escape" (rest.length + 1))
    else
      match shortEscape e with
      | some d => .ok (d, 1)
      | none => .error (.decode "Invalid \\escape" (rest.length + 2))

/-- `scanstring_unicode` after the opening quote, `strict`: `acc` holds the characters decoded
so far and `skip` the characters of the last escape still to pass over; a control character is
an error. -/
def scanString (quote : Nat) (acc : List Char) : Nat → List Char →
    Except ScanError (List Char × List Char)
  | _, [] => .error (.decode "Unterminated string starting at" quote)
  | skip + 1, _ :: rest => scanString quote acc skip rest
  | 0, c :: rest =>
    if c = '"' then .ok (acc, rest)
    else if c = '\\' then
      match decodeEscape quote rest with
      | .error e => .error e
      | .ok (d, n) => scanString quote (acc ++ [d]) n rest
    else if c.toNat ≤ 0x1F then .error (.decode "Invalid control character at" (rest.length + 1))
    else scanString quote (acc ++ [c]) 0 rest

/-! ### Numbers and constants -/

/-- An ASCII digit. -/
def isDigit (c : Char) : Bool := '0' ≤ c && c ≤ '9'

/-- The integer digits of a number: a lone `0`, or a nonzero digit and every digit after it. -/
def matchInt (s : List Char) : Option (List Char × List Char) :=
  match s with
  | d :: r =>
    if d = '0' then some (['0'], r)
    else if '1' ≤ d ∧ d ≤ '9' then some (d :: r.takeWhile isDigit, r.dropWhile isDigit)
    else none
  | [] => none

/-- A fraction: `.` and every digit after it, when a digit follows the `.`. -/
def matchFrac (s : List Char) : List Char × List Char :=
  match s with
  | p :: d :: r =>
    if p = '.' ∧ isDigit d then ('.' :: d :: r.takeWhile isDigit, r.dropWhile isDigit) else ([], s)
  | _ => ([], s)

/-- The sign of an exponent, if there is one. -/
def matchSign (s : List Char) : List Char × List Char :=
  match s with
  | c :: r => if c = '+' ∨ c = '-' then ([c], r) else ([], s)
  | [] => ([], [])

/-- An exponent: `e` or `E`, a sign, and its digits; without a digit the scanner backs up to the
`e`. -/
def matchExp (s : List Char) : List Char × List Char :=
  match s with
  | e :: r =>
    if (e = 'e' ∨ e = 'E') ∧ (matchSign r).2.takeWhile isDigit ≠ [] then
      (e :: (matchSign r).1 ++ (matchSign r).2.takeWhile isDigit, (matchSign r).2.dropWhile isDigit)
    else ([], s)
  | [] => ([], [])

/-- `_match_number_unicode`: the number at the front, as its text and the input after it. -/
def matchNumber (s : List Char) : Option (List Char × List Char) :=
  let (sign, s) : List Char × List Char :=
    match s with
    | c :: r => if c = '-' then (['-'], r) else ([], s)
    | [] => ([], [])
  match matchInt s with
  | none => none
  | some (i, s) => some (sign ++ i ++ (matchFrac s).1 ++ (matchExp (matchFrac s).2).1,
      (matchExp (matchFrac s).2).2)

/-- The number a matched text stands for; every matched text is a `NumberText`. -/
def NumberText.ofToken? (t : List Char) : Option NumberText :=
  if h : t ≠ [] ∧ ∀ c ∈ t, c ∈ numberChars then some ⟨t, h.1, h.2⟩ else none

/-- The named constants `scan_once` reads, each with its text. -/
def constants : List (List Char × Json) :=
  [("null".toList, .null), ("true".toList, .bool true), ("false".toList, .bool false),
    ("NaN".toList, .number ⟨"NaN".toList, by decide, by decide⟩),
    ("Infinity".toList, .number ⟨"Infinity".toList, by decide, by decide⟩),
    ("-Infinity".toList, .number ⟨"-Infinity".toList, by decide, by decide⟩)]

/-- A named constant at the front of the input. -/
def matchConstant (s : List Char) : Option (Json × List Char) :=
  (constants.find? fun k => k.1.isPrefixOf s).map fun k => (k.2, s.drop k.1.length)

/-! ### Values -/

mutual

/-- `scan_once_unicode` with `lvl` levels of recursion left: dispatch on the first character;
`[` and `{` take a level (`Py_EnterRecursiveCall`) before an empty array or object closes at once
or its loop runs on the level below, and an `int` text too long for `int(s)` raises `ValueError`.
`fuel` bounds the calls for Lean: `loads` gives two a character, more than any text takes. -/
def scanOnce : Nat → Nat → List Char → Except ScanError (Json × List Char)
  | 0, _, _ => .error .recursion
  | _ + 1, _, [] => .error (.decode "Expecting value" 0)
  | fuel + 1, lvl, c :: rest =>
    if c = '"' then
      match scanString (rest.length + 1) [] 0 rest with
      | .error e => .error e
      | .ok (cs, r) => .ok (.string ⟨cs⟩, r)
    else if c = '{' then
      match lvl with
      | 0 => .error .recursion
      | lvl + 1 =>
        let s := skipWhitespace rest
        if s.head? = some '}' then .ok (.object [], s.tail) else parseMembers fuel lvl [] s
    else if c = '[' then
      match lvl with
      | 0 => .error .recursion
      | lvl + 1 =>
        let s := skipWhitespace rest
        if s.head? = some ']' then .ok (.array [], s.tail) else parseItems fuel lvl [] s
    else
      match matchConstant (c :: rest) with
      | some r => .ok r
      | none =>
        match matchNumber (c :: rest) with
        | some (tok, r) =>
          match NumberText.ofToken? tok with
          | some n => if n.exceedsLimit then .error (.valueError n.digits) else .ok (.number n, r)
          | none => .error (.decode "Expecting value" (rest.length + 1))
        | none => .error (.decode "Expecting value" (rest.length + 1))

/-- The loop of `_parse_array_unicode`: an item, then `]` or `,` and the next item. -/
def parseItems : Nat → Nat → List Json → List Char → Except ScanError (Json × List Char)
  | 0, _, _, _ => .error .recursion
  | fuel + 1, lvl, acc, s =>
    match scanOnce fuel lvl s with
    | .error e => .error e
    | .ok (v, r) =>
      let r := skipWhitespace r
      if r.head? = some ']' then .ok (.array (acc ++ [v]), r.tail)
      else if r.head? = some ',' then parseItems fuel lvl (acc ++ [v]) (skipWhitespace r.tail)
      else .error (.decode "Expecting ',' delimiter" r.length)

/-- The loop of `_parse_object_unicode`: a quoted key, `:`, a value stored with
`PyDict_SetItem`, then `}` or `,` and the next key. -/
def parseMembers : Nat → Nat → List (String × Json) → List Char →
    Except ScanError (Json × List Char)
  | 0, _, _, _ => .error .recursion
  | fuel + 1, lvl, acc, s =>
    if s.head? = some '"' then
      match scanString s.length [] 0 s.tail with
      | .error e => .error e
      | .ok (key, r) =>
        let r := skipWhitespace r
        if r.head? = some ':' then
          match scanOnce fuel lvl (skipWhitespace r.tail) with
          | .error e => .error e
          | .ok (v, r) =>
            let r := skipWhitespace r
            if r.head? = some '}' then .ok (.object (setEntry ⟨key⟩ v acc), r.tail)
            else if r.head? = some ',' then
              parseMembers fuel lvl (setEntry ⟨key⟩ v acc) (skipWhitespace r.tail)
            else .error (.decode "Expecting ',' delimiter" r.length)
        else .error (.decode "Expecting ':' delimiter" r.length)
    else .error (.decode "Expecting property name enclosed in double quotes" s.length)

end

/-- What `json.loads` raises. -/
inductive LoadsError where
  | jsonDecodeError (msg : String) (pos : Nat)
  | valueError (digits : Nat)
  | recursionError
deriving DecidableEq, Repr

/-- A scan error of an input of `len` characters, with its position as an index. -/
def ScanError.toLoadsError (len : Nat) : ScanError → LoadsError
  | .decode msg left => .jsonDecodeError msg (len - left)
  | .valueError digits => .valueError digits
  | .recursion => .recursionError

/-- `json.loads(s)` for a `str`, with `lvl` levels of recursion left: no BOM, whitespace, one
value, whitespace, and nothing else. -/
def loads (lvl : Nat) (s : List Char) : Except LoadsError Json :=
  if s.head? = some '﻿' then
    .error (.jsonDecodeError "Unexpected UTF-8 BOM (decode using utf-8-sig)" 0)
  else
    match scanOnce (2 * s.length + 1) lvl (skipWhitespace s) with
    | .error e => .error (e.toLoadsError s.length)
    | .ok (v, r) =>
      match skipWhitespace r with
      | [] => .ok v
      | r => .error (.jsonDecodeError "Extra data" (s.length - r.length))

example : loads 1 "[]".toList = .ok (.array []) := rfl
example : loads 0 "[]".toList = .error .recursionError := rfl
example : loads 1 "[[1]]".toList = .error .recursionError := rfl
example : loads 1 " [null, -1.5e+3]".toList =
    .ok (.array [.null, .number ⟨"-1.5e+3".toList, by decide, by decide⟩]) := rfl
example : loads 1 "[1,]".toList = .error (.jsonDecodeError "Expecting value" 3) := rfl

/-! ### Reading back a string literal -/

section Strings

variable {quote : Nat} {acc : List Char}

theorem scanString_quote (rest : List Char) :
    scanString quote acc 0 ('"' :: rest) = .ok (acc, rest) := by
  rw [scanString, if_pos rfl]

theorem scanString_plain {c : Char} (rest : List Char) (h₁ : c ≠ '"') (h₂ : c ≠ '\\')
    (h₃ : 0x1F < c.toNat) :
    scanString quote acc 0 (c :: rest) = scanString quote (acc ++ [c]) 0 rest := by
  rw [scanString, if_neg h₁, if_neg h₂, if_neg (by omega)]

theorem scanString_escape {d : Char} {n : Nat} {rest : List Char}
    (h : decodeEscape quote rest = .ok (d, n)) :
    scanString quote acc 0 ('\\' :: rest) = scanString quote (acc ++ [d]) n rest := by
  rw [scanString, if_neg (by decide), if_pos rfl, h]

theorem decodeEscape_short {e d : Char} (he : e ≠ 'u') (hd : shortEscape e = some d) (rest : List Char) :
    decodeEscape quote (e :: rest) = .ok (d, 1) := by
  simp only [decodeEscape, if_neg he, hd]

theorem decodeEscape_bmp {a b c d r : Char} {u : Nat} (hu : hex4 a b c d = some u)
    (hs : isHighSurrogate u = false) (rs : List Char) :
    decodeEscape quote ('u' :: a :: b :: c :: d :: r :: rs) = .ok (codePointChar u, 5) := by
  simp only [decodeEscape, if_pos, hu, hs]
  rfl

theorem decodeEscape_pair {a b c d a' b' c' d' r : Char} {u u' : Nat} (hu : hex4 a b c d = some u)
    (hs : isHighSurrogate u = true) (hu' : hex4 a' b' c' d' = some u')
    (hs' : isLowSurrogate u' = true) (rs : List Char) :
    decodeEscape quote ('u' :: a :: b :: c :: d :: '\\' :: 'u' :: a' :: b' :: c' :: d' :: r :: rs) =
      .ok (codePointChar (joinSurrogates u u'), 11) := by
  simp only [decodeEscape, if_pos, hu, hs, hu', hs', if_true, and_self]

end Strings

theorem hexValue?_hexDigit : ∀ d < 16, hexValue? (hexDigit d) = some d := by decide

theorem hex4_uEscape {n : Nat} (h : n < 0x10000) :
    hex4 (hexDigit (n / 4096 % 16)) (hexDigit (n / 256 % 16)) (hexDigit (n / 16 % 16))
      (hexDigit (n % 16)) = some n := by
  simp only [hex4, hexValue?_hexDigit _ (Nat.mod_lt _ (by decide : 16 > 0)), Option.pure_def,
    Option.bind_eq_bind, Option.some_bind, Option.some.injEq]
  omega

/-! The two halves `escapeAscii` writes for a character past the BMP, as plain arithmetic. -/

theorem lor_eq_add_of_lt {a b : Nat} (hb : b < 1024) : 1024 * a ||| b = 1024 * a + b :=
  (Nat.mul_add_lt_is_or (show b < 2 ^ 10 from hb) a).symm

theorem and_0x3ff (x : Nat) : x &&& 0x3FF = x % 1024 := Nat.and_pow_two_sub_one_eq_mod x 10

theorem high_surrogate_eq (m : Nat) : 0xd800 ||| (m >>> 10 &&& 0x3ff) = 0xd800 + m / 1024 % 1024 := by
  rw [Nat.shiftRight_eq_div_pow, and_0x3ff, show (0xd800 : Nat) = 1024 * 54 from rfl,
    lor_eq_add_of_lt (Nat.mod_lt _ (by decide))]

theorem low_surrogate_eq (m : Nat) : 0xdc00 ||| (m &&& 0x3ff) = 0xdc00 + m % 1024 := by
  rw [and_0x3ff, show (0xdc00 : Nat) = 1024 * 55 from rfl, lor_eq_add_of_lt (Nat.mod_lt _ (by decide))]

theorem joinSurrogates_eq {n : Nat} (h₁ : 0x10000 ≤ n) (h₂ : n < 0x110000) :
    joinSurrogates (0xd800 + (n - 0x10000) / 1024 % 1024) (0xdc00 + (n - 0x10000) % 1024) = n := by
  rw [joinSurrogates, and_0x3ff, and_0x3ff, Nat.shiftLeft_eq, Nat.mul_comm, show 2 ^ 10 = 1024 from rfl,
    lor_eq_add_of_lt (Nat.mod_lt _ (by decide))]
  omega

/-- A Lean character is no surrogate, so its code point decodes back to it. -/
theorem codePointChar_toNat (c : Char) : codePointChar c.toNat = c := by
  have hv : c.toNat < 0xd800 ∨ (0xdfff < c.toNat ∧ c.toNat < 0x110000) := c.valid
  have hs : (isHighSurrogate c.toNat || isLowSurrogate c.toNat) = false := by
    simp only [isHighSurrogate, isLowSurrogate, Bool.or_eq_false_iff, Bool.and_eq_false_iff,
      decide_eq_false_iff_not]
    omega
  rw [codePointChar, hs, if_neg Bool.false_ne_true, Char.ofNat_toNat]

section Strings

variable {quote : Nat} {acc : List Char}

/-- One `ESCAPE_DCT` entry of `escapeAscii`'s chain reads back as its character. -/
theorem scanString_ite_escape {p : Prop} [Decidable p] {c x : Char} {w tail : List Char}
    (hx : x ≠ 'u') (hp : p → shortEscape x = some c)
    (h : ¬p → scanString quote acc 0 (w ++ tail) = scanString quote (acc ++ [c]) 0 tail) :
    scanString quote acc 0 ((if p then ['\\', x] else w) ++ tail) =
      scanString quote (acc ++ [c]) 0 tail := by
  by_cases hp' : p
  · rw [if_pos hp', List.cons_append, List.cons_append, List.nil_append,
      scanString_escape (decodeEscape_short hx (hp hp') _)]
    rfl
  · rw [if_neg hp']; exact h hp'

/-- Every escape `py_encode_basestring_ascii` writes decodes to the character it escapes. The
text after it must not be empty: the scanner reads a `\uXXXX` only with a character after it. -/
theorem scanString_escapeAscii (c : Char) {tail : List Char} (ht : tail ≠ []) :
    scanString quote acc 0 (escapeAscii c ++ tail) = scanString quote (acc ++ [c]) 0 tail := by
  unfold escapeAscii
  refine scanString_ite_escape (by decide) (fun h => by subst h; rfl) fun h₁ =>
    scanString_ite_escape (by decide) (fun h => by subst h; rfl) fun h₂ =>
    scanString_ite_escape (by decide) (fun h => by subst h; rfl) fun _ =>
    scanString_ite_escape (by decide) (fun h => by subst h; rfl) fun _ =>
    scanString_ite_escape (by decide) (fun h => by subst h; rfl) fun _ =>
    scanString_ite_escape (by decide) (fun h => by subst h; rfl) fun _ =>
    scanString_ite_escape (by decide) (fun h => by subst h; rfl) fun _ => ?_
  by_cases hp : ' ' ≤ c ∧ c ≤ '~'
  · rw [if_pos hp, List.singleton_append, scanString_plain _ h₂ h₁ (show 32 ≤ c.toNat from hp.1)]
  rw [if_neg hp]
  obtain ⟨t, ts, rfl⟩ := List.exists_cons_of_ne_nil ht
  have hv : c.toNat < 0xd800 ∨ (0xdfff < c.toNat ∧ c.toNat < 0x110000) := c.valid
  by_cases hb : c.toNat < 0x10000
  · have hs : isHighSurrogate c.toNat = false := by
      simp only [isHighSurrogate, Bool.and_eq_false_iff, decide_eq_false_iff_not]; omega
    rw [if_pos hb, uEscape]
    simp only [List.cons_append, List.nil_append]
    rw [scanString_escape (decodeEscape_bmp (hex4_uEscape hb) hs ts), codePointChar_toNat]
    rfl
  · have hhi := high_surrogate_eq (c.toNat - 0x10000)
    have hlo := low_surrogate_eq (c.toNat - 0x10000)
    have hq : (c.toNat - 0x10000) / 1024 % 1024 < 1024 := Nat.mod_lt _ (by decide)
    have hr : (c.toNat - 0x10000) % 1024 < 1024 := Nat.mod_lt _ (by decide)
    rw [if_neg hb, hhi, hlo, uEscape, uEscape]
    simp only [List.cons_append, List.nil_append]
    rw [scanString_escape (decodeEscape_pair (hex4_uEscape (by omega))
      (by simp only [isHighSurrogate, Bool.and_eq_true, decide_eq_true_eq]; omega)
      (hex4_uEscape (by omega)) (by simp only [isLowSurrogate, Bool.and_eq_true, decide_eq_true_eq]; omega) ts),
      joinSurrogates_eq (by omega) (by omega), codePointChar_toNat]
    rfl

/-- The characters of a string literal `py_encode_basestring_ascii` writes read back as the
string, up to its closing quote. -/
theorem scanString_flatMap_escapeAscii (cs rest : List Char) :
    scanString quote acc 0 (cs.flatMap escapeAscii ++ '"' :: rest) = .ok (acc ++ cs, rest) := by
  induction cs generalizing acc with
  | nil => simpa using scanString_quote rest
  | cons c cs ih =>
    rw [List.flatMap_cons, List.append_assoc, scanString_escapeAscii c (by simp), ih,
      List.append_assoc, List.singleton_append]

end Strings

/-! ### Reading back a number -/

/-- What may follow a number without extending it: no digit, `.`, `e` or `E`. -/
def EndsNumber (rest : List Char) : Prop :=
  ∀ c ∈ rest.head?, isDigit c = false ∧ c ≠ '.' ∧ c ≠ 'e' ∧ c ≠ 'E'

/-- A run of `p`-characters ends where it did when the text after it starts with no `p`. -/
theorem takeWhile_dropWhile_append {p : Char → Bool} {s rest : List Char}
    (h : ∀ c ∈ (s.dropWhile p ++ rest).head?, p c = false) :
    (s ++ rest).takeWhile p = s.takeWhile p ∧ (s ++ rest).dropWhile p = s.dropWhile p ++ rest := by
  induction s with
  | nil =>
    cases rest with
    | nil => exact ⟨rfl, rfl⟩
    | cons c rest => simp [List.takeWhile_cons, List.dropWhile_cons, h c rfl]
  | cons c s ih =>
    by_cases hc : p c
    · simp only [List.dropWhile_cons, hc, if_true] at h
      simp [List.takeWhile_cons, List.dropWhile_cons, hc, ih h]
    · simp [List.takeWhile_cons, List.dropWhile_cons, hc]

theorem matchInt_append {s i r rest : List Char} (h : matchInt s = some (i, r))
    (hr : ∀ c ∈ (r ++ rest).head?, isDigit c = false) : matchInt (s ++ rest) = some (i, r ++ rest) := by
  cases s with
  | nil => cases h
  | cons d s =>
    rw [List.cons_append]
    simp only [matchInt] at h ⊢
    by_cases h0 : d = '0'
    · rw [if_pos h0] at h ⊢
      obtain ⟨rfl, rfl⟩ := Prod.mk.inj (Option.some.inj h)
      rfl
    · rw [if_neg h0] at h ⊢
      by_cases h1 : '1' ≤ d ∧ d ≤ '9'
      · rw [if_pos h1] at h ⊢
        obtain ⟨rfl, rfl⟩ := Prod.mk.inj (Option.some.inj h)
        obtain ⟨ht, hd⟩ := takeWhile_dropWhile_append hr
        rw [ht, hd]
      · rw [if_neg h1] at h; cases h

theorem matchFrac_of_head {x : List Char} (h : ∀ c ∈ x.head?, c ≠ '.') : matchFrac x = ([], x) := by
  match x with
  | p :: d :: x' => simp only [matchFrac]; rw [if_neg (fun hp => h p rfl hp.1)]
  | [_] | [] => rfl

theorem matchFrac_append {s f r rest : List Char} (h : matchFrac s = (f, r))
    (hr : ∀ c ∈ (r ++ rest).head?, isDigit c = false)
    (hf : f = [] → ∀ c ∈ (s ++ rest).head?, c ≠ '.') : matchFrac (s ++ rest) = (f, r ++ rest) := by
  match s with
  | p :: d :: s' =>
    by_cases hp : p = '.' ∧ isDigit d = true
    · simp only [matchFrac, if_pos hp] at h
      obtain ⟨rfl, rfl⟩ := Prod.mk.inj h
      obtain ⟨ht, hd⟩ := takeWhile_dropWhile_append hr
      simp only [List.cons_append, matchFrac, if_pos hp, ht, hd]
    · simp only [matchFrac, if_neg hp] at h
      obtain ⟨rfl, rfl⟩ := Prod.mk.inj h
      exact matchFrac_of_head (hf rfl)
  | [_] | [] =>
    obtain ⟨rfl, rfl⟩ := Prod.mk.inj h
    exact matchFrac_of_head (hf rfl)

theorem matchExp_of_head {x : List Char} (h : ∀ c ∈ x.head?, c ≠ 'e' ∧ c ≠ 'E') :
    matchExp x = ([], x) := by
  match x with
  | p :: x' =>
    simp only [matchExp]
    rw [if_neg (fun hp => hp.1.elim (h p rfl).1 (h p rfl).2)]
  | [] => rfl

theorem matchSign_append {s : List Char} (hs : s ≠ []) (rest : List Char) :
    matchSign (s ++ rest) = ((matchSign s).1, (matchSign s).2 ++ rest) := by
  obtain ⟨c, s, rfl⟩ := List.exists_cons_of_ne_nil hs
  by_cases hc : c = '+' ∨ c = '-'
  · simp only [List.cons_append, matchSign, if_pos hc]
  · simp only [List.cons_append, matchSign, if_neg hc]

theorem matchExp_append {s e r rest : List Char} (h : matchExp s = (e, r))
    (hr : ∀ c ∈ (r ++ rest).head?, isDigit c = false)
    (he : e = [] → ∀ c ∈ (s ++ rest).head?, c ≠ 'e' ∧ c ≠ 'E') : matchExp (s ++ rest) = (e, r ++ rest) := by
  match s with
  | x :: s' =>
    by_cases hx : (x = 'e' ∨ x = 'E') ∧ (matchSign s').2.takeWhile isDigit ≠ []
    · simp only [matchExp, if_pos hx] at h
      obtain ⟨rfl, rfl⟩ := Prod.mk.inj h
      have hs' : s' ≠ [] := by
        rintro rfl
        exact hx.2 rfl
      obtain ⟨ht, hd⟩ := takeWhile_dropWhile_append hr
      simp only [List.cons_append, matchExp, matchSign_append hs', ht, hd, if_pos hx]
    · simp only [matchExp, if_neg hx] at h
      obtain ⟨rfl, rfl⟩ := Prod.mk.inj h
      exact matchExp_of_head (he rfl)
  | [] =>
    obtain ⟨rfl, rfl⟩ := Prod.mk.inj h
    exact matchExp_of_head (he rfl)

theorem matchSign_eq (s : List Char) : s = (matchSign s).1 ++ (matchSign s).2 := by
  cases s with
  | nil => rfl
  | cons c s =>
    by_cases hc : c = '+' ∨ c = '-'
    · simp only [matchSign, if_pos hc, List.singleton_append]
    · simp only [matchSign, if_neg hc, List.nil_append]

theorem matchFrac_eq (s : List Char) :
    s = (matchFrac s).1 ++ (matchFrac s).2 ∧ ∀ c ∈ (matchFrac s).1.head?, c = '.' := by
  match s with
  | p :: d :: s' =>
    by_cases hp : p = '.' ∧ isDigit d = true
    · simp only [matchFrac, if_pos hp]
      exact ⟨by simp [hp.1, List.takeWhile_append_dropWhile], by simp⟩
    · simp only [matchFrac, if_neg hp]
      exact ⟨rfl, by simp⟩
  | [_] | [] => exact ⟨rfl, by simp [matchFrac]⟩

theorem matchExp_eq (s : List Char) :
    s = (matchExp s).1 ++ (matchExp s).2 ∧ ∀ c ∈ (matchExp s).1.head?, c = 'e' ∨ c = 'E' := by
  match s with
  | x :: s' =>
    by_cases hx : (x = 'e' ∨ x = 'E') ∧ (matchSign s').2.takeWhile isDigit ≠ []
    · simp only [matchExp, if_pos hx]
      refine ⟨?_, by simpa using hx.1⟩
      conv_lhs => rw [matchSign_eq s', ← List.takeWhile_append_dropWhile isDigit (matchSign s').2]
      simp
    · simp only [matchExp, if_neg hx]
      exact ⟨rfl, by simp⟩
  | [] => exact ⟨rfl, by simp [matchExp]⟩

/-- The digits, fraction and exponent of a whole number read the same with any text after them
that cannot extend them. -/
theorem matchInt_frac_exp_append {s i r rest : List Char} (hi : matchInt s = some (i, r))
    (hend : (matchExp (matchFrac r).2).2 = []) (hrest : EndsNumber rest) :
    matchInt (s ++ rest) = some (i, r ++ rest) ∧
      matchFrac (r ++ rest) = ((matchFrac r).1, (matchFrac r).2 ++ rest) ∧
      matchExp ((matchFrac r).2 ++ rest) = ((matchExp (matchFrac r).2).1, rest) := by
  obtain ⟨hr2, hexp⟩ := matchExp_eq (matchFrac r).2
  obtain ⟨hr1, hfrac⟩ := matchFrac_eq r
  rw [hend, List.append_nil] at hr2
  have hE : ∀ c ∈ ((matchExp (matchFrac r).2).1 ++ rest).head?, isDigit c = false ∧ c ≠ '.' := by
    cases hE : (matchExp (matchFrac r).2).1 with
    | nil => exact fun c hc => ⟨(hrest c hc).1, (hrest c hc).2.1⟩
    | cons x _ =>
      rw [hE] at hexp
      rcases hexp x rfl with rfl | rfl <;> exact fun c hc => by cases hc; decide
  have hF : ∀ c ∈ (r ++ rest).head?, isDigit c = false ∧ c ≠ '.' ∨ c = '.' := by
    rw [hr1, hr2, List.append_assoc]
    cases hF : (matchFrac r).1 with
    | nil => exact fun c hc => .inl (hE c hc)
    | cons x _ => rw [hF] at hfrac; exact fun c hc => .inr (by cases hc; exact hfrac x rfl)
  have h3 : matchExp (matchFrac r).2 = ((matchExp (matchFrac r).2).1, []) := by rw [← hend]
  refine ⟨matchInt_append hi fun c hc => ?_,
    matchFrac_append rfl (by rw [hr2]; exact fun c hc => (hE c hc).1) fun hf c hc => ?_,
    matchExp_append h3 (fun c hc => (hrest c hc).1) fun he c hc => ?_⟩
  · rcases hF c hc with h | rfl
    · exact h.1
    · decide
  · rw [hr1, hf, List.nil_append, hr2] at hc
    exact (hE c hc).2
  · rw [hr2, he, List.nil_append] at hc
    exact (hrest c hc).2.2

/-- A whole number text reads the same with any text after it that cannot extend it. -/
theorem matchNumber_append {t rest : List Char} (h : matchNumber t = some (t, []))
    (hrest : EndsNumber rest) : matchNumber (t ++ rest) = some (t, rest) := by
  cases t with
  | nil => simp [matchNumber, matchInt] at h
  | cons c t =>
    by_cases hc : c = '-'
    · subst hc
      simp only [matchNumber, List.cons_append, if_true] at h ⊢
      cases hi : matchInt t with
      | none => rw [hi] at h; cases h
      | some p =>
        rw [hi] at h
        obtain ⟨htok, hend⟩ := Prod.mk.inj (Option.some.inj h)
        obtain ⟨h₁, h₂, h₃⟩ := matchInt_frac_exp_append hi hend hrest
        simp only [h₁, h₂, h₃, htok]
    · simp only [matchNumber, List.cons_append, if_neg hc, List.nil_append] at h ⊢
      cases hi : matchInt (c :: t) with
      | none => rw [hi] at h; cases h
      | some p =>
        rw [hi] at h
        obtain ⟨htok, hend⟩ := Prod.mk.inj (Option.some.inj h)
        obtain ⟨h₁, h₂, h₃⟩ := matchInt_frac_exp_append hi hend hrest
        rw [List.cons_append] at h₁
        simp only [h₁, h₂, h₃, htok]

/-! ### The values a Python program holds -/

/-- The number texts `json.dumps` writes for Python's `int`s and `float`s: a whole JSON number,
or `NaN`, `Infinity`, `-Infinity`. -/
def NumberText.spelled (n : NumberText) : Bool :=
  matchNumber n.text = some (n.text, []) || n.text = "NaN".toList || n.text = "Infinity".toList ||
    n.text = "-Infinity".toList

mutual

/-- A value a Python program can hold: its numbers spelled as Python writes them and its dicts
with distinct keys. -/
def Json.valid : Json → Bool
  | .number n => n.spelled
  | .array items => Json.validList items
  | .object fields => decide (fields.map Prod.fst).Nodup && Json.validFields fields
  | _ => true

/-- Every item is `Json.valid`. -/
def Json.validList : List Json → Bool
  | [] => true
  | v :: vs => v.valid && Json.validList vs

/-- Every value of a dict's entries is `Json.valid`. -/
def Json.validFields : List (String × Json) → Bool
  | [] => true
  | (_, v) :: fs => v.valid && Json.validFields fs

end

/-! ### Reading back a value -/

theorem skipWhitespace_of_head {c : Char} (h : isWhitespace c = false) (cs : List Char) :
    skipWhitespace (c :: cs) = c :: cs := by
  simp [skipWhitespace, List.dropWhile_cons, h]

@[simp] theorem skipWhitespace_space (s : List Char) : skipWhitespace (' ' :: s) = skipWhitespace s := rfl

/-- What `dumps` writes starts with no whitespace, no closing bracket and no BOM. -/
theorem dumps_head (v : Json) : ∃ c cs, dumps false v = c :: cs ∧ isWhitespace c = false ∧
    c ≠ ']' ∧ c ≠ '}' ∧ c ≠ '\uFEFF' := by
  obtain ⟨c, cs, h, hc⟩ := dumps_head_mem false v
  have hall : ∀ c ∈ numberChars ++ ['n', 't', 'f', '"', '[', '{'],
      isWhitespace c = false ∧ c ≠ ']' ∧ c ≠ '}' ∧ c ≠ '\uFEFF' := by decide
  exact ⟨c, cs, h, hall c hc⟩

theorem skipWhitespace_dumps (v : Json) (rest : List Char) :
    skipWhitespace (dumps false v ++ rest) = dumps false v ++ rest := by
  obtain ⟨c, cs, h, hw, -⟩ := dumps_head v
  rw [h, List.cons_append, skipWhitespace_of_head hw]

/-- A constant's text reads back as the constant, whatever follows it. -/
theorem scanOnce_constant {k : List Char} {v : Json} (h : (k, v) ∈ constants) (d lvl : Nat)
    (rest : List Char) : scanOnce (d + 1) lvl (k ++ rest) = .ok (v, rest) := by
  simp only [constants, List.mem_cons, Prod.mk.injEq, List.not_mem_nil, or_false] at h
  rcases h with ⟨rfl, rfl⟩ | ⟨rfl, rfl⟩ | ⟨rfl, rfl⟩ | ⟨rfl, rfl⟩ | ⟨rfl, rfl⟩ | ⟨rfl, rfl⟩ <;>
    cases rest <;> rfl

/-- Every constant's text has two characters before anything else, neither of them a digit. -/
theorem constants_head : ∀ k ∈ constants,
    2 ≤ k.1.length ∧ isDigit (k.1.headD 'a') = false ∧ isDigit (k.1.getD 1 'a') = false := by
  decide

/-- No constant starts like a number: with a digit, or with `-` and a digit. -/
theorem matchConstant_number {c : Char} {s : List Char}
    (h : isDigit c = true ∨ c = '-' ∧ ∃ d ds, s = d :: ds ∧ isDigit d = true) :
    matchConstant (c :: s) = none := by
  rw [matchConstant, Option.map_eq_none', List.find?_eq_none]
  intro k hk
  obtain ⟨hlen, hx, hy⟩ := constants_head k hk
  rcases hk1 : k.1 with _ | ⟨x, _ | ⟨y, ys⟩⟩ <;> rw [hk1] at hlen hx hy
  · simp at hlen
  · simp at hlen
  · simp only [List.headD_cons, List.getD_cons_succ, List.getD_cons_zero] at hx hy
    rcases h with hc | ⟨rfl, d, ds, rfl, hd⟩
    · simp [List.isPrefixOf, ne_of_apply_ne isDigit (by rw [hx, hc]; decide : isDigit x ≠ isDigit c)]
    · simp [List.isPrefixOf, ne_of_apply_ne isDigit (by rw [hy, hd]; decide : isDigit y ≠ isDigit d)]

theorem matchInt_head {s : List Char} {p : List Char × List Char} (h : matchInt s = some p) :
    ∃ d r, s = d :: r ∧ isDigit d = true := by
  match s with
  | d :: r =>
    refine ⟨d, r, rfl, ?_⟩
    simp only [matchInt] at h
    by_cases h0 : d = '0'
    · subst h0; rfl
    · rw [if_neg h0] at h
      by_cases h1 : '1' ≤ d ∧ d ≤ '9'
      · simp only [isDigit, Bool.and_eq_true, decide_eq_true_eq]
        exact ⟨Char.le_trans (by decide) h1.1, h1.2⟩
      · rw [if_neg h1] at h; cases h
  | [] => cases h

theorem matchNumber_head {s : List Char} {p : List Char × List Char} (h : matchNumber s = some p) :
    ∃ c cs, s = c :: cs ∧ (isDigit c = true ∨ c = '-' ∧ ∃ d ds, cs = d :: ds ∧ isDigit d = true) := by
  match s with
  | c :: cs =>
    refine ⟨c, cs, rfl, ?_⟩
    by_cases hc : c = '-'
    · simp only [matchNumber, if_pos hc] at h
      cases hi : matchInt cs with
      | none => rw [hi] at h; cases h
      | some q => exact .inr ⟨hc, matchInt_head hi⟩
    · simp only [matchNumber, if_neg hc] at h
      cases hi : matchInt (c :: cs) with
      | none => rw [hi] at h; cases h
      | some q =>
        obtain ⟨d, r, he, hd⟩ := matchInt_head hi
        obtain ⟨rfl, rfl⟩ := List.cons.inj he
        exact .inl hd
  | [] => simp [matchNumber, matchInt] at h

theorem endsNumber_cons {c : Char} (h : isDigit c = false ∧ c ≠ '.' ∧ c ≠ 'e' ∧ c ≠ 'E')
    (rest : List Char) : EndsNumber (c :: rest) := by
  rintro _ ⟨⟩
  exact h

theorem NumberText.ofToken?_text (n : NumberText) : NumberText.ofToken? n.text = some n :=
  dif_pos ⟨n.nonempty, n.chars⟩

/-- A number Python writes reads back as itself, when nothing after it extends it and `int(s)`
converts it. -/
theorem scanOnce_number {n : NumberText} (h : matchNumber n.text = some (n.text, []))
    (hl : n.exceedsLimit = false) (d lvl : Nat) {rest : List Char} (hrest : EndsNumber rest) :
    scanOnce (d + 1) lvl (n.text ++ rest) = .ok (.number n, rest) := by
  obtain ⟨c, cs, ht, hc⟩ := matchNumber_head h
  have hn : c ≠ '"' ∧ c ≠ '{' ∧ c ≠ '[' := by
    have hall : ∀ c ∈ numberChars, c ≠ '"' ∧ c ≠ '{' ∧ c ≠ '[' := by decide
    exact hall c (n.chars c (by rw [ht]; exact List.mem_cons_self _ _))
  have hm := matchNumber_append h hrest
  have hk : matchConstant (c :: (cs ++ rest)) = none := by
    refine matchConstant_number (hc.imp_right fun ⟨hm, d, ds, hds, hd⟩ => ⟨hm, d, ds ++ rest, ?_, hd⟩)
    rw [hds, List.cons_append]
  rw [ht, List.cons_append] at hm ⊢
  simp only [scanOnce, if_neg hn.1, if_neg hn.2.1, if_neg hn.2.2, hk, hm, ← ht,
    NumberText.ofToken?_text, hl, Bool.false_eq_true, if_false]

/-- A string literal `dumps` writes reads back as the string. -/
theorem scanOnce_string (s : String) (d lvl : Nat) (rest : List Char) :
    scanOnce (d + 1) lvl (encodeBasestringAscii s ++ rest) = .ok (.string s, rest) := by
  simp only [encodeBasestringAscii, List.cons_append, List.append_assoc, List.singleton_append,
    scanOnce, if_true, scanString_flatMap_escapeAscii, List.nil_append]
  rfl

/-! The array and object loops after an item `dumps` wrote: `]` or `}` closes, `, ` goes on. -/

theorem parseItems_close {d lvl : Nat} {s rest : List Char} {v : Json} (acc : List Json)
    (h : scanOnce d lvl s = .ok (v, ']' :: rest)) :
    parseItems (d + 1) lvl acc s = .ok (.array (acc ++ [v]), rest) := by
  simp only [parseItems, h]
  rfl

theorem parseItems_next {d lvl : Nat} {s r : List Char} {v : Json} (acc : List Json)
    (h : scanOnce d lvl s = .ok (v, ',' :: ' ' :: r)) :
    parseItems (d + 1) lvl acc s = parseItems d lvl (acc ++ [v]) (skipWhitespace r) := by
  simp only [parseItems, h]
  rfl

theorem dumps_array_singleton (v : Json) :
    (dumps false (.array [v])).tail = dumps false v ++ [']'] := by
  simp [dumps, dumpsList, joinItems]

theorem dumps_array_cons (v y : Json) (ys : List Json) :
    (dumps false (.array (v :: y :: ys))).tail =
      dumps false v ++ ',' :: ' ' :: (dumps false (.array (y :: ys))).tail := by
  simp [dumps, dumpsList, joinItems]

theorem parseMembers_close {d lvl : Nat} {k : String} {v : Json} {x rest : List Char}
    (acc : List (String × Json)) (h : scanOnce d lvl (dumps false v ++ x) = .ok (v, '}' :: rest)) :
    parseMembers (d + 1) lvl acc (encodeBasestringAscii k ++ ':' :: ' ' :: (dumps false v ++ x)) =
      .ok (.object (setEntry k v acc), rest) := by
  simp only [parseMembers, encodeBasestringAscii, List.cons_append, List.append_assoc,
    List.singleton_append, List.head?_cons, List.tail_cons, if_true, scanString_flatMap_escapeAscii,
    List.nil_append, skipWhitespace_of_head (show isWhitespace ':' = false by decide),
    skipWhitespace_space, skipWhitespace_dumps, h]
  rfl

theorem parseMembers_next {d lvl : Nat} {k : String} {v : Json} {x r : List Char}
    (acc : List (String × Json)) (h : scanOnce d lvl (dumps false v ++ x) = .ok (v, ',' :: ' ' :: r)) :
    parseMembers (d + 1) lvl acc (encodeBasestringAscii k ++ ':' :: ' ' :: (dumps false v ++ x)) =
      parseMembers d lvl (setEntry k v acc) (skipWhitespace r) := by
  simp only [parseMembers, encodeBasestringAscii, List.cons_append, List.append_assoc,
    List.singleton_append, List.head?_cons, List.tail_cons, if_true, scanString_flatMap_escapeAscii,
    List.nil_append, skipWhitespace_of_head (show isWhitespace ':' = false by decide),
    skipWhitespace_space, skipWhitespace_dumps, h]
  rfl

theorem dumps_object_singleton (k : String) (v : Json) :
    (dumps false (.object [(k, v)])).tail = encodeBasestringAscii k ++ ':' :: ' ' :: (dumps false v ++ ['}']) := by
  simp [dumps, dumpsFields, joinItems]

theorem dumps_object_cons (k : String) (v : Json) (f : String × Json) (fs : List (String × Json)) :
    (dumps false (.object ((k, v) :: f :: fs))).tail =
      encodeBasestringAscii k ++ ':' :: ' ' :: (dumps false v ++ ',' :: ' ' :: (dumps false (.object (f :: fs))).tail) := by
  simp [dumps, dumpsFields, joinItems]

theorem dumps_array_tail (v : Json) (vs : List Json) :
    (dumps false (.array (v :: vs))).tail =
      dumps false v ++ ((dumpsList false vs).flatMap (fun y => ',' :: ' ' :: y) ++ [']']) := by
  simp [dumps, dumpsList, joinItems]

theorem skipWhitespace_array_tail (v : Json) (vs : List Json) (rest : List Char) :
    skipWhitespace ((dumps false (.array (v :: vs))).tail ++ rest) =
      (dumps false (.array (v :: vs))).tail ++ rest := by
  rw [dumps_array_tail, List.append_assoc, skipWhitespace_dumps]

theorem not_mem_keys_of_nodup {acc fs : List (String × Json)} {k : String} {v : Json}
    (h : ((acc ++ (k, v) :: fs).map Prod.fst).Nodup) : k ∉ acc.map Prod.fst := fun hk =>
  (List.nodup_append.1 (by simpa using h)).2.2 hk (List.mem_cons_self k _)

theorem skipWhitespace_object_tail (f : String × Json) (fs : List (String × Json)) (rest : List Char) :
    skipWhitespace ((dumps false (.object (f :: fs))).tail ++ rest) =
      (dumps false (.object (f :: fs))).tail ++ rest :=
  skipWhitespace_of_head (show isWhitespace '"' = false by decide) _

/-- `[` and an item: the array loop takes over, a level down. -/
theorem scanOnce_open_array {c : Char} {cs : List Char} (s : List Char) (hs : s = c :: cs)
    (hw : isWhitespace c = false) (hb : c ≠ ']') (d lvl : Nat) :
    scanOnce (d + 1) (lvl + 1) ('[' :: s) = parseItems d lvl [] s := by
  subst hs
  simp only [scanOnce, if_neg (show '[' ≠ '"' by decide), if_neg (show '[' ≠ '{' by decide), if_true,
    skipWhitespace_of_head hw, List.head?_cons, Option.some.injEq, if_neg hb]

/-- `{` and a key: the object loop takes over, a level down. -/
theorem scanOnce_open_object {cs : List Char} (s : List Char) (hs : s = '"' :: cs) (d lvl : Nat) :
    scanOnce (d + 1) (lvl + 1) ('{' :: s) = parseMembers d lvl [] s := by
  subst hs
  simp only [scanOnce, if_neg (show '{' ≠ '"' by decide), if_true,
    skipWhitespace_of_head (show isWhitespace '"' = false by decide), List.head?_cons,
    Option.some.injEq, if_neg (show '"' ≠ '}' by decide)]

theorem dumps_length_pos (v : Json) : 0 < (dumps false v).length := by
  obtain ⟨c, cs, h, -⟩ := dumps_head v
  simp [h]

mutual

/-- The text `dumps` writes for a value reads back as that value, with any text after it that
cannot extend a number, given a unit of fuel per character and the levels the value fits in. -/
theorem scanOnce_dumps : ∀ (v : Json), v.valid = true → ∀ (fuel lvl : Nat) (rest : List Char),
    (dumps false v).length ≤ fuel → v.fits lvl = true → EndsNumber rest →
    scanOnce fuel lvl (dumps false v ++ rest) = .ok (v, rest)
  | v, _, 0, _, _, hlen, _, _ => absurd hlen (Nat.not_le.2 (dumps_length_pos v))
  | .null, _, d + 1, lvl, rest, _, _, _ => scanOnce_constant (by decide) d lvl rest
  | .bool true, _, d + 1, lvl, rest, _, _, _ => scanOnce_constant (by decide) d lvl rest
  | .bool false, _, d + 1, lvl, rest, _, _, _ => scanOnce_constant (by decide) d lvl rest
  | .number n, hv, d + 1, lvl, rest, _, hf, hrest => by
    simp only [Json.valid, NumberText.spelled, Bool.or_eq_true, decide_eq_true_eq] at hv
    rcases hv with ((h | h) | h) | h
    · exact scanOnce_number h (by simpa using hf) d lvl hrest
    · obtain rfl : n = ⟨"NaN".toList, by decide, by decide⟩ := NumberText.ext h
      exact scanOnce_constant (by decide) d lvl rest
    · obtain rfl : n = ⟨"Infinity".toList, by decide, by decide⟩ := NumberText.ext h
      exact scanOnce_constant (by decide) d lvl rest
    · obtain rfl : n = ⟨"-Infinity".toList, by decide, by decide⟩ := NumberText.ext h
      exact scanOnce_constant (by decide) d lvl rest
  | .string s, _, d + 1, lvl, rest, _, _, _ => scanOnce_string s d lvl rest
  | .array _, _, _ + 1, 0, _, _, hf, _ => absurd hf (by simp)
  | .object _, _, _ + 1, 0, _, _, hf, _ => absurd hf (by simp)
  | .array [], _, _ + 1, _ + 1, _, _, _, _ => rfl
  | .array (v :: vs), hv, d + 1, l + 1, rest, hlen, hf, _ => by
    have hlen' : (dumps false (.array (v :: vs))).tail.length ≤ d := by
      rw [List.length_tail]; omega
    obtain ⟨c, cs, hc, hw, hb, -⟩ := dumps_head v
    show scanOnce (d + 1) (l + 1) ('[' :: ((dumps false (.array (v :: vs))).tail ++ rest)) = _
    rw [scanOnce_open_array _ (by rw [dumps_array_tail, hc]; rfl) hw hb,
      parseItems_dumps (v :: vs) (List.cons_ne_nil v vs) hv d l [] rest hlen' (Json.fits_array_succ.1 hf),
      List.nil_append]
  | .object [], _, _ + 1, _ + 1, _, _, _, _ => rfl
  | .object ((k, v) :: fs), hv, d + 1, l + 1, rest, hlen, hf, _ => by
    simp only [Json.valid, Bool.and_eq_true, decide_eq_true_eq] at hv
    have hlen' : (dumps false (.object ((k, v) :: fs))).tail.length ≤ d := by
      rw [List.length_tail]; omega
    show scanOnce (d + 1) (l + 1) ('{' :: ((dumps false (.object ((k, v) :: fs))).tail ++ rest)) = _
    rw [scanOnce_open_object ((dumps false (.object ((k, v) :: fs))).tail ++ rest) rfl,
      parseMembers_dumps ((k, v) :: fs) (List.cons_ne_nil _ fs) hv.2 d l [] rest hv.1 hlen'
        (Json.fits_object_succ.1 hf), List.nil_append]

/-- The array loop reads back the items `dumps` wrote, up to and with the closing `]`. -/
theorem parseItems_dumps : ∀ (items : List Json), items ≠ [] → Json.validList items = true →
    ∀ (fuel lvl : Nat) (acc : List Json) (rest : List Char),
    (dumps false (.array items)).tail.length ≤ fuel → (∀ v ∈ items, v.fits lvl = true) →
    parseItems fuel lvl acc ((dumps false (.array items)).tail ++ rest) = .ok (.array (acc ++ items), rest)
  | [], h, _, _, _, _, _, _, _ => absurd rfl h
  | v :: vs, _, _, 0, _, _, _, hlen, _ => by
    rw [dumps_array_tail, List.length_append] at hlen
    exact absurd hlen (by have := dumps_length_pos v; omega)
  | [v], _, hv, d + 1, lvl, acc, rest, hlen, hf => by
    simp only [Json.validList, Bool.and_true] at hv
    rw [dumps_array_singleton, List.length_append] at hlen
    rw [dumps_array_singleton, List.append_assoc, List.singleton_append]
    exact parseItems_close acc (scanOnce_dumps v hv d lvl (']' :: rest) (by simp at hlen; omega)
      (hf v (List.mem_singleton_self v)) (endsNumber_cons (by decide) rest))
  | v :: y :: ys, _, hv, d + 1, lvl, acc, rest, hlen, hf => by
    simp only [Json.validList, Bool.and_eq_true] at hv
    rw [dumps_array_cons, List.length_append, List.length_cons, List.length_cons] at hlen
    rw [dumps_array_cons, List.append_assoc, List.cons_append, List.cons_append,
      parseItems_next acc (scanOnce_dumps v hv.1 d lvl _ (by omega) (hf v (List.mem_cons_self _ _))
        (endsNumber_cons (by decide) _)),
      skipWhitespace_array_tail,
      parseItems_dumps (y :: ys) (List.cons_ne_nil y ys) (by simpa [Json.validList] using hv.2) d lvl _ rest
        (by omega) fun w hw => hf w (List.mem_cons_of_mem _ hw)]
    simp

/-- The object loop reads back the entries `dumps` wrote, up to and with the closing `}`, when
no key repeats. -/
theorem parseMembers_dumps : ∀ (fields : List (String × Json)), fields ≠ [] →
    Json.validFields fields = true → ∀ (fuel lvl : Nat) (acc : List (String × Json)) (rest : List Char),
    ((acc ++ fields).map Prod.fst).Nodup → (dumps false (.object fields)).tail.length ≤ fuel →
    (∀ f ∈ fields, f.2.fits lvl = true) →
    parseMembers fuel lvl acc ((dumps false (.object fields)).tail ++ rest) = .ok (.object (acc ++ fields), rest)
  | [], h, _, _, _, _, _, _, _, _ => absurd rfl h
  | [(k, v)], _, _, 0, _, _, _, _, hlen, _ => by
    rw [dumps_object_singleton] at hlen
    simp at hlen
  | (k, v) :: f :: fs, _, _, 0, _, _, _, _, hlen, _ => by
    rw [dumps_object_cons] at hlen
    simp at hlen
  | [(k, v)], _, hv, d + 1, lvl, acc, rest, hnd, hlen, hf => by
    simp only [Json.validFields, Bool.and_true] at hv
    rw [dumps_object_singleton] at hlen
    rw [dumps_object_singleton, List.append_assoc, List.cons_append, List.cons_append,
      List.append_assoc, List.singleton_append,
      parseMembers_close acc (scanOnce_dumps v hv d lvl ('}' :: rest) (by simp at hlen; omega)
        (hf (k, v) (List.mem_singleton_self _)) (endsNumber_cons (by decide) rest)),
      setEntry_of_not_mem (not_mem_keys_of_nodup hnd)]
  | (k, v) :: f :: fs, _, hv, d + 1, lvl, acc, rest, hnd, hlen, hf => by
    rw [Json.validFields, Bool.and_eq_true] at hv
    rw [dumps_object_cons] at hlen
    rw [dumps_object_cons, List.append_assoc, List.cons_append, List.cons_append, List.append_assoc,
      List.cons_append, List.cons_append,
      parseMembers_next acc (scanOnce_dumps v hv.1 d lvl _ (by simp at hlen; omega)
        (hf (k, v) (List.mem_cons_self _ _)) (endsNumber_cons (by decide) _)),
      setEntry_of_not_mem (not_mem_keys_of_nodup hnd), skipWhitespace_object_tail,
      parseMembers_dumps (f :: fs) (List.cons_ne_nil f fs) hv.2 d lvl _ rest (by simpa using hnd)
        (by simp at hlen ⊢; omega) fun g hg => hf g (List.mem_cons_of_mem _ hg)]
    simp

end

/-- `json.loads(json.dumps(v)) == v`, for every value a Python program can hold, when `loads`
has the levels `json.dumps` wrote it with. -/
theorem loads_dumps {lvl : Nat} {v : Json} (hv : v.valid = true) (hf : v.fits lvl = true) :
    loads lvl (dumps false v) = .ok v := by
  obtain ⟨c, cs, hc, -, -, -, hbom⟩ := dumps_head v
  have hs := skipWhitespace_dumps v []
  have hscan := scanOnce_dumps v hv (2 * (dumps false v).length + 1) lvl [] (by omega) hf
    (fun _ h => nomatch h)
  rw [List.append_nil] at hs hscan
  rw [loads, if_neg (by rw [hc]; exact fun h => hbom (Option.some.inj h)), hs, hscan]
  rfl

end MiniKV
