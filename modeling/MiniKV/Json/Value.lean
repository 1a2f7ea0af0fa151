/-
Module: MiniKV.Json.Value
Purpose: The JSON values the store keeps and ships (`Any` in the source, always JSON
  serialisable): `None`, booleans, numbers, strings, lists and string-keyed dicts. A number is
  carried as the text `json.dumps` writes for it (`int.__repr__`, `float.__repr__`, or
  `Infinity`, `-Infinity`, `NaN`); the structure keeps that text non-empty and inside the
  alphabet those spellings use. Equality of values is structural (`Json.beq`), as Python's
  `==` is on values with the same dict order and number spellings. CPython converts an `int`
  to or from its text only up to `sys.int_info.default_max_str_digits` digits
  (`NumberText.exceedsLimit`), and its recursion limit bounds how deep lists and dicts may
  nest (`Json.depth`) where `asdict`, `json.dumps` and `json.loads` walk a value.
Trusted boundary: none
Main exports: numberChars, NumberText, Json, Json.beq, Json.instDecidableEq, maxStrDigits,
  NumberText.isInt, NumberText.digits, NumberText.exceedsLimit, Json.depth
-/
import Mathlib.Data.List.Basic

namespace MiniKV

/-- The characters of Python's spellings of `int`s and `float`s in JSON. -/
def numberChars : List Char := "0123456789+-.eEInfityaN".toList

/-- The JSON text of a Python number. -/
@[ext] structure NumberText where
  text : List Char
  nonempty : text ≠ []
  chars : ∀ c ∈ text, c ∈ numberChars

/-! ### CPython's limit on `int` texts -/

/-- `sys.int_info.default_max_str_digits`: the most decimal digits CPython converts between an
`int` and its text; `int.__repr__` and `int(s)` raise `ValueError` past it. -/
def maxStrDigits : Nat := 4300

/-- The text is an `int`'s: digits after an optional `-`, with no fraction, exponent or named
constant. `_match_number_unicode` reads such a text with `int`, and `int.__repr__` writes one. -/
def NumberText.isInt (n : NumberText) : Bool := n.text.all fun c => c.isDigit || c == '-'

/-- The decimal digits of the text, the sign not counted. -/
def NumberText.digits (n : NumberText) : Nat := (n.text.filter Char.isDigit).length

/-- An `int` with more digits than CPython converts to or from text. -/
def NumberText.exceedsLimit (n : NumberText) : Bool := n.isInt && decide (maxStrDigits < n.digits)

/-- A JSON-serialisable Python value. Objects list their entries in dict order. -/
inductive Json where
  | null
  | bool (b : Bool)
  | number (n : NumberText)
  | string (s : String)
  | array (items : List Json)
  | object (fields : List (String × Json))

/-! ### Equality -/

mutual

/-- Structural equality of values. -/
def Json.beq : Json → Json → Bool
  | .null, .null => true
  | .bool a, .bool b => a == b
  | .number a, .number b => a.text == b.text
  | .string a, .string b => a == b
  | .array as, .array bs => Json.beqList as bs
  | .object fs, .object gs => Json.beqFields fs gs
  | _, _ => false

/-- Structural equality of item lists. -/
def Json.beqList : List Json → List Json → Bool
  | [], [] => true
  | a :: as, b :: bs => Json.beq a b && Json.beqList as bs
  | _, _ => false

/-- Structural equality of entry lists. -/
def Json.beqFields : List (String × Json) → List (String × Json) → Bool
  | [], [] => true
  | (k, a) :: fs, (k', b) :: gs => k == k' && Json.beq a b && Json.beqFields fs gs
  | _, _ => false

end

mutual

theorem Json.eq_of_beq : ∀ a b : Json, Json.beq a b = true → a = b
  | .null, b, h => by cases b <;> first | rfl | cases h
  | .bool x, b, h => by
    cases b with
    | bool y => exact congrArg _ (LawfulBEq.eq_of_beq h)
    | _ => cases h
  | .number x, b, h => by
    cases b with
    | number y => exact congrArg _ (NumberText.ext (LawfulBEq.eq_of_beq h))
    | _ => cases h
  | .string x, b, h => by
    cases b with
    | string y => exact congrArg _ (LawfulBEq.eq_of_beq h)
    | _ => cases h
  | .array xs, b, h => by
    cases b with
    | array ys => exact congrArg _ (Json.eq_of_beqList xs ys h)
    | _ => cases h
  | .object fs, b, h => by
    cases b with
    | object gs => exact congrArg _ (Json.eq_of_beqFields fs gs h)
    | _ => cases h

theorem Json.eq_of_beqList : ∀ as bs : List Json, Json.beqList as bs = true → as = bs
  | [], [], _ => rfl
  | [], _ :: _, h => by cases h
  | _ :: _, [], h => by cases h
  | a :: as, b :: bs, h => by
    obtain ⟨h₁, h₂⟩ := Bool.and_eq_true_iff.1 h
    rw [Json.eq_of_beq a b h₁, Json.eq_of_beqList as bs h₂]

theorem Json.eq_of_beqFields :
    ∀ fs gs : List (String × Json), Json.beqFields fs gs = true → fs = gs
  | [], [], _ => rfl
  | [], _ :: _, h => by cases h
  | _ :: _, [], h => by cases h
  | (k, a) :: fs, (k', b) :: gs, h => by
    obtain ⟨hk, h₂⟩ := Bool.and_eq_true_iff.1 h
    obtain ⟨hk, h₁⟩ := Bool.and_eq_true_iff.1 hk
    rw [LawfulBEq.eq_of_beq hk, Json.eq_of_beq a b h₁, Json.eq_of_beqFields fs gs h₂]

end

mutual

theorem Json.beq_refl : ∀ a : Json, Json.beq a a = true
  | .null => rfl
  | .bool _ => beq_self_eq_true _
  | .number _ => beq_self_eq_true _
  | .string _ => beq_self_eq_true _
  | .array xs => Json.beqList_refl xs
  | .object fs => Json.beqFields_refl fs

theorem Json.beqList_refl : ∀ as : List Json, Json.beqList as as = true
  | [] => rfl
  | a :: as => Bool.and_eq_true_iff.2 ⟨Json.beq_refl a, Json.beqList_refl as⟩

theorem Json.beqFields_refl : ∀ fs : List (String × Json), Json.beqFields fs fs = true
  | [] => rfl
  | (_, a) :: fs =>
    Bool.and_eq_true_iff.2 ⟨Bool.and_eq_true_iff.2 ⟨beq_self_eq_true _, Json.beq_refl a⟩,
      Json.beqFields_refl fs⟩

end

instance Json.instDecidableEq : DecidableEq Json := fun a b =>
  decidable_of_iff (Json.beq a b = true) ⟨Json.eq_of_beq a b, fun h => h ▸ Json.beq_refl a⟩

/-! ### Nesting -/

mutual

/-- How deep lists and dicts nest in a value: the levels of recursion a walk over it enters. -/
def Json.depth : Json → Nat
  | .array items => Json.depthList items + 1
  | .object fields => Json.depthFields fields + 1
  | _ => 0

/-- The deepest item of a list. -/
def Json.depthList : List Json → Nat
  | [] => 0
  | v :: vs => max v.depth (Json.depthList vs)

/-- The deepest value of a dict's entries. -/
def Json.depthFields : List (String × Json) → Nat
  | [] => 0
  | (_, v) :: fs => max v.depth (Json.depthFields fs)

end

theorem Json.depthList_le_iff {l : Nat} {items : List Json} :
    Json.depthList items ≤ l ↔ ∀ v ∈ items, v.depth ≤ l := by
  induction items with
  | nil => simp [Json.depthList]
  | cons v vs ih => simp [Json.depthList, ih, Nat.max_le]

theorem Json.depthFields_le_iff {l : Nat} {fields : List (String × Json)} :
    Json.depthFields fields ≤ l ↔ ∀ f ∈ fields, f.2.depth ≤ l := by
  induction fields with
  | nil => simp [Json.depthFields]
  | cons f fs ih => obtain ⟨k, v⟩ := f; simp [Json.depthFields, ih, Nat.max_le]

end MiniKV
