/-
**String literals** (`stringutil.hpp`, and `responseHeader` of `handler.hpp`).

A `StringLiteral<Size>` is an array of `Size + 1` characters that holds a NUL. `append` writes behind
the text without looking at `Size`; `none` stands for a character written outside of the array, and
for a null pointer that is read. `responseHeader_writes` connects the array with the text that
`responseHeader` stands for.
-/

import GemCaps.Library.Terminated
import GemCaps.Request.Response
import Mathlib.Data.Nat.Digits.Lemmas

namespace GemCaps

open Terminated

/-- `StringLiteral<Size>`. -/
abbrev StringLiteral (size : Nat) := Buffer nul size

namespace StringLiteral

variable {size : Nat}

/-- `StringLiteral::append(const char *)`; `none` is the null pointer. -/
def append (literal : StringLiteral size) (added : Option CString) : Option (StringLiteral size) :=
  added.bind fun added => Buffer.append literal added.bytes

/-- The character of a digit. -/
def digit (value : Nat) : Byte := UInt8.ofNat (48 + value % 10)

/-- The loop that fills `valbuf` from the last digit on, with this many cells left. -/
def fillDigits : Nat → Nat → Bytes → Option Bytes
  | 0, _, _ => none
  | room + 1, value, valbuf =>
    if value / 10 ≠ 0 then fillDigits room (value / 10) (valbuf ++ [digit value])
    else some (valbuf ++ [digit value])

/-- `StringLiteral::append(int)`. The smallest `int` has no negative, and `valbuf` has 10 cells. -/
def appendInt (literal : StringLiteral size) (value : Int) : Option (StringLiteral size) :=
  if value = -2 ^ 31 then none
  else
    (fillDigits 10 value.natAbs []).bind fun valbuf =>
      if value < 0 then
        if valbuf.length < 10 then Buffer.append literal (valbuf ++ [minus]).reverse else none
      else Buffer.append literal valbuf.reverse

/-- `responseHeader<Size>(response, meta)`. -/
def responseHeader (size : Nat) (response : Int) (metaText : Option CString) :
    Option (StringLiteral size) :=
  ((((some (Buffer.empty nul size)).bind fun builder => appendInt builder response).bind fun builder =>
    append builder (some ⟨[space], by decide⟩)).bind fun builder =>
      append builder metaText).bind fun builder =>
        append builder (some ⟨crlf, by decide⟩)

/-! ### The digits -/

theorem decimal_of_lt {value : Nat} (small : value < 10) : decimal value = [digit value] := by
  unfold decimal
  by_cases zero : value = 0
  · subst zero
    rfl
  · rw [if_neg zero, Nat.digits_of_lt 10 value zero small, digit, Nat.mod_eq_of_lt small]
    rfl

theorem decimal_of_div {value : Nat} (more : value / 10 ≠ 0) :
    decimal value = decimal (value / 10) ++ [digit value] := by
  have positive : 0 < value := Nat.pos_of_ne_zero fun zero => more (by rw [zero])
  unfold decimal
  rw [if_neg positive.ne', if_neg more, Nat.digits_def' (by decide) positive]
  simp [digit]

/-- **The loop writes the decimal text backwards**, where there are cells enough. -/
theorem fillDigits_eq_some {room value : Nat} (enough : (decimal value).length ≤ room)
    (valbuf : Bytes) :
    fillDigits room value valbuf = some (valbuf ++ (decimal value).reverse) := by
  induction room generalizing value valbuf with
  | zero =>
    by_cases more : value / 10 = 0
    · rw [decimal_of_lt (by omega)] at enough
      exact absurd enough (Nat.not_succ_le_zero 0)
    · rw [decimal_of_div more, List.length_append, List.length_singleton] at enough
      exact absurd enough (Nat.not_succ_le_zero _)
  | succ room ih =>
    rw [fillDigits]
    by_cases more : value / 10 = 0
    · rw [if_neg (not_not.mpr more), decimal_of_lt (by omega)]
      rfl
    · have step := decimal_of_div more
      rw [step, List.length_append, List.length_singleton] at enough
      rw [if_pos more, ih (Nat.le_of_succ_le_succ enough), step]
      simp

theorem length_decimal_le {value count : Nat} (positive : 0 < count) (small : value < 10 ^ count) :
    (decimal value).length ≤ count := by
  unfold decimal
  by_cases zero : value = 0
  · rw [if_pos zero]
    exact positive
  · rw [if_neg zero, List.length_map, List.length_reverse]
    exact (Nat.digits_length_le_iff (by decide) value).mpr small

theorem nul_notMem_decimal (value : Nat) : nul ∉ decimal value := fun inside =>
  ne_of_isDigit ((decimal_spec value).1 nul inside) (by decide) rfl

/-! ### What is written -/

variable {result : Option (StringLiteral size)} {letters : Bytes}

theorem append_writes (writes : Writes result letters) (added : CString) :
    Writes (result.bind fun literal => append literal (some added)) (letters ++ added.bytes) :=
  writes_append writes added.noNul

/-- A number that is not negative. -/
theorem appendInt_writes (writes : Writes result letters) {value : Nat} (isInt : value < 2 ^ 31) :
    Writes (result.bind fun literal => appendInt literal value) (letters ++ decimal value) := by
  have small : value < 10 ^ 10 := isInt.trans (by decide)
  have appends : ∀ literal : StringLiteral size,
      appendInt literal value = Buffer.append literal (decimal value) := by
    intro literal
    have notLeast : ((value : Nat) : Int) ≠ -2 ^ 31 := by omega
    have notNegative : ¬ ((value : Nat) : Int) < 0 := by omega
    rw [appendInt, if_neg notLeast, Int.natAbs_natCast,
      fillDigits_eq_some (length_decimal_le (by decide) small), Option.bind_some,
      if_neg notNegative, List.nil_append, List.reverse_reverse]
  simp only [appends]
  exact writes_append writes (nul_notMem_decimal value)

/-- **A header is the text it stands for, or has no room.** -/
theorem responseHeader_writes {response : Nat} (isInt : response < 2 ^ 31) (metaText : CString) :
    Writes (responseHeader size response (some metaText))
      (GemCaps.responseHeader response metaText.bytes) := by
  have fresh : Writes (some (Buffer.empty nul size)) [] := writes_empty
  have code := appendInt_writes fresh isInt
  have whole := append_writes (append_writes (append_writes code ⟨[space], by decide⟩) metaText)
    ⟨crlf, by decide⟩
  have isText : GemCaps.responseHeader response metaText.bytes =
      [] ++ decimal response ++ [space] ++ metaText.bytes ++ crlf := by
    rw [GemCaps.responseHeader, cStr_of_noNul metaText.noNul]
    simp
  rw [isText]
  exact whole

/-- **When a header has room** for the code, the meta text, and three characters besides. -/
theorem responseHeader_isSome_iff {response : Nat} (isInt : response < 2 ^ 31) (metaText : CString) :
    (responseHeader size response (some metaText)).isSome = true ↔
      (decimal response).length + metaText.bytes.length + 3 ≤ size := by
  rw [(responseHeader_writes isInt metaText).isSome_iff, GemCaps.responseHeader,
    cStr_of_noNul metaText.noNul, List.length_append, List.length_cons, List.length_append]
  have ends : crlf.length = 2 := rfl
  omega

example : (responseHeader 8 20 (some ⟨text "ab", by decide⟩)).map Buffer.text =
    some (text "20 ab\r\n") := by decide

/-- The null pointer is read. -/
theorem responseHeader_null (response : Int) : responseHeader size response none = none := by
  unfold responseHeader append
  simp

end StringLiteral

end GemCaps
