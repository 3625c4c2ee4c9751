/-
**Which integers `append(int)` can write** (`stringutil.hpp`).

The digit buffer `valbuf` has 10 cells, enough for the digits of every `int`, but not for a sign behind
10 digits. `appendInt_iff`: where the text has room, `append(value)` adds the canonical decimal text
exactly when a negative value has at most 9 digits. `canonical_iff` says that this text is the only one
with its value and without a leading zero.
-/

import GemCaps.Request.Literal

namespace GemCaps

open Terminated

namespace StringLiteral

variable {size : Nat} {letters : Bytes} {value : Nat}

/-! ### Canonical texts -/

/-- Decimal digits with this value, the first of them not `0` unless it is the only one. -/
structure Canonical (letters : Bytes) (value : Nat) : Prop where
  nonempty : letters ≠ []
  areDigits : ∀ letter ∈ letters, isDigit letter = true
  noLeadingZero : 1 < letters.length → letters.head? ≠ some 48
  value : digitsValue letters = value

/-- The canonical text of an integer. -/
def signed (value : Int) : Bytes :=
  if value < 0 then minus :: decimal value.natAbs else decimal value.natAbs

theorem decimal_ne_nil (value : Nat) : decimal value ≠ [] := by
  by_cases more : value / 10 = 0
  · rw [decimal_of_lt (by omega)]
    exact List.cons_ne_nil _ _
  · rw [decimal_of_div more]
    exact List.append_ne_nil_of_right_ne_nil _ (List.cons_ne_nil _ _)

theorem digit_toNat (value : Nat) : (digit value).toNat = 48 + value % 10 :=
  UInt8.toNat_ofNat_of_lt' (by simp only [UInt8.size]; omega)

/-- The digits start with `0` for 0 alone. -/
theorem head?_decimal (positive : 0 < value) : (decimal value).head? ≠ some 48 := by
  induction value using Nat.strong_induction_on with
  | _ value ih =>
    by_cases more : value / 10 = 0
    · have single : value < 10 := by omega
      rw [decimal_of_lt single, List.head?_cons, ne_eq, Option.some.injEq]
      intro isZero
      have letter := digit_toNat value
      rw [isZero, Nat.mod_eq_of_lt single] at letter
      have zero : (48 : Byte).toNat = 48 := rfl
      omega
    · rw [decimal_of_div more, List.head?_append_of_ne_nil _ (decimal_ne_nil _)]
      exact ih (value / 10) (by omega) (Nat.pos_of_ne_zero more)

theorem canonical_decimal (value : Nat) : Canonical (decimal value) value := by
  obtain ⟨areDigits, isValue⟩ := decimal_spec value
  refine ⟨decimal_ne_nil value, areDigits, fun long => ?_, isValue⟩
  refine head?_decimal (Nat.pos_of_ne_zero ?_)
  rintro rfl
  exact absurd long (Nat.lt_irrefl 1)

theorem digitsValue_append_singleton (front : Bytes) (last : Byte) :
    digitsValue (front ++ [last]) = 10 * digitsValue front + (last.toNat - 48) := by
  rw [digitsValue, List.foldl_append]
  rfl

/-- A digit is the character of its number. -/
theorem digit_sub {last : Byte} (isDigit : isDigit last = true) (front : Nat) :
    digit (10 * front + (last.toNat - 48)) = last := by
  obtain ⟨low, high⟩ := (isDigit_iff last).mp isDigit
  apply UInt8.toNat_inj.mp
  rw [digit_toNat]
  omega

/-- **The canonical text of a number is unique.** -/
theorem Canonical.eq_decimal (canonical : Canonical letters value) : letters = decimal value := by
  induction letters using List.reverseRecOn generalizing value with
  | nil => exact absurd rfl canonical.nonempty
  | append_singleton front last ih =>
    have isValue := canonical.value
    rw [digitsValue_append_singleton] at isValue
    have lastDigit : isDigit last = true := canonical.areDigits last (by simp)
    have isLast : digit value = last := isValue ▸ digit_sub lastDigit (digitsValue front)
    have small : last.toNat - 48 < 10 := by
      have range := (isDigit_iff last).mp lastDigit
      omega
    by_cases single : front = []
    · subst single
      rw [decimal_of_lt (by rw [← isValue]; simpa [digitsValue] using small), isLast]
      rfl
    · have positive := List.length_pos_iff.mpr single
      have noZero : front.head? ≠ some 48 := by
        have sameHead : (front ++ [last]).head? = front.head? :=
          List.head?_append_of_ne_nil front single
        rw [← sameHead]
        exact canonical.noLeadingZero (by rw [List.length_append, List.length_singleton]; omega)
      have isFront : front = decimal (digitsValue front) :=
        ih ⟨single, fun letter inside => canonical.areDigits letter (List.mem_append_left _ inside),
          fun _ => noZero, rfl⟩
      have quotient : value / 10 = digitsValue front := by omega
      have more : value / 10 ≠ 0 := by
        intro zero
        rw [← quotient, zero] at isFront
        exact noZero (isFront ▸ rfl)
      rw [decimal_of_div more, quotient, ← isFront, isLast]

theorem canonical_iff : Canonical letters value ↔ letters = decimal value :=
  ⟨Canonical.eq_decimal, fun same => same ▸ canonical_decimal value⟩

/-! ### The digit buffer -/

variable (literal : StringLiteral size)

/-- A negative number of at most 9 digits leaves a cell for the sign. -/
theorem appendInt_of_lt {value : Int} (small : -10 ^ 9 < value) (isInt : value < 2 ^ 31) :
    appendInt literal value = Buffer.append literal (signed value) := by
  have notLeast : value ≠ -2 ^ 31 := by omega
  have digits : value.natAbs < 10 ^ 10 := by omega
  rw [appendInt, if_neg notLeast, fillDigits_eq_some (length_decimal_le (by decide) digits),
    Option.bind_some, List.nil_append, signed]
  by_cases negative : value < 0
  · have room : (decimal value.natAbs).length ≤ 9 :=
      length_decimal_le (by decide) (by omega)
    rw [if_pos negative, if_pos negative, List.length_reverse, if_pos (Nat.lt_succ_of_le room),
      List.reverse_append, List.reverse_reverse]
    rfl
  · rw [if_neg negative, if_neg negative, List.reverse_reverse]

/-- The sign of a longer one is written behind the digit buffer. -/
theorem appendInt_eq_none {value : Int} (long : value ≤ -10 ^ 9) (isInt : -2 ^ 31 ≤ value) :
    appendInt literal value = none := by
  by_cases least : value = -2 ^ 31
  · rw [appendInt, if_pos least]
  · have digits : value.natAbs < 10 ^ 10 := by omega
    have full : 9 < (decimal value.natAbs).length := by
      have positive : value.natAbs ≠ 0 := by omega
      rw [decimal, if_neg positive, List.length_map, List.length_reverse,
        Nat.lt_digits_length_iff (by decide)]
      omega
    have negative : value < 0 := by omega
    rw [appendInt, if_neg least, fillDigits_eq_some (length_decimal_le (by decide) digits),
      Option.bind_some, List.nil_append, if_pos negative, List.length_reverse,
      if_neg (Nat.not_lt.mpr full)]

theorem nul_notMem_signed (value : Int) : nul ∉ signed value := by
  unfold signed
  split
  · intro inside
    exact (List.mem_cons.mp inside).elim (fun same => absurd same (by decide))
      (nul_notMem_decimal _)
  · exact nul_notMem_decimal _

/-- **Which integers are written as they are.** -/
theorem appendInt_iff {value : Int} (isInt : -2 ^ 31 ≤ value ∧ value < 2 ^ 31)
    (room : literal.text.length + (signed value).length ≤ size) :
    (∃ next, appendInt literal value = some next ∧ next.text = literal.text ++ signed value) ↔
      -10 ^ 9 < value := by
  constructor
  · rintro ⟨next, appended, _⟩
    by_contra long
    rw [appendInt_eq_none literal (Int.not_lt.mp long) isInt.1] at appended
    cases appended
  · intro small
    rw [appendInt_of_lt literal small isInt.2]
    rcases literal.append_cases (nul_notMem_signed value) with ⟨_, long⟩ | appended
    · exact absurd room (Nat.not_le.mpr long)
    · exact appended

theorem appendInt_iff_negative :
    (∃ next, appendInt (Buffer.empty nul 10) (-999999999) = some next ∧
        next.text = (Buffer.empty nul 10).text ++ signed (-999999999)) ↔
      (-10 ^ 9 : Int) < -999999999 :=
  appendInt_iff (Buffer.empty nul 10) (by decide) (by decide)

/-- Ten digits and a sign, though the text has room for them. -/
theorem appendInt_overflows :
    (Buffer.empty nul 20).text.length + (signed (-1000000000)).length ≤ 20 ∧
      appendInt (Buffer.empty nul 20) (-1000000000) = none := by
  refine ⟨by decide, appendInt_eq_none _ (by decide) (by decide)⟩

end StringLiteral

end GemCaps
