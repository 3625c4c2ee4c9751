/-
**Byte strings, as the C++ sources use them.**

A `std::string` is a list of bytes of any value, NUL included. The searches return `none` for
`std::string::npos`. A C string is what stands before the first NUL (`cStr`), and every name that
comes from the operating system is one (`CString`).
-/

import GemCaps.Library.Cutting
import Mathlib.Data.Bool.AllAny
import Mathlib.Data.Nat.Digits.Defs

namespace GemCaps

open Cutting

abbrev Byte := UInt8

/-- `std::string`. -/
abbrev Bytes := List Byte

/-- An ASCII literal of the source. -/
def text (literal : String) : Bytes := literal.toList.map fun letter => UInt8.ofNat letter.toNat

abbrev nul : Byte := 0
abbrev tab : Byte := 9
abbrev lf : Byte := 10
abbrev cr : Byte := 13
abbrev space : Byte := 32
abbrev plus : Byte := 43
abbrev minus : Byte := 45
abbrev dot : Byte := 46
abbrev slash : Byte := 47
abbrev colon : Byte := 58
abbrev equals : Byte := 61
abbrev question : Byte := 63
abbrev backslash : Byte := 92

/-! ### C strings -/

/-- `string::c_str()` as a reader of C strings sees it. -/
def cStr (string : Bytes) : Bytes := before nul string

/-- A C string: no NUL before its end. -/
structure CString where
  bytes : Bytes
  noNul : nul ∉ bytes

instance : DecidableEq CString := fun first second =>
  decidable_of_iff (first.bytes = second.bytes) (by cases first; cases second; simp)

theorem cStr_of_noNul {string : Bytes} (noNul : nul ∉ string) : cStr string = string :=
  before_of_notMem noNul

theorem noNul_cStr (string : Bytes) : nul ∉ cStr string := mark_notMem_before nul string

/-! ### Searching and slicing -/

/-- `string::find(char, start)`. -/
def find (string : Bytes) (letter : Byte) (start : Nat) : Option Nat :=
  ((string.drop start).findIdx? (· == letter)).map (start + ·)

/-- `string::rfind(char)`. -/
def rfind (string : Bytes) (letter : Byte) : Option Nat :=
  (string.reverse.findIdx? (· == letter)).map fun fromEnd => string.length - 1 - fromEnd

/-- The offset of the first occurrence of `pattern`. -/
def search (pattern : Bytes) : Bytes → Option Nat
  | [] => if pattern = [] then some 0 else none
  | letter :: rest =>
    if pattern <+: letter :: rest then some 0 else (search pattern rest).map (· + 1)

/-- `string::find(string, start)`. -/
def findText (string pattern : Bytes) (start : Nat) : Option Nat :=
  if start ≤ string.length then (search pattern (string.drop start)).map (start + ·) else none

/-- `string::substr(start, count)`. -/
def substr (string : Bytes) (start count : Nat) : Bytes := (string.drop start).take count

/-- Subtraction of `size_t` values. -/
def sizeSub (first second : Nat) : Nat := (first + 2 ^ 64 - second) % 2 ^ 64

section Cursor

variable {string front back : Bytes} {letter : Byte} {start : Nat}

theorem find_eq_some (here : string.drop start = front ++ letter :: back)
    (free : letter ∉ front) : find string letter start = some (start + front.length) := by
  rw [find, here, findIdx?_append_cons free, Option.map_some]

theorem find_eq_none (free : letter ∉ string.drop start) : find string letter start = none := by
  rw [find, findIdx?_eq_none free, Option.map_none]

/-- What a successful search says about the text at the cursor. -/
theorem exists_of_find_eq_some {stop : Nat} (found : find string letter start = some stop) :
    ∃ front back, string.drop start = front ++ letter :: back ∧ letter ∉ front ∧
      stop = start + front.length := by
  obtain ⟨index, isIndex, rfl⟩ := Option.map_eq_some_iff.mp found
  obtain ⟨front, back, here, free, rfl⟩ := findIdx?_eq_some isIndex
  exact ⟨front, back, here, free, rfl⟩

theorem find_eq_none_iff : find string letter start = none ↔ letter ∉ string.drop start := by
  refine ⟨fun missing inside => ?_, find_eq_none⟩
  obtain ⟨front, back, here, free⟩ := List.eq_append_cons_of_mem inside
  rw [find_eq_some here free] at missing
  cases missing

/-- The last occurrence of a letter. -/
theorem rfind_append_cons (front : Bytes) {back : Bytes} (free : letter ∉ back) :
    rfind (front ++ letter :: back) letter = some front.length := by
  have none : letter ∉ back.reverse := fun inside => free (List.mem_reverse.mp inside)
  rw [rfind, reverse_append_cons, findIdx?_append_cons none, Option.map_some, List.length_append,
    List.length_cons, List.length_reverse]
  congr 1
  omega

theorem rfind_eq_none (free : letter ∉ string) : rfind string letter = none := by
  have none : letter ∉ string.reverse := fun inside => free (List.mem_reverse.mp inside)
  rw [rfind, findIdx?_eq_none none, Option.map_none]

/-- The text up to a letter and behind it. -/
theorem take_front (front : Bytes) (letter : Byte) (back : Bytes) :
    (front ++ letter :: back).take (front.length + 1) = front ++ [letter] :=
  List.take_length_add_append 1

theorem drop_front (front : Bytes) (letter : Byte) (back : Bytes) :
    (front ++ letter :: back).drop (front.length + 1) = back :=
  List.drop_length_add_append 1

theorem drop_add_length (here : string.drop start = front ++ back) :
    string.drop (start + front.length) = back := by
  rw [← List.drop_drop, here, List.drop_left]

/-- Behind a letter that was found. -/
theorem drop_behind (here : string.drop start = front ++ letter :: back) :
    string.drop (start + front.length + 1) = back := by
  rw [← List.drop_drop, drop_add_length here]
  rfl

theorem substr_eq (here : string.drop start = front ++ back) :
    substr string start (start + front.length - start) = front := by
  rw [substr, Nat.add_sub_cancel_left, here, List.take_left]

end Cursor

/-- The first occurrence of a pattern splits the text, and no earlier place shows the pattern. -/
theorem search_eq_some_iff (pattern string : Bytes) (offset : Nat) :
    search pattern string = some offset ↔
      pattern <+: string.drop offset ∧ offset ≤ string.length ∧
        ∀ earlier < offset, ¬ pattern <+: string.drop earlier := by
  induction string generalizing offset with
  | nil =>
    by_cases empty : pattern = []
    · subst empty
      simp only [search, if_true, Option.some.injEq]
      constructor
      · rintro rfl
        exact ⟨List.nil_prefix, le_rfl, fun earlier small => absurd small (Nat.not_lt_zero _)⟩
      · rintro ⟨_, small, _⟩
        simpa using (Nat.le_zero.mp small).symm
    · simp [search, empty]
  | cons letter rest ih =>
    by_cases here : pattern <+: letter :: rest
    · rw [search, if_pos here, Option.some.injEq]
      constructor
      · rintro rfl
        exact ⟨here, Nat.zero_le _, fun earlier small => absurd small (Nat.not_lt_zero _)⟩
      · rintro ⟨_, _, first⟩
        by_contra positive
        exact first 0 (Nat.pos_of_ne_zero (Ne.symm positive)) here
    · rw [search, if_neg here, Option.map_eq_some_iff]
      constructor
      · rintro ⟨index, found, rfl⟩
        obtain ⟨there, bound, first⟩ := (ih index).mp found
        refine ⟨there, Nat.succ_le_succ bound, fun earlier small => ?_⟩
        cases earlier with
        | zero => exact here
        | succ earlier => exact first earlier (Nat.lt_of_succ_lt_succ small)
      · rintro ⟨there, bound, first⟩
        cases offset with
        | zero => exact absurd there here
        | succ index =>
          exact ⟨index, (ih index).mpr ⟨there, Nat.le_of_succ_le_succ bound, fun earlier small =>
            first (earlier + 1) (Nat.succ_lt_succ small)⟩, rfl⟩

/-- A search succeeds where the pattern occurs. -/
theorem search_isSome_iff (pattern string : Bytes) :
    (search pattern string).isSome = true ↔ pattern <:+: string := by
  induction string with
  | nil =>
    rw [List.infix_nil]
    by_cases empty : pattern = [] <;> simp [search, empty]
  | cons letter rest ih =>
    rw [List.infix_cons_iff, ← ih, search]
    by_cases here : pattern <+: letter :: rest <;> simp [here]

theorem findText_isSome_iff (string pattern : Bytes) (start : Nat) :
    (findText string pattern start).isSome = true ↔
      start ≤ string.length ∧ pattern <:+: string.drop start := by
  unfold findText
  by_cases inside : start ≤ string.length
  · rw [if_pos inside, Option.isSome_map, search_isSome_iff]
    simp [inside]
  · simp [inside]

/-! ### Numbers in decimal -/

/-- `isdigit`. -/
def isDigit (letter : Byte) : Bool := decide (48 ≤ letter) && decide (letter ≤ 57)

/-- `isspace` in the C locale. -/
def isSpace (letter : Byte) : Bool :=
  letter == space || (decide (tab ≤ letter) && decide (letter ≤ cr))

/-- The number a text of decimal digits stands for. -/
def digitsValue (digits : Bytes) : Nat :=
  digits.foldl (fun value digit => 10 * value + (digit.toNat - 48)) 0

/-- `strtol(string, nullptr, 10)` on a platform with a 64-bit `long`: blanks, an optional sign,
digits; a value out of range is cut to the nearest bound. -/
def strtol (string : Bytes) : Int :=
  match (cStr string).dropWhile isSpace with
  | [] => 0
  | letter :: rest =>
    if letter = minus then max (-(digitsValue (rest.takeWhile isDigit) : Int)) (-2 ^ 63)
    else if letter = plus then min (digitsValue (rest.takeWhile isDigit) : Int) (2 ^ 63 - 1)
    else min (digitsValue ((letter :: rest).takeWhile isDigit) : Int) (2 ^ 63 - 1)

/-- `atoi(string)`: the value of `strtol`, converted to a 32-bit `int`. -/
def atoi (string : Bytes) : Int := (strtol string + 2 ^ 31) % 2 ^ 32 - 2 ^ 31

/-- `printf`'s `%d` of a number that is not negative. -/
def decimal (number : Nat) : Bytes :=
  if number = 0 then [48] else (Nat.digits 10 number).reverse.map fun digit => UInt8.ofNat (48 + digit)

theorem isDigit_iff (letter : Byte) : isDigit letter = true ↔ 48 ≤ letter.toNat ∧ letter.toNat ≤ 57 := by
  simp [isDigit, UInt8.le_iff_toNat_le]

/-- A digit is none of the other letters the source looks for. -/
theorem ne_of_isDigit {letter mark : Byte} (digit : isDigit letter = true)
    (other : isDigit mark = false) : letter ≠ mark := by
  rintro rfl
  rw [digit] at other
  cases other

theorem isSpace_of_isDigit {letter : Byte} (digit : isDigit letter = true) :
    isSpace letter = false := by
  have range := (isDigit_iff letter).mp digit
  have notSpace : letter ≠ space := ne_of_isDigit digit (by decide)
  have notControl : ¬ letter ≤ cr := by
    rw [UInt8.le_iff_toNat_le]
    exact fun small => absurd (range.1.trans small) (by decide)
  simp [isSpace, notSpace, notControl]

theorem takeWhile_isDigit {digits rest : Bytes} (areDigits : ∀ digit ∈ digits, isDigit digit = true)
    (stops : ∀ letter, rest.head? = some letter → isDigit letter = false) :
    (digits ++ rest).takeWhile isDigit = digits := by
  rw [List.takeWhile_append_of_pos areDigits]
  cases rest with
  | nil => simp
  | cons letter rest => simp [stops letter rfl]

/-- **`atoi` on a run of digits** that fits an `int`: the value of the digits, whatever follows
them. -/
theorem atoi_digits {digits rest : Bytes} (areDigits : ∀ digit ∈ digits, isDigit digit = true)
    (nonempty : digits ≠ []) (stops : ∀ letter, rest.head? = some letter → isDigit letter = false)
    (small : digitsValue digits < 2 ^ 31) : atoi (digits ++ rest) = digitsValue digits := by
  have noNul : nul ∉ digits := fun inside =>
    ne_of_isDigit (areDigits nul inside) (by decide) rfl
  have cut : cStr (digits ++ rest) = digits ++ cStr rest := before_append_of_notMem noNul rest
  have cutStops : ∀ letter, (cStr rest).head? = some letter → isDigit letter = false := by
    intro letter isHead
    refine stops letter ?_
    obtain ⟨tail, whole⟩ := before_isPrefix nul rest
    have isHead' : (before nul rest).head? = some letter := isHead
    rw [← whole, List.head?_append, isHead', Option.some_or]
  have run := takeWhile_isDigit areDigits cutStops
  obtain ⟨letter, others, rfl⟩ := List.exists_cons_of_ne_nil nonempty
  have first := areDigits letter List.mem_cons_self
  have blank := isSpace_of_isDigit first
  have notMinus : letter ≠ minus := ne_of_isDigit first (by decide)
  have notPlus : letter ≠ plus := ne_of_isDigit first (by decide)
  have value : strtol (letter :: others ++ rest) = digitsValue (letter :: others) := by
    rw [List.cons_append] at cut run
    have start : (letter :: (others ++ cStr rest)).dropWhile isSpace =
        letter :: (others ++ cStr rest) := by simp [blank]
    simp only [strtol, List.cons_append, cut, start, if_neg notMinus, if_neg notPlus, run]
    omega
  rw [atoi, value]
  omega

theorem atoi_of_digits {digits : Bytes} (areDigits : ∀ digit ∈ digits, isDigit digit = true)
    (nonempty : digits ≠ []) (small : digitsValue digits < 2 ^ 31) :
    atoi digits = digitsValue digits := by
  have stops : ∀ letter, ([] : Bytes).head? = some letter → isDigit letter = false := by simp
  simpa using atoi_digits areDigits nonempty stops small

/-- `atoi` finds no number where the text starts with another letter. -/
theorem atoi_eq_zero {letter : Byte} (rest : Bytes) (notNul : letter ≠ nul)
    (notSpace : isSpace letter = false) (notMinus : letter ≠ minus) (notPlus : letter ≠ plus)
    (notDigit : isDigit letter = false) : atoi (letter :: rest) = 0 := by
  have single : nul ∉ [letter] := by simpa using Ne.symm notNul
  have cut : cStr (letter :: rest) = letter :: cStr rest := before_append_of_notMem single rest
  have start : (letter :: cStr rest).dropWhile isSpace = letter :: cStr rest := by simp [notSpace]
  have run : (letter :: cStr rest).takeWhile isDigit = [] := by simp [notDigit]
  have value : strtol (letter :: rest) = 0 := by
    simp only [strtol, cut, start, if_neg notMinus, if_neg notPlus, run]
    rfl
  rw [atoi, value]
  rfl

theorem digitsValue_reverse_map (digits : List Nat) (small : ∀ digit ∈ digits, digit < 10) :
    digitsValue (digits.reverse.map fun digit => UInt8.ofNat (48 + digit)) =
      Nat.ofDigits 10 digits := by
  induction digits with
  | nil => rfl
  | cons digit digits ih =>
    have rest := ih fun other inside => small other (List.mem_cons_of_mem _ inside)
    have here := small digit List.mem_cons_self
    have letter : (UInt8.ofNat (48 + digit)).toNat = 48 + digit :=
      UInt8.toNat_ofNat_of_lt' (by simp only [UInt8.size]; omega)
    rw [digitsValue] at rest
    rw [digitsValue, List.reverse_cons, List.map_append, List.foldl_append, rest, List.map_singleton,
      List.foldl_cons, List.foldl_nil, letter, Nat.ofDigits_cons]
    omega

/-- The decimal text of a number is a run of digits with that value. -/
theorem decimal_spec (number : Nat) :
    (∀ digit ∈ decimal number, isDigit digit = true) ∧ digitsValue (decimal number) = number := by
  unfold decimal
  by_cases zero : number = 0
  · subst zero
    exact ⟨List.all_iff_forall_prop.mp (by decide), by decide⟩
  · have small : ∀ digit ∈ Nat.digits 10 number, digit < 10 :=
      fun digit inside => Nat.digits_lt_base (by decide) inside
    rw [if_neg zero]
    refine ⟨fun letter inside => ?_, ?_⟩
    · obtain ⟨digit, member, rfl⟩ := List.mem_map.mp inside
      have bound := small digit (List.mem_reverse.mp member)
      rw [isDigit_iff, UInt8.toNat_ofNat_of_lt' (by simp only [UInt8.size]; omega)]
      omega
    · rw [digitsValue_reverse_map _ small, Nat.ofDigits_digits]

end GemCaps
