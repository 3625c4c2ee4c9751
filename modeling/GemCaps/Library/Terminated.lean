/-
**A text in a fixed array, up to a stop letter.**

`Buffer stop capacity` is an array of `capacity + 1` cells that holds a stop letter; its text is what
stands before the first one. `append` writes behind the text, cell by cell, and has no result when a
cell lies outside of the array. `Writes result text` says what a chain of such calls ends with: the
text, or nothing when the text is longer than the array has room for (`writes_append`).
-/

import GemCaps.Library.Cutting

namespace Terminated

open Cutting

variable {α : Type} {cells next items : List α} {pos : Nat}

/-- Write these letters from this cell on; `none` when a cell lies outside. -/
def overwrite : List α → Nat → List α → Option (List α)
  | cells, _, [] => some cells
  | cells, pos, a :: items =>
    if pos < cells.length then overwrite (cells.set pos a) (pos + 1) items else none

/-- **What the writes leave behind.** -/
theorem overwrite_eq_some (fits : pos + items.length ≤ cells.length) :
    overwrite cells pos items =
      some (cells.take pos ++ items ++ cells.drop (pos + items.length)) := by
  induction items generalizing cells pos with
  | nil => simp [overwrite]
  | cons a items ih =>
    rw [List.length_cons] at fits
    have inside : pos < cells.length := by omega
    have there : pos + 1 + items.length ≤ (cells.set pos a).length := by
      rw [List.length_set]
      omega
    have front : (cells.set pos a).take (pos + 1) = cells.take pos ++ [a] := by
      rw [List.take_add_one, List.take_set_of_le (Nat.le_refl pos), List.getElem?_set_self inside]
      rfl
    have back : (cells.set pos a).drop (pos + 1 + items.length) =
        cells.drop (pos + (items.length + 1)) := by
      rw [List.drop_set_of_lt (by omega)]
      congr 1
      omega
    rw [overwrite, if_pos inside, ih there, front, back, List.length_cons]
    simp

theorem overwrite_eq_none (inside : pos ≤ cells.length)
    (overflows : cells.length < pos + items.length) : overwrite cells pos items = none := by
  induction items generalizing cells pos with
  | nil => exact absurd overflows (by rw [List.length_nil]; omega)
  | cons a items ih =>
    rw [overwrite]
    split
    · refine ih ?_ ?_
      · rw [List.length_set]
        omega
      · rw [List.length_set]
        rw [List.length_cons] at overflows
        omega
    · rfl

section Buffers

variable [DecidableEq α]

/-- An array with a stop letter. -/
structure Buffer (stop : α) (capacity : Nat) where
  cells : List α
  length_cells : cells.length = capacity + 1
  stop_mem : stop ∈ cells

namespace Buffer

variable {stop : α} {capacity : Nat}

/-- Nothing but stop letters. -/
def empty (stop : α) (capacity : Nat) : Buffer stop capacity :=
  ⟨List.replicate (capacity + 1) stop, List.length_replicate,
    List.mem_replicate.mpr ⟨Nat.succ_ne_zero capacity, rfl⟩⟩

variable (buffer : Buffer stop capacity)

/-- What stands before the first stop letter. -/
def text : List α := before stop buffer.cells

theorem text_empty : (empty stop capacity).text = [] := by
  simp [text, empty, before, List.replicate_succ]

/-- A stop letter is left behind the text. -/
theorem length_text_le : buffer.text.length ≤ capacity := by
  obtain ⟨front, back, split, free⟩ := List.eq_append_cons_of_mem buffer.stop_mem
  have count := buffer.length_cells
  rw [split, List.length_append, List.length_cons] at count
  rw [text, split, before_append_cons free]
  omega

/-- Where the text ends there is a cell. -/
theorem length_text_lt : buffer.text.length < buffer.cells.length := by
  rw [buffer.length_cells]
  exact Nat.lt_succ_of_le buffer.length_text_le

theorem take_length_text : buffer.cells.take buffer.text.length = buffer.text :=
  (List.prefix_iff_eq_take.mp (before_isPrefix stop buffer.cells)).symm

/-- The letters and a stop letter behind the text, as a list of cells. -/
theorem overwrite_text {items cells : List α}
    (written : overwrite buffer.cells buffer.text.length (items ++ [stop]) = some cells) :
    buffer.text.length + items.length ≤ capacity ∧
      cells = buffer.text ++ items ++
        stop :: buffer.cells.drop (buffer.text.length + (items.length + 1)) := by
  have count := buffer.length_cells
  by_cases fits : buffer.text.length + items.length ≤ capacity
  · refine ⟨fits, ?_⟩
    rw [overwrite_eq_some (by rw [List.length_append, List.length_singleton]; omega),
      buffer.take_length_text, Option.some.injEq] at written
    rw [← written]
    simp
  · rw [overwrite_eq_none buffer.length_text_lt.le
      (by rw [List.length_append, List.length_singleton]; omega)] at written
    cases written

/-- The writes keep the length of the array, and leave a stop letter in it. -/
theorem kept_of_overwrite {items cells : List α}
    (written : overwrite buffer.cells buffer.text.length (items ++ [stop]) = some cells) :
    cells.length = capacity + 1 ∧ stop ∈ cells := by
  obtain ⟨fits, isCells⟩ := buffer.overwrite_text written
  have count := buffer.length_cells
  constructor
  · rw [isCells]
    simp only [List.length_append, List.length_cons, List.length_drop]
    omega
  · simp [isCells]

/-- Write the letters behind the text, and a stop letter behind them. -/
def append (items : List α) : Option (Buffer stop capacity) :=
  match written : overwrite buffer.cells buffer.text.length (items ++ [stop]) with
  | none => none
  | some cells =>
    some ⟨cells, (buffer.kept_of_overwrite written).1, (buffer.kept_of_overwrite written).2⟩

/-- **One call of `append`.** -/
theorem append_cases {items : List α} (free : stop ∉ items) :
    buffer.append items = none ∧ capacity < buffer.text.length + items.length ∨
      ∃ next, buffer.append items = some next ∧ next.text = buffer.text ++ items := by
  have count := buffer.length_cells
  have length : (items ++ [stop]).length = items.length + 1 := List.length_append
  unfold append
  split
  next missing =>
    refine .inl ⟨rfl, ?_⟩
    by_contra fits
    rw [overwrite_eq_some (by omega)] at missing
    cases missing
  next cells written =>
    obtain ⟨_, isCells⟩ := buffer.overwrite_text written
    have stopFree : stop ∉ buffer.text ++ items := fun inside =>
      (List.mem_append.mp inside).elim (mark_notMem_before stop buffer.cells) free
    refine .inr ⟨_, rfl, ?_⟩
    show before stop cells = buffer.text ++ items
    rw [isCells, before_append_cons stopFree]

end Buffer

open Buffer

variable {stop : α} {capacity : Nat} {result : Option (Buffer stop capacity)} {letters : List α}

/-- What a chain of calls ends with: a buffer with this text, or nothing when it is too long. -/
inductive Writes : Option (Buffer stop capacity) → List α → Prop
  | whole (buffer : Buffer stop capacity) : Writes (some buffer) buffer.text
  | overflow {letters : List α} (long : capacity < letters.length) : Writes none letters

theorem writes_empty : Writes (some (Buffer.empty stop capacity)) [] :=
  (text_empty : (Buffer.empty stop capacity).text = []) ▸ .whole (Buffer.empty stop capacity)

/-- **One call more.** -/
theorem writes_append (writes : Writes result letters) (free : stop ∉ items) :
    Writes (result.bind fun buffer => buffer.append items) (letters ++ items) := by
  cases writes with
  | overflow long =>
    refine .overflow ?_
    rw [List.length_append]
    omega
  | whole buffer =>
    rw [Option.bind_some]
    rcases buffer.append_cases free with ⟨missing, long⟩ | ⟨next, appended, isNext⟩
    · rw [missing]
      refine .overflow ?_
      rwa [List.length_append]
    · rw [appended, ← isNext]
      exact .whole next

/-- **The calls have a result exactly when there is room for the text.** -/
theorem Writes.isSome_iff (writes : Writes result letters) :
    result.isSome = true ↔ letters.length ≤ capacity := by
  cases writes with
  | whole buffer => simp [buffer.length_text_le]
  | overflow long => simp [long]

end Buffers

end Terminated
