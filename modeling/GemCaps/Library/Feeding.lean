/-
**A reader that is fed in pieces and decides on what it has so far.**

`feed decide read pieces` is the first decision on the text read so far, after each piece. The reader
of a line (`lineDecision`) first refuses a text that is longer than its limit and then settles the
line up to its first mark; letters behind the mark count for the limit as long as they come in the
same piece. `feed_line`: its decision depends on the line and on how much was read when the mark came
(`arrived`), and on nothing else.
-/

import GemCaps.Library.Cutting

namespace Feeding

open Cutting

variable {α δ : Type}

/-- The first decision, looked for after each piece. -/
def feed (decide : List α → Option δ) : List α → List (List α) → Option δ
  | _, [] => none
  | read, piece :: pieces => (decide (read ++ piece)).or (feed decide (read ++ piece) pieces)

@[simp] theorem feed_nil (decide : List α → Option δ) (read : List α) :
    feed decide read [] = none := rfl

theorem feed_cons (decide : List α → Option δ) (read piece : List α) (pieces : List (List α)) :
    feed decide read (piece :: pieces) =
      (decide (read ++ piece)).or (feed decide (read ++ piece) pieces) := rfl

/-- The pieces of two stretches. -/
theorem feed_append (decide : List α → Option δ) (read : List α) (first second : List (List α)) :
    feed decide read (first ++ second) =
      (feed decide read first).or (feed decide (read ++ first.flatten) second) := by
  induction first generalizing read with
  | nil => simp
  | cons piece first ih =>
    rw [List.cons_append, feed_cons, feed_cons, ih, Option.or_assoc, List.flatten_cons,
      List.append_assoc]

variable [DecidableEq α]

/-- How much has been read when the first mark has come. -/
def arrived (mark : α) : List (List α) → Nat
  | [] => 0
  | piece :: pieces => piece.length + if mark ∈ piece then 0 else arrived mark pieces

/-- The text up to its first mark, and the mark. -/
def line (mark : α) (text : List α) : List α := before mark text ++ [mark]

/-- Refuse a text over the limit; otherwise settle its line once the mark is there. -/
def lineDecision (limit : Nat) (mark : α) (refuse : δ) (settle : List α → δ) (read : List α) :
    Option δ :=
  if limit < read.length then some refuse
  else if mark ∈ read then some (settle (line mark read)) else none

theorem line_append {mark : α} {front : List α} (inside : mark ∈ front) (back : List α) :
    line mark (front ++ back) = line mark front := by
  rw [line, line, before_append_of_mem inside]

/-- **The decision on a line that comes in pieces.** -/
theorem feed_line {limit : Nat} {mark : α} (refuse : δ) (settle : List α → δ) {read : List α}
    {pieces : List (List α)} (unmarked : mark ∉ read) (comes : mark ∈ pieces.flatten) :
    feed (lineDecision limit mark refuse settle) read pieces =
      some (if read.length + arrived mark pieces ≤ limit then
        settle (line mark (read ++ pieces.flatten)) else refuse) := by
  induction pieces generalizing read with
  | nil => exact absurd comes List.not_mem_nil
  | cons piece pieces ih =>
    rw [feed_cons, lineDecision, List.length_append, arrived, List.flatten_cons]
    by_cases here : mark ∈ piece
    · have inside : mark ∈ read ++ piece := List.mem_append_right _ here
      rw [if_pos here, if_pos inside, Nat.add_zero, ← List.append_assoc, line_append inside]
      by_cases long : limit < read.length + piece.length
      · rw [if_pos long, if_neg (Nat.not_le.mpr long)]
        rfl
      · rw [if_neg long, if_pos (Nat.not_lt.mp long)]
        rfl
    · have later : mark ∈ pieces.flatten :=
        (List.mem_append.mp (List.flatten_cons ▸ comes)).resolve_left here
      have still : mark ∉ read ++ piece := fun inside =>
        (List.mem_append.mp inside).elim unmarked here
      rw [if_neg here, if_neg still]
      by_cases long : limit < read.length + piece.length
      · rw [if_pos long, if_neg (by omega)]
        rfl
      · rw [if_neg long, Option.none_or, ih still later, List.length_append, List.append_assoc,
          Nat.add_assoc]

end Feeding
