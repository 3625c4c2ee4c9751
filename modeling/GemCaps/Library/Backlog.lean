/-
**A queue that every arrival drains by a bounded amount.**

Each arrival is appended to the queue, and then at most `capacity` letters leave at the front
(`transfer`). Nothing is lost or reordered: what has left followed by what waits is always the
concatenation of the arrivals (`transferAll_conserves`). What waits is governed by lengths alone
(`length_transferAll`), and nothing waits at the end exactly when every final stretch of the
arrivals fits into the capacity of its own drains (`transferAll_drained_iff`).
-/

import Mathlib.Algebra.GroupWithZero.Nat
import Mathlib.Data.List.Basic
import Mathlib.Data.List.Infix

namespace Backlog

/-! ### Lengths -/

/-- How much waits after the arrivals, of which each is followed by one drain. -/
def backlog (capacity : Nat) : Nat → List Nat → Nat
  | waiting, [] => waiting
  | waiting, arrival :: arrivals => backlog capacity (waiting + arrival - capacity) arrivals

theorem backlog_eq_zero_iff_of_waiting (capacity waiting : Nat) (arrivals : List Nat) :
    backlog capacity waiting arrivals = 0 ↔
      waiting + arrivals.sum ≤ capacity * arrivals.length ∧
        ∀ recent, recent <:+ arrivals → recent.sum ≤ capacity * recent.length := by
  induction arrivals generalizing waiting with
  | nil => simp [backlog]
  | cons arrival arrivals ih =>
    rw [backlog, ih]
    have step : capacity * (arrivals.length + 1) = capacity * arrivals.length + capacity :=
      Nat.mul_succ _ _
    simp only [List.sum_cons, List.length_cons, step]
    constructor
    · rintro ⟨room, recentFit⟩
      have whole := recentFit arrivals List.suffix_rfl
      refine ⟨by omega, fun recent suffix => ?_⟩
      rcases List.suffix_cons_iff.mp suffix with rfl | later
      · simp only [List.sum_cons, List.length_cons, step]
        omega
      · exact recentFit recent later
    · rintro ⟨room, recentFit⟩
      have whole := recentFit arrivals (List.suffix_cons _ _)
      exact ⟨by omega, fun recent suffix => recentFit recent (suffix.trans (List.suffix_cons _ _))⟩

/-- **Nothing waits at the end** exactly when every final stretch of the arrivals fits. -/
theorem backlog_eq_zero_iff (capacity : Nat) (arrivals : List Nat) :
    backlog capacity 0 arrivals = 0 ↔
      ∀ recent, recent <:+ arrivals → recent.sum ≤ capacity * recent.length := by
  rw [backlog_eq_zero_iff_of_waiting]
  exact ⟨fun both => both.2, fun fit => ⟨by simpa using fit arrivals List.suffix_rfl, fit⟩⟩

/-! ### Letters -/

variable {α : Type}

/-- One arrival: append it to the queue (first component), then let at most `capacity` letters
leave (second component: all that has left). -/
def transfer (capacity : Nat) (state : List α × List α) (arrival : List α) : List α × List α :=
  ((state.1 ++ arrival).drop capacity, state.2 ++ (state.1 ++ arrival).take capacity)

/-- All arrivals, one after the other. -/
def transferAll (capacity : Nat) (state : List α × List α) (arrivals : List (List α)) :
    List α × List α :=
  arrivals.foldl (transfer capacity) state

/-- **Nothing is lost or reordered.** -/
theorem transferAll_conserves (capacity : Nat) (state : List α × List α)
    (arrivals : List (List α)) :
    (transferAll capacity state arrivals).2 ++ (transferAll capacity state arrivals).1 =
      state.2 ++ state.1 ++ arrivals.flatten := by
  induction arrivals generalizing state with
  | nil => simp [transferAll]
  | cons arrival arrivals ih =>
    calc (transferAll capacity state (arrival :: arrivals)).2 ++
          (transferAll capacity state (arrival :: arrivals)).1
        = (transfer capacity state arrival).2 ++ (transfer capacity state arrival).1 ++
            arrivals.flatten := ih (transfer capacity state arrival)
      _ = state.2 ++ state.1 ++ (arrival :: arrivals).flatten := by
          simp only [transfer, List.append_assoc, List.flatten_cons]
          rw [← List.append_assoc (List.take _ _), List.take_append_drop, List.append_assoc]

theorem length_transferAll (capacity : Nat) (state : List α × List α)
    (arrivals : List (List α)) :
    (transferAll capacity state arrivals).1.length =
      backlog capacity state.1.length (arrivals.map List.length) := by
  induction arrivals generalizing state with
  | nil => rfl
  | cons arrival arrivals ih =>
    have one : (transfer capacity state arrival).1.length =
        state.1.length + arrival.length - capacity := by
      simp [transfer]
    rw [List.map_cons, backlog, ← one]
    exact ih (transfer capacity state arrival)

/-- **Everything has left** exactly when every final stretch of the arrivals fits into the
capacity of its own drains. -/
theorem transferAll_drained_iff (capacity : Nat) (arrivals : List (List α)) :
    (transferAll capacity ([], []) arrivals).2 = arrivals.flatten ↔
      ∀ recent, recent <:+ arrivals → recent.flatten.length ≤ capacity * recent.length := by
  have conserved := transferAll_conserves capacity ([], []) arrivals
  have waiting := length_transferAll capacity ([], []) arrivals
  simp only [List.nil_append, List.length_nil] at conserved waiting
  have drained : (transferAll capacity ([], []) arrivals).2 = arrivals.flatten ↔
      backlog capacity 0 (arrivals.map List.length) = 0 := by
    rw [← waiting, List.length_eq_zero_iff, ← conserved, List.self_eq_append_right]
  rw [drained, backlog_eq_zero_iff]
  constructor
  · intro fit recent suffix
    have lengths := fit (recent.map List.length) (suffix.map List.length)
    simpa [List.length_flatten] using lengths
  · intro fit lengths suffix
    obtain ⟨recent, isSuffix, rfl⟩ := List.suffix_map_iff.mp suffix
    simpa [List.length_flatten] using fit recent isSuffix

theorem length_flatten_le {capacity : Nat} {arrivals : List (List α)}
    (fit : ∀ arrival ∈ arrivals, arrival.length ≤ capacity) :
    arrivals.flatten.length ≤ capacity * arrivals.length := by
  induction arrivals with
  | nil => exact Nat.zero_le _
  | cons arrival arrivals ih =>
    have first := fit arrival List.mem_cons_self
    have rest := ih fun other inside => fit other (List.mem_cons_of_mem _ inside)
    rw [List.flatten_cons, List.length_append, List.length_cons, Nat.mul_succ, Nat.add_comm]
    exact Nat.add_le_add rest first

/-- Arrivals that fit into one drain each all leave. -/
theorem transferAll_of_le {capacity : Nat} {arrivals : List (List α)}
    (fit : ∀ arrival ∈ arrivals, arrival.length ≤ capacity) :
    (transferAll capacity ([], []) arrivals).2 = arrivals.flatten :=
  (transferAll_drained_iff capacity arrivals).mpr fun _ suffix =>
    length_flatten_le fun arrival inside => fit arrival (suffix.subset inside)

end Backlog
