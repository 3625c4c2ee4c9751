/-
**Tagged lines.**

A text is a list over any alphabet; a letter `mark` ends its lines, and a line that starts with
`tag` is tagged. An item that is written into a framed text is meant as one line, but an item that
holds `mark` breaks into several, and a piece that starts with `tag` is one more tagged line.

* `length_tagged_frame_iff`: a framed text has just one tagged line for each tagged item exactly
  when no item holds `mark :: tag`.
* `tagged_frame`: then these lines are the items up to their first `mark`.
-/

import GemCaps.Library.Cutting

namespace Lines

open Cutting

variable {α : Type}

/-! ### Patterns across a letter they do not hold -/

/-- A pattern at the start of a text does not reach over a letter that it does not hold. -/
theorem prefix_append_cons_iff {pattern : List α} {mark : α} (free : mark ∉ pattern)
    (front back : List α) : pattern <+: front ++ mark :: back ↔ pattern <+: front := by
  constructor
  · intro inside
    refine List.prefix_of_prefix_length_le inside (List.prefix_append _ _) ?_
    by_contra long
    obtain ⟨rest, shape⟩ := inside
    have atMark : (pattern ++ rest)[front.length]? = some mark := by
      rw [shape, List.getElem?_append_right le_rfl, Nat.sub_self, List.getElem?_cons_zero]
    rw [List.getElem?_append_left (Nat.not_le.mp long)] at atMark
    exact free (List.mem_of_getElem? atMark)
  · exact fun inside => inside.trans (List.prefix_append _ _)

/-- **A pattern lies on one side of a letter that it does not hold.** -/
theorem infix_append_cons_iff {pattern : List α} {mark : α} (free : mark ∉ pattern)
    (front back : List α) :
    pattern <:+: front ++ mark :: back ↔ pattern <:+: front ∨ pattern <:+: back := by
  induction front with
  | nil =>
    have atStart : pattern <+: mark :: back ↔ pattern <+: [] := prefix_append_cons_iff free [] back
    rw [List.nil_append, List.infix_cons_iff, atStart, List.prefix_nil, List.infix_nil]
  | cons a front ih =>
    have atStart : pattern <+: a :: (front ++ mark :: back) ↔ pattern <+: a :: front :=
      prefix_append_cons_iff free (a :: front) back
    rw [List.cons_append, List.infix_cons_iff, List.infix_cons_iff, ih, atStart, or_assoc]

/-- A marked pattern starts at the first mark of a text or lies behind it. -/
theorem infix_append_mark_iff {pattern front : List α} {mark : α} (free : mark ∉ front)
    (back : List α) :
    mark :: pattern <:+: front ++ mark :: back ↔ pattern <+: back ∨ mark :: pattern <:+: back := by
  induction front with
  | nil => rw [List.nil_append, List.infix_cons_iff, List.prefix_cons_inj]
  | cons a front ih =>
    have different : mark ≠ a := fun same => free (same ▸ List.mem_cons_self)
    have later : mark ∉ front := fun inside => free (List.mem_cons_of_mem _ inside)
    have notHere : ¬ mark :: pattern <+: a :: (front ++ mark :: back) := fun inside =>
      different (List.cons_prefix_cons.mp inside).1
    rw [List.cons_append, List.infix_cons_iff, or_iff_right notHere, ih later]

/-! ### Tagged lines of a framed text -/

section Tagged

variable [DecidableEq α]

/-- The lines of a text that start with `tag`. -/
def tagged (mark : α) (tag text : List α) : List (List α) :=
  (fields (· == mark) text).filter fun line => tag <+: line

theorem tagged_append_cons {mark : α} {front : List α} (free : mark ∉ front)
    (tag back : List α) :
    tagged mark tag (front ++ mark :: back) =
      (if tag <+: front then [front] else []) ++ tagged mark tag back := by
  have plain : ∀ a ∈ front, (a == mark) = false := fun a inside =>
    beq_eq_false_iff_ne.mpr fun same => free (same ▸ inside)
  rw [tagged, fields_append_cons plain (beq_self_eq_true mark), List.filter_cons]
  split <;> simp_all [tagged]

/-- A mark closes the lines before it, whatever follows. -/
theorem tagged_append (mark : α) (tag front back : List α) :
    tagged mark tag (front ++ mark :: back) =
      tagged mark tag (front ++ [mark]) ++ tagged mark tag back := by
  induction length : front.length using Nat.strong_induction_on generalizing front with
  | _ size ih =>
    rcases notMem_or_exists_first mark front with free | ⟨first, rest, rfl, free⟩
    · rw [tagged_append_cons free, tagged_append_cons free]
      simp [tagged]
    · have shorter : rest.length < size := by
        simp only [List.length_append, List.length_cons] at length
        omega
      rw [List.append_assoc, List.cons_append, List.append_assoc, List.cons_append,
        tagged_append_cons free, tagged_append_cons free, ih _ shorter rest rfl, List.append_assoc]

/-- The lines of a framed text are those of its items. -/
theorem tagged_frame_eq_flatMap (mark : α) (tag : List α) (items : List (List α)) :
    tagged mark tag (frame mark items) =
      items.flatMap fun item => tagged mark tag (item ++ [mark]) := by
  induction items with
  | nil => rfl
  | cons item items ih =>
    have shape : frame mark (item :: items) = item ++ mark :: frame mark items := by simp [frame]
    rw [shape, tagged_append, ih, List.flatMap_cons]

variable {mark : α} {tag : List α}

/-- **The tagged lines of one item**: at least one when the item is tagged, and no other exactly
when the item does not hold `mark :: tag`. -/
theorem length_tagged_item (free : mark ∉ tag) (item : List α) :
    (if tag <+: item then 1 else 0) ≤ (tagged mark tag (item ++ [mark])).length ∧
      ((tagged mark tag (item ++ [mark])).length = (if tag <+: item then 1 else 0) ↔
        ¬ mark :: tag <:+: item) := by
  induction length : item.length using Nat.strong_induction_on generalizing item with
  | _ size ih =>
    rcases notMem_or_exists_first mark item with unmarked | ⟨front, back, rfl, unmarked⟩
    · have absent : ¬ mark :: tag <:+: item := fun inside =>
        unmarked (inside.subset List.mem_cons_self)
      rw [tagged_append_cons unmarked, iff_true_right absent]
      split <;> simp [tagged]
    · have shorter : back.length < size := by
        simp only [List.length_append, List.length_cons] at length
        omega
      obtain ⟨atLeast, exactly⟩ := ih _ shorter back rfl
      rw [List.append_assoc, List.cons_append, tagged_append_cons unmarked, List.length_append,
        infix_append_mark_iff unmarked, not_or, ← exactly]
      simp only [prefix_append_cons_iff free]
      have first : (if tag <+: front then [front] else ([] : List (List α))).length =
          if tag <+: front then 1 else 0 := by split <;> rfl
      rw [first]
      by_cases next : tag <+: back
      · rw [if_pos next] at atLeast ⊢
        exact ⟨Nat.le_add_right _ _, iff_of_false (by omega) fun both => both.1 next⟩
      · rw [if_neg next]
        exact ⟨Nat.le_add_right _ _, ⟨fun same => ⟨next, by omega⟩, fun both => by omega⟩⟩

/-- The number of tagged lines is at least the number of tagged items. -/
theorem length_filter_le_tagged (free : mark ∉ tag) (items : List (List α)) :
    (items.filter fun item => tag <+: item).length ≤
      (tagged mark tag (frame mark items)).length := by
  rw [tagged_frame_eq_flatMap]
  induction items with
  | nil => exact le_rfl
  | cons item items ih =>
    have here := (length_tagged_item free item).1
    rw [List.filter_cons, List.flatMap_cons, List.length_append]
    by_cases isTagged : tag <+: item
    · rw [if_pos isTagged] at here
      rw [if_pos (decide_eq_true isTagged), List.length_cons]
      omega
    · rw [if_neg (by simpa using isTagged)]
      omega

/-- **One tagged line for each tagged item**: no item holds `mark :: tag`. -/
theorem length_tagged_frame_iff (free : mark ∉ tag) (items : List (List α)) :
    (tagged mark tag (frame mark items)).length = (items.filter fun item => tag <+: item).length ↔
      ∀ item ∈ items, ¬ mark :: tag <:+: item := by
  induction items with
  | nil => simp [frame, tagged]
  | cons item items ih =>
    obtain ⟨atLeast, exactly⟩ := length_tagged_item free item
    have rest := length_filter_le_tagged free items
    have total : (tagged mark tag (frame mark (item :: items))).length =
        (tagged mark tag (item ++ [mark])).length +
          (tagged mark tag (frame mark items)).length := by
      rw [tagged_frame_eq_flatMap, tagged_frame_eq_flatMap, List.flatMap_cons, List.length_append]
    have count : ((item :: items).filter fun item => tag <+: item).length =
        (if tag <+: item then 1 else 0) + (items.filter fun item => tag <+: item).length := by
      rw [List.filter_cons]
      by_cases isTagged : tag <+: item
      · rw [if_pos (decide_eq_true isTagged), if_pos isTagged, List.length_cons, Nat.add_comm]
      · rw [if_neg (by simpa using isTagged), if_neg isTagged, Nat.zero_add]
    rw [total, count, List.forall_mem_cons, ← exactly, ← ih]
    omega

/-- A tagged item without `mark :: tag` is one line: the item up to its first mark. -/
theorem tagged_item (free : mark ∉ tag) {item : List α} (isTagged : tag <+: item)
    (single : ¬ mark :: tag <:+: item) : tagged mark tag (item ++ [mark]) = [before mark item] := by
  have one := (length_tagged_item free item).2.mpr single
  rw [if_pos isTagged] at one
  rcases notMem_or_exists_first mark item with unmarked | ⟨front, back, rfl, unmarked⟩
  · rw [tagged_append_cons unmarked, if_pos isTagged, before_of_notMem unmarked]
    rfl
  · have inFront : tag <+: front := (prefix_append_cons_iff free _ _).mp isTagged
    rw [List.append_assoc, List.cons_append, tagged_append_cons unmarked, if_pos inFront] at one ⊢
    rw [before_append_cons unmarked, List.length_append] at *
    have none : tagged mark tag (back ++ [mark]) = [] :=
      List.eq_nil_of_length_eq_zero (by simpa using one)
    rw [none, List.append_nil]

/-- **The tagged lines of a framed text** whose items do not hold `mark :: tag`. -/
theorem tagged_frame (free : mark ∉ tag) {items : List (List α)}
    (single : ∀ item ∈ items, ¬ mark :: tag <:+: item) :
    tagged mark tag (frame mark items) =
      (items.filter fun item => tag <+: item).map (before mark) := by
  rw [tagged_frame_eq_flatMap]
  induction items with
  | nil => rfl
  | cons item items ih =>
    have here := single item List.mem_cons_self
    have rest := ih fun other inside => single other (List.mem_cons_of_mem _ inside)
    rw [List.flatMap_cons, rest, List.filter_cons]
    by_cases isTagged : tag <+: item
    · rw [tagged_item free isTagged here, if_pos (decide_eq_true isTagged), List.map_cons]
      rfl
    · have none := (length_tagged_item free item).2.mpr here
      rw [if_neg isTagged] at none
      rw [List.eq_nil_of_length_eq_zero none, if_neg (by simpa using isTagged), List.nil_append]

end Tagged

end Lines
