/-
**The normal form that `delUps` computes.**

* `delUpsParts_normal`: the parts `delUps` joins are free of separators, none is `.` or `..`, and
  none is empty except possibly the first.
* `split_joinAll`, `split_joinAll_slash`: splitting such a joined path, with or without a trailing
  separator, gives the parts back.
* `delUps_joinAll`: `delUps` leaves a joined normal list as it is.
-/

import GemCaps.Path.Utils

namespace GemCaps.Path

open Cutting

/-- Parts as `delUps` leaves them. -/
structure Normal (parts : List Bytes) : Prop where
  free : ∀ part ∈ parts, ∀ letter ∈ part, isSep letter = false
  noDots : ∀ part ∈ parts, part ≠ text "." ∧ part ≠ text ".."
  filled : ∀ part ∈ parts.tail, part ≠ []

namespace Normal

theorem nil : Normal [] :=
  ⟨fun _ inside => absurd inside List.not_mem_nil, fun _ inside => absurd inside List.not_mem_nil,
    fun _ inside => absurd inside List.not_mem_nil⟩

theorem sublist_tail {parts : List Bytes} (normal : Normal parts) {fewer : List Bytes}
    (sub : fewer.Sublist parts) (tail : fewer.tail.Sublist parts.tail) : Normal fewer :=
  ⟨fun part inside => normal.free part (sub.subset inside),
    fun part inside => normal.noDots part (sub.subset inside),
    fun part inside => normal.filled part (tail.subset inside)⟩

theorem dropLast {parts : List Bytes} (normal : Normal parts) : Normal parts.dropLast := by
  refine normal.sublist_tail (List.dropLast_sublist _) ?_
  cases parts with
  | nil => exact List.Sublist.refl _
  | cons first rest =>
    rcases rest with _ | ⟨next, rest⟩
    · exact List.Sublist.refl _
    · exact List.dropLast_sublist _

theorem drop {parts : List Bytes} (normal : Normal parts) (count : Nat) :
    Normal (parts.drop count) := by
  refine normal.sublist_tail (List.drop_sublist _ _) ?_
  rw [List.tail_drop, ← List.drop_one]
  exact List.drop_sublist_drop_left _ (by omega)

theorem concat {parts : List Bytes} (normal : Normal parts) {part : Bytes}
    (free : ∀ letter ∈ part, isSep letter = false)
    (noDots : part ≠ text "." ∧ part ≠ text "..") (filled : part = [] → parts = []) :
    Normal (parts ++ [part]) := by
  refine ⟨?_, ?_, ?_⟩
  · intro other inside
    rcases List.mem_append.mp inside with old | new
    · exact normal.free other old
    · exact List.mem_singleton.mp new ▸ free
  · intro other inside
    rcases List.mem_append.mp inside with old | new
    · exact normal.noDots other old
    · exact List.mem_singleton.mp new ▸ noDots
  · intro other inside empty
    cases parts with
    | nil => exact absurd inside List.not_mem_nil
    | cons first rest =>
      rw [List.cons_append, List.tail_cons] at inside
      rcases List.mem_append.mp inside with old | new
      · exact normal.filled other old empty
      · rw [List.mem_singleton.mp new] at empty
        exact List.cons_ne_nil _ _ (filled empty)

theorem slash_notMem {parts : List Bytes} (normal : Normal parts) :
    ∀ part ∈ parts, slash ∉ part := fun part inside member =>
  absurd (normal.free part inside slash member) (by decide)

end Normal

/-! ### `delUps` computes a normal form -/

/-- **One round keeps the normal form.** -/
theorem delUpsStep_normal {parts : List Bytes} (normal : Normal parts) {part : Bytes}
    (free : ∀ letter ∈ part, isSep letter = false) : Normal (delUpsStep parts part) := by
  unfold delUpsStep
  by_cases isDot : part = text "."
  · rwa [if_pos isDot]
  · by_cases isUp : part = text ".."
    · rw [if_neg isDot, if_pos isUp]
      exact normal.dropLast
    · rw [if_neg isDot, if_neg isUp]
      by_cases redundant : part = [] ∧ parts ≠ []
      · rwa [if_pos redundant]
      · rw [if_neg redundant]
        refine normal.concat free ⟨isDot, isUp⟩ fun empty => ?_
        by_contra nonempty
        exact redundant ⟨empty, nonempty⟩

theorem foldl_delUpsStep_normal {sections parts : List Bytes} (normal : Normal parts)
    (free : ∀ part ∈ sections, ∀ letter ∈ part, isSep letter = false) :
    Normal (sections.foldl delUpsStep parts) := by
  induction sections generalizing parts with
  | nil => exact normal
  | cons part sections ih =>
    exact ih (delUpsStep_normal normal (free part List.mem_cons_self))
      fun other inside => free other (List.mem_cons_of_mem _ inside)

/-- **`delUps` joins a normal list.** -/
theorem delUpsParts_normal (path : Bytes) : Normal (delUpsParts path) := by
  refine foldl_delUpsStep_normal Normal.nil fun part inside => ?_
  rw [split_eq_fields] at inside
  exact free_of_mem_fields inside

theorem mem_of_mem_delUpsStep {parts : List Bytes} {part other : Bytes}
    (inside : other ∈ delUpsStep parts part) : other ∈ parts ∨ other = part := by
  unfold delUpsStep at inside
  split at inside
  · exact .inl inside
  split at inside
  · exact .inl (List.dropLast_subset _ inside)
  split at inside
  · exact .inl inside
  · simpa using inside

/-- `delUps` joins parts of the path only. -/
theorem mem_of_mem_delUpsParts {path part : Bytes} (inside : part ∈ delUpsParts path) :
    part ∈ split path := by
  have grows : ∀ (sections parts : List Bytes), part ∈ sections.foldl delUpsStep parts →
      part ∈ parts ∨ part ∈ sections := by
    intro sections
    induction sections with
    | nil => exact fun _ kept => .inl kept
    | cons next sections ih =>
      intro parts kept
      rcases ih _ kept with early | late
      · rcases mem_of_mem_delUpsStep early with old | rfl
        · exact .inl old
        · exact .inr List.mem_cons_self
      · exact .inr (List.mem_cons_of_mem _ late)
  exact (grows (split path) [] inside).resolve_left List.not_mem_nil

/-- `delUps` adds no letter but the separator. -/
theorem mem_of_mem_delUps {path : Bytes} {letter : Byte} (inside : letter ∈ delUps path) :
    letter ∈ path ∨ letter = slash := by
  rcases mem_joinAll inside with ⟨part, isPart, inPart⟩ | isSlash
  · have isField : part ∈ fields isSep path := split_eq_fields path ▸ mem_of_mem_delUpsParts isPart
    exact .inl (mem_of_mem_fields isField letter inPart)
  · exact .inr isSlash

/-! ### Splitting a joined normal list -/

theorem joinAll_ne_nil {parts : List Bytes} {part : Bytes} (inside : part ∈ parts)
    (filled : part ≠ []) : joinAll parts ≠ [] := by
  induction parts using joinAll.induct with
  | case1 => exact absurd inside List.not_mem_nil
  | case2 only => exact List.mem_singleton.mp inside ▸ filled
  | case3 first rest nonempty ih =>
    rw [joinAll_cons first nonempty]
    simp

/-- A joined normal list does not end in a separator. -/
theorem getLast?_joinAll {parts : List Bytes} (normal : Normal parts) :
    (joinAll parts).getLast?.any isSep = false := by
  induction parts using joinAll.induct with
  | case1 => rfl
  | case2 part =>
    rw [joinAll, Option.any_eq_false]
    exact fun letter isLast =>
      by simpa using normal.free part List.mem_cons_self letter (List.mem_of_getLast? isLast)
  | case3 part rest nonempty ih =>
    obtain ⟨next, others, rfl⟩ := List.exists_cons_of_ne_nil nonempty
    have nextFilled : next ≠ [] := normal.filled next List.mem_cons_self
    have restFilled : joinAll (next :: others) ≠ [] :=
      joinAll_ne_nil List.mem_cons_self nextFilled
    rw [joinAll_cons part nonempty, List.getLast?_append_of_ne_nil _ (List.cons_ne_nil _ _),
      List.getLast?_cons_of_ne_nil restFilled]
    exact ih (normal.drop 1)

theorem split_joinAll {parts : List Bytes} (normal : Normal parts) (rooted : parts ≠ [[]]) :
    split (joinAll parts) = parts := by
  rw [split_eq_fields, joinAll_eq_intercalate]
  refine fields_intercalate isSep_slash normal.free fun last isLast empty => ?_
  subst empty
  cases parts with
  | nil => cases isLast
  | cons first rest =>
    by_cases single : rest = []
    · subst single
      exact rooted (by simpa using isLast)
    · rw [List.getLast?_cons_of_ne_nil single] at isLast
      exact normal.filled [] (List.mem_of_getLast? isLast) rfl

/-- A separator at the end is not seen by `split`. -/
theorem split_joinAll_slash {parts : List Bytes} (normal : Normal parts) (nonempty : parts ≠ []) :
    split (joinAll parts ++ [slash]) = parts := by
  rw [split_eq_fields]
  induction parts using joinAll.induct with
  | case1 => exact absurd rfl nonempty
  | case2 part =>
    exact fields_append_cons (normal.free part List.mem_cons_self) isSep_slash []
  | case3 part rest restNonempty ih =>
    rw [joinAll_cons part restNonempty, List.append_assoc, List.cons_append,
      fields_append_cons (normal.free part List.mem_cons_self) isSep_slash,
      ih (normal.drop 1) restNonempty]

/-! ### `delUps` on its own results -/

/-- The loop of `delUps` adds normal parts as they are. -/
theorem foldl_delUpsStep_of_normal {parts added : List Bytes} (normal : Normal (parts ++ added)) :
    added.foldl delUpsStep parts = parts ++ added := by
  induction added generalizing parts with
  | nil => simp
  | cons part added ih =>
    have inside : part ∈ parts ++ part :: added := by simp
    have dots := normal.noDots part inside
    have kept : delUpsStep parts part = parts ++ [part] := by
      unfold delUpsStep
      rw [if_neg dots.1, if_neg dots.2, if_neg]
      rintro ⟨empty, nonempty⟩
      obtain ⟨first, rest, rfl⟩ := List.exists_cons_of_ne_nil nonempty
      exact normal.filled part (by simp) empty
    rw [List.foldl_cons, kept, ih (by simpa using normal)]
    simp

theorem delUpsParts_of_split {path : Bytes} {parts : List Bytes} (isSplit : split path = parts)
    (normal : Normal parts) : delUpsParts path = parts := by
  rw [delUpsParts, isSplit]
  exact foldl_delUpsStep_of_normal normal

/-- **`delUps` leaves a joined normal list as it is.** -/
theorem delUps_joinAll {parts : List Bytes} (normal : Normal parts) :
    delUps (joinAll parts) = joinAll parts := by
  by_cases root : parts = [[]]
  · subst root
    rfl
  · rw [delUps, delUpsParts_of_split (split_joinAll normal root) normal]

/-- `delUps` is idempotent. -/
theorem delUps_delUps (path : Bytes) : delUps (delUps path) = delUps path :=
  delUps_joinAll (delUpsParts_normal path)

end GemCaps.Path
