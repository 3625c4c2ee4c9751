/-
**How long a path is without its ups** (`pathutils.cpp`).

Joining what `split` has cut gives the path back with `/` for every separator, but for a separator at
its end (`joinAll_split`). `delUps` joins some of these parts in their order, so that it keeps them all
or is shorter (`length_delUps_lt`).
-/

import GemCaps.Path.Utils

namespace GemCaps.Path

open Cutting

/-- The path with `/` for every separator. -/
def forward (path : Bytes) : Bytes := path.map fun letter => if isSep letter then slash else letter

@[simp] theorem length_forward (path : Bytes) : (forward path).length = path.length :=
  List.length_map ..

theorem forward_append (front back : Bytes) : forward (front ++ back) = forward front ++ forward back :=
  List.map_append

theorem forward_of_free {path : Bytes} (free : ∀ letter ∈ path, isSep letter = false) :
    forward path = path := by
  conv_rhs => rw [← List.map_id path]
  refine List.map_congr_left fun letter inside => ?_
  simp [free letter inside]

theorem forward_eq_iff (path : Bytes) : forward path = path ↔ backslash ∉ path := by
  unfold forward
  rw [List.map_eq_iff]
  constructor
  · intro kept inside
    obtain ⟨place, bound, here⟩ := List.mem_iff_getElem.mp inside
    have same := kept place
    rw [List.getElem?_eq_getElem bound, here] at same
    exact absurd same (by decide)
  · intro free place
    cases here : path[place]? with
    | none => rfl
    | some letter =>
      have other : letter ≠ backslash := fun same => free (same ▸ List.mem_of_getElem? here)
      by_cases isSlash : letter = slash
      · subst isSlash
        rfl
      · simp [isSep, other, isSlash]

theorem nul_mem_forward {path : Bytes} : nul ∈ forward path ↔ nul ∈ path := by
  unfold forward
  rw [List.mem_map]
  constructor
  · rintro ⟨letter, inside, isNul⟩
    split at isNul
    · exact absurd isNul (by decide)
    · exact isNul ▸ inside
  · exact fun inside => ⟨nul, inside, rfl⟩

/-- **Joining what `split` has cut.** -/
theorem joinAll_split (path : Bytes) :
    joinAll (split path) ++ (if path.getLast?.any isSep then [slash] else []) = forward path := by
  rw [split_eq_fields]
  induction path using fields_induction isSep with
  | nil => rfl
  | last text nonempty free =>
    have noTrailing : text.getLast?.any isSep = false := by
      rw [List.getLast?_eq_some_getLast nonempty]
      exact free _ (List.getLast_mem nonempty)
    rw [fields_of_free free nonempty, noTrailing, forward_of_free free]
    exact List.append_nil _
  | field front mark back free isMark ih =>
    have isForward : forward (front ++ mark :: back) = front ++ slash :: forward back := by
      rw [forward_append, forward_of_free free]
      simp [forward, isMark]
    rw [fields_append_cons free isMark, isForward, ← ih]
    cases back with
    | nil => simp [joinAll, isMark]
    | cons letter rest =>
      have more : fields isSep (letter :: rest) ≠ [] := by
        rw [fields]
        split
        · exact List.cons_ne_nil _ _
        · split <;> exact List.cons_ne_nil _ _
      have last : (front ++ mark :: letter :: rest).getLast? = (letter :: rest).getLast? := by
        rw [List.getLast?_append_cons, List.getLast?_cons_cons]
      rw [joinAll_cons front more, last]
      simp

/-! ### Fewer parts -/

/-- The length of the parts, each with a separator. -/
def width (parts : List Bytes) : Nat := (parts.map fun part => part.length + 1).sum

theorem width_cons (part : Bytes) (parts : List Bytes) :
    width (part :: parts) = part.length + 1 + width parts := List.sum_cons

theorem length_joinAll {parts : List Bytes} (filled : parts ≠ []) :
    (joinAll parts).length + 1 = width parts := by
  induction parts using joinAll.induct with
  | case1 => exact absurd rfl filled
  | case2 part => simp [joinAll, width]
  | case3 part parts nonempty ih =>
    have rest := ih nonempty
    rw [joinAll_cons part nonempty, width_cons, ← rest, List.length_append, List.length_cons]
    omega

theorem width_lt_of_sublist {parts all : List Bytes} (fewer : parts.Sublist all) :
    parts = all ∨ width parts < width all := by
  induction fewer with
  | slnil => exact .inl rfl
  | cons part _ ih =>
    refine .inr ?_
    rw [width_cons]
    rcases ih with rfl | less <;> omega
  | cons_cons part _ ih =>
    refine ih.imp (congrArg _) fun less => ?_
    rw [width_cons, width_cons]
    omega

theorem delUpsStep_sublist (parts : List Bytes) (part : Bytes) :
    (delUpsStep parts part).Sublist (parts ++ [part]) := by
  have kept : parts.Sublist (parts ++ [part]) := List.sublist_append_left parts [part]
  unfold delUpsStep
  split
  · exact kept
  split
  · exact (List.dropLast_sublist parts).trans kept
  split
  · exact kept
  · exact List.Sublist.refl _

/-- **`delUps` joins parts of the path, in their order.** -/
theorem delUpsParts_sublist (path : Bytes) : (delUpsParts path).Sublist (split path) := by
  have grows : ∀ sections parts : List Bytes,
      (sections.foldl delUpsStep parts).Sublist (parts ++ sections) := by
    intro sections
    induction sections with
    | nil => exact fun parts => (List.append_nil parts).symm ▸ List.Sublist.refl parts
    | cons part sections ih =>
      intro parts
      have rest := (ih (delUpsStep parts part)).trans
        ((delUpsStep_sublist parts part).append_right sections)
      rwa [List.append_assoc, List.singleton_append] at rest
  exact grows (split path) []

/-- **`delUps` keeps all parts, or is shorter than they are.** -/
theorem length_delUps_lt (path : Bytes) : delUpsParts path = split path ∨
    (delUps path).length < (joinAll (split path)).length := by
  refine (width_lt_of_sublist (delUpsParts_sublist path)).imp_right fun less => ?_
  have filled : split path ≠ [] := by
    intro empty
    rw [empty] at less
    exact Nat.not_lt_zero _ less
  have whole := length_joinAll filled
  by_cases none : delUpsParts path = []
  · rw [delUps, none]
    by_contra short
    have noLetters : joinAll (split path) = [] := by
      rw [← List.length_eq_zero_iff]
      exact Nat.eq_zero_of_not_pos short
    -- A single empty part is kept.
    have single : split path = [[]] := by
      cases parts : split path with
      | nil => exact absurd parts filled
      | cons part rest =>
        rw [parts] at noLetters
        cases rest with
        | nil => rw [show part = [] from noLetters]
        | cons other others => exact absurd noLetters (by simp [joinAll])
    rw [delUpsParts, single] at none
    exact absurd none (by decide)
  · have fewer := length_joinAll none
    rw [delUps]
    omega

end GemCaps.Path
