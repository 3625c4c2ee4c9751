/-
**How far `..` goes up.**

`delUps` takes the last part back at every `..`, the root included, and an empty part sets the root
when nothing is there. `Level` counts that without the parts: whether the root is in place, and how
many names are. `levelOf_delUpsParts`: the parts that `delUps` joins have the level of the path.
-/

import GemCaps.Path.Normal

namespace GemCaps.Path

/-- What `..` can take back: names, and then the root. -/
structure Level where
  rooted : Bool
  names : Nat
deriving DecidableEq

/-- One more part of the path. -/
def Level.enter (level : Level) (part : Bytes) : Level :=
  if part = text "." then level
  else if part = text ".." then
    if 0 < level.names then { level with names := level.names - 1 } else { level with rooted := false }
  else if part = [] then if level.names = 0 then { level with rooted := true } else level
  else { level with names := level.names + 1 }

/-- The level of a path. -/
def level (path : Bytes) : Level := (split path).foldl Level.enter ⟨false, 0⟩

/-- The level of a list of parts; only the first can be the root. -/
def levelOf : List Bytes → Level
  | [] :: names => ⟨true, names.length⟩
  | names => ⟨false, names.length⟩

theorem levelOf_root (names : List Bytes) : levelOf ([] :: names) = ⟨true, names.length⟩ := rfl

theorem levelOf_name {first : Bytes} (filled : first ≠ []) (names : List Bytes) :
    levelOf (first :: names) = ⟨false, names.length + 1⟩ := by
  obtain ⟨letter, rest, rfl⟩ := List.exists_cons_of_ne_nil filled
  rfl

/-- `..` takes back the last name, or else the root. -/
theorem levelOf_dropLast (parts : List Bytes) :
    levelOf parts.dropLast = (levelOf parts).enter (text "..") := by
  have dots : text ".." ≠ text "." := by decide
  rw [Level.enter, if_neg dots, if_pos rfl]
  cases parts with
  | nil => rfl
  | cons first names =>
    by_cases root : first = []
    · subst root
      cases names with
      | nil => rfl
      | cons next names =>
        rw [List.dropLast_cons_of_ne_nil (List.cons_ne_nil next names), levelOf_root, levelOf_root,
          List.length_dropLast]
        rfl
    · cases names with
      | nil =>
        rw [levelOf_name root]
        rfl
      | cons next names =>
        rw [List.dropLast_cons_of_ne_nil (List.cons_ne_nil next names), levelOf_name root,
          levelOf_name root, List.length_dropLast]
        rfl

/-- **One round of `delUps`.** -/
theorem levelOf_delUpsStep (parts : List Bytes) (part : Bytes) :
    levelOf (delUpsStep parts part) = (levelOf parts).enter part := by
  unfold delUpsStep
  by_cases isDot : part = text "."
  · rw [if_pos isDot, Level.enter, if_pos isDot]
  rw [if_neg isDot]
  by_cases isUp : part = text ".."
  · rw [if_pos isUp, isUp]
    exact levelOf_dropLast parts
  rw [if_neg isUp, Level.enter, if_neg isDot, if_neg isUp]
  cases parts with
  | nil =>
    by_cases empty : part = []
    · subst empty
      rfl
    · rw [if_neg (fun both => empty both.1), if_neg empty, List.nil_append, levelOf_name empty]
      rfl
  | cons first names =>
    by_cases empty : part = []
    · subst empty
      rw [if_pos ⟨rfl, List.cons_ne_nil first names⟩, if_pos rfl]
      by_cases root : first = []
      · subst root
        cases names <;> rfl
      · rw [levelOf_name root]
        rfl
    · rw [if_neg (fun both => empty both.1), if_neg empty, List.cons_append]
      by_cases root : first = []
      · subst root
        rw [levelOf_root, levelOf_root, List.length_append]
        rfl
      · rw [levelOf_name root, levelOf_name root, List.length_append]
        rfl

/-- **The parts that `delUps` joins have the level of the path.** -/
theorem levelOf_delUpsParts (path : Bytes) : levelOf (delUpsParts path) = level path := by
  have folds : ∀ (sections parts : List Bytes),
      levelOf (sections.foldl delUpsStep parts) = sections.foldl Level.enter (levelOf parts) := by
    intro sections
    induction sections with
    | nil => exact fun _ => rfl
    | cons part sections ih =>
      intro parts
      rw [List.foldl_cons, List.foldl_cons, ih, levelOf_delUpsStep]
  exact folds (split path) []

/-- A normal list joins to nothing when it has no name. -/
theorem joinAll_eq_nil_iff {parts : List Bytes} (normal : Normal parts) :
    joinAll parts = [] ↔ (levelOf parts).names = 0 := by
  rcases parts with _ | ⟨first, names⟩
  · exact iff_of_true rfl rfl
  by_cases root : first = []
  · subst root
    cases names with
    | nil => exact iff_of_true rfl rfl
    | cons next names => exact iff_of_false (by simp [joinAll]) (by simp [levelOf_root])
  · exact iff_of_false (joinAll_ne_nil List.mem_cons_self root) (by simp [levelOf_name root])

/-- **A normal list joins to a rooted path** when the root is in place, with a name below it. -/
theorem head?_joinAll_iff {parts : List Bytes} (normal : Normal parts) :
    (joinAll parts).head? = some slash ↔
      (levelOf parts).rooted = true ∧ 0 < (levelOf parts).names := by
  rcases parts with _ | ⟨_ | ⟨letter, first⟩, names⟩
  · exact iff_of_false (by decide) (by decide)
  · cases names with
    | nil => exact iff_of_false (by decide) (by decide)
    | cons next names => exact iff_of_true rfl ⟨rfl, Nat.succ_pos _⟩
  · have plain : isSep letter = false := normal.free _ List.mem_cons_self letter List.mem_cons_self
    have head : (joinAll ((letter :: first) :: names)).head? = some letter := by
      cases names <;> rfl
    refine iff_of_false (fun rooted => ?_) (by simp [levelOf_name])
    rw [head, Option.some.injEq] at rooted
    subst rooted
    exact absurd plain (by decide)

end GemCaps.Path
