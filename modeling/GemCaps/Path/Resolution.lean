/-
**What `delUps` preserves** (`pathutils.cpp`).

* `delUps_normalForm`: the result is a normal form, a second `delUps` changes nothing, and a normal
  form without a separator at its end stays as it is.
* `resolve path`: the names of the path below the root, where `..` at the root stays at the root.
  `resolve_delUps`: the result of `delUps` has the resolution of the path.
* `delUps_absolute_iff`: an absolute path stays absolute when some empty component stands at the root
  and every `..` behind it has a name to take back. Any other `..` takes back the root itself.
-/

import GemCaps.Path.Level
import GemCaps.Path.Length

namespace GemCaps.Path

open Cutting

/-! ### Normal forms -/

/-- No backslash, no `.` or `..`, and no empty component but the first. -/
def NormalForm (path : Bytes) : Prop :=
  backslash ∉ path ∧ (∀ part ∈ split path, part ≠ text "." ∧ part ≠ text "..") ∧
    ∀ part ∈ (split path).tail, part ≠ []

theorem split_free (path : Bytes) : ∀ part ∈ split path, ∀ letter ∈ part, isSep letter = false := by
  intro part inside
  rw [split_eq_fields] at inside
  exact free_of_mem_fields inside

theorem NormalForm.normal {path : Bytes} (form : NormalForm path) : Normal (split path) :=
  ⟨split_free path, form.2.1, form.2.2⟩

/-- The root alone joins to nothing, and nothing splits to nothing. -/
theorem split_joinAll_cases {parts : List Bytes} (normal : Normal parts) :
    split (joinAll parts) = parts ∨ parts = [[]] ∧ split (joinAll parts) = [] := by
  by_cases root : parts = [[]]
  · subst root
    exact .inr ⟨rfl, rfl⟩
  · exact .inl (split_joinAll normal root)

theorem normalForm_joinAll {parts : List Bytes} (normal : Normal parts) :
    NormalForm (joinAll parts) := by
  have noBackslash : backslash ∉ joinAll parts := by
    intro inside
    rcases mem_joinAll inside with ⟨part, isPart, inPart⟩ | isSlash
    · exact absurd (normal.free part isPart backslash inPart) (by decide)
    · exact absurd isSlash (by decide)
  rcases split_joinAll_cases normal with same | ⟨_, none⟩
  · exact ⟨noBackslash, by rw [same]; exact normal.noDots, by rw [same]; exact normal.filled⟩
  · exact ⟨noBackslash, by simp [none], by simp [none]⟩

/-- **`delUps` computes normal forms**, and leaves them as they are. -/
theorem delUps_normalForm (path : Bytes) :
    NormalForm (delUps path) ∧ delUps (delUps path) = delUps path ∧
      (NormalForm path → path.getLast?.any isSep = false → delUps path = path) := by
  refine ⟨normalForm_joinAll (delUpsParts_normal path), delUps_delUps path, fun form noTrailing => ?_⟩
  have joined := joinAll_split path
  rw [noTrailing, if_neg Bool.false_ne_true, List.append_nil, (forward_eq_iff path).mpr form.1]
    at joined
  rw [delUps, delUpsParts_of_split rfl form.normal, joined]

/-! ### The resolution of a path -/

/-- One component more: `.` and empty components are ignored, `..` takes back the last name. -/
def resolveStep (names : List Bytes) (part : Bytes) : List Bytes :=
  if part = [] ∨ part = text "." then names
  else if part = text ".." then names.dropLast
  else names ++ [part]

/-- The names that a list of components leads to from the root. -/
def resolveParts (parts : List Bytes) : List Bytes := parts.foldl resolveStep []

/-- The lexical resolution of a path. -/
def resolve (path : Bytes) : List Bytes := resolveParts (split path)

theorem resolveParts_concat (parts : List Bytes) (part : Bytes) :
    resolveParts (parts ++ [part]) = resolveStep (resolveParts parts) part := by
  rw [resolveParts, List.foldl_append]
  rfl

theorem resolveStep_name {names : List Bytes} {part : Bytes} (filled : part ≠ [])
    (noDots : part ≠ text "." ∧ part ≠ text "..") : resolveStep names part = names ++ [part] := by
  rw [resolveStep, if_neg (by simp [filled, noDots.1]), if_neg noDots.2]

@[simp] theorem resolveStep_empty (names : List Bytes) : resolveStep names [] = names := if_pos (.inl rfl)

@[simp] theorem resolveStep_dot (names : List Bytes) : resolveStep names (text ".") = names :=
  if_pos (.inr rfl)

@[simp] theorem resolveStep_up (names : List Bytes) :
    resolveStep names (text "..") = names.dropLast := by
  rw [resolveStep, if_neg (by decide), if_pos rfl]

/-- Behind the root, the components resolve as they do alone. -/
theorem resolveParts_append_of_root {front : List Bytes} (atRoot : resolveParts front = [])
    (back : List Bytes) : resolveParts (front ++ [] :: back) = resolveParts back := by
  have folded : front.foldl resolveStep [] = [] := atRoot
  rw [resolveParts, List.foldl_append, folded, List.foldl_cons, resolveStep_empty]
  rfl

/-- The last component of a normal list is the root or a name. -/
theorem resolveParts_dropLast {parts : List Bytes} (normal : Normal parts) :
    resolveParts parts.dropLast = (resolveParts parts).dropLast := by
  rcases List.eq_nil_or_concat parts with rfl | ⟨front, last, isConcat⟩
  · rfl
  rw [List.concat_eq_append] at isConcat
  subst isConcat
  rw [List.dropLast_concat, resolveParts_concat]
  have dots := normal.noDots last (by simp)
  by_cases empty : last = []
  · subst empty
    have single : front = [] := by
      by_contra filled
      obtain ⟨first, rest, rfl⟩ := List.exists_cons_of_ne_nil filled
      exact normal.filled [] (by simp) rfl
    subst single
    rfl
  · rw [resolveStep_name empty dots, List.dropLast_concat]

/-- **One round of `delUps` is one step of the resolution.** -/
theorem resolveParts_delUpsStep {parts : List Bytes} (normal : Normal parts) (part : Bytes) :
    resolveParts (delUpsStep parts part) = resolveStep (resolveParts parts) part := by
  unfold delUpsStep
  by_cases isDot : part = text "."
  · rw [if_pos isDot, isDot, resolveStep_dot]
  rw [if_neg isDot]
  by_cases isUp : part = text ".."
  · rw [if_pos isUp, isUp, resolveStep_up, resolveParts_dropLast normal]
  rw [if_neg isUp]
  by_cases redundant : part = [] ∧ parts ≠ []
  · rw [if_pos redundant, redundant.1, resolveStep_empty]
  · rw [if_neg redundant, resolveParts_concat]

theorem resolveParts_delUpsParts (path : Bytes) : resolveParts (delUpsParts path) = resolve path := by
  have folds : ∀ sections parts : List Bytes, Normal parts →
      (∀ part ∈ sections, ∀ letter ∈ part, isSep letter = false) →
      resolveParts (sections.foldl delUpsStep parts) =
        sections.foldl resolveStep (resolveParts parts) := by
    intro sections
    induction sections with
    | nil => exact fun _ _ _ => rfl
    | cons part sections ih =>
      intro parts normal free
      have next := delUpsStep_normal normal (free part List.mem_cons_self)
      rw [List.foldl_cons, List.foldl_cons, ih _ next fun other inside =>
        free other (List.mem_cons_of_mem _ inside), resolveParts_delUpsStep normal]
  exact folds (split path) [] Normal.nil (split_free path)

/-- **`delUps` keeps the resolution.** -/
theorem resolve_delUps (path : Bytes) : resolve (delUps path) = resolve path := by
  rw [← resolveParts_delUpsParts path, resolve, delUps]
  rcases split_joinAll_cases (delUpsParts_normal path) with same | ⟨root, none⟩
  · rw [same]
  · rw [none, root]
    rfl

/-! ### When the root is kept -/

/-- Every `..` of these components has a name to take back. -/
def StaysBelow (parts : List Bytes) : Prop :=
  ∀ front back, parts = front ++ text ".." :: back → resolveParts front ≠ []

/-- Some empty component stands at the root, and every `..` behind it has a name to take back. -/
def KeepsRoot (parts : List Bytes) : Prop :=
  ∃ front back, parts = front ++ [] :: back ∧ resolveParts front = [] ∧ StaysBelow back

theorem staysBelow_nil : StaysBelow [] := fun front back split => by simp at split

theorem staysBelow_concat_iff (parts : List Bytes) (part : Bytes) :
    StaysBelow (parts ++ [part]) ↔
      StaysBelow parts ∧ (part = text ".." → resolveParts parts ≠ []) := by
  constructor
  · intro stays
    refine ⟨fun front back split => stays front (back ++ [part]) (by simp [split]), ?_⟩
    rintro rfl
    exact stays parts [] rfl
  · rintro ⟨stays, last⟩ front back split
    rcases List.eq_nil_or_concat back with rfl | ⟨middle, final, isConcat⟩
    · obtain ⟨rfl, isUp⟩ := List.append_inj' split rfl
      exact last (List.cons.inj isUp).1
    · rw [isConcat, List.concat_eq_append, ← List.cons_append, ← List.append_assoc] at split
      exact stays front middle (List.append_inj' split rfl).1

theorem keepsRoot_concat_iff (parts : List Bytes) (part : Bytes) :
    KeepsRoot (parts ++ [part]) ↔
      (part = [] ∧ resolveParts parts = []) ∨
        (KeepsRoot parts ∧ (part = text ".." → resolveParts parts ≠ [])) := by
  constructor
  · rintro ⟨front, back, split, atRoot, stays⟩
    rcases List.eq_nil_or_concat back with rfl | ⟨middle, final, isConcat⟩
    · obtain ⟨rfl, isEmpty⟩ := List.append_inj' split rfl
      exact .inl ⟨(List.cons.inj isEmpty).1, atRoot⟩
    · rw [List.concat_eq_append] at isConcat
      subst isConcat
      rw [← List.cons_append, ← List.append_assoc] at split
      obtain ⟨rfl, isLast⟩ := List.append_inj' split rfl
      obtain ⟨staysMiddle, last⟩ := (staysBelow_concat_iff middle final).mp stays
      refine .inr ⟨⟨front, middle, rfl, atRoot, staysMiddle⟩, fun isUp => ?_⟩
      rw [resolveParts_append_of_root atRoot]
      exact last ((List.cons.inj isLast).1.symm.trans isUp)
  · rintro (⟨rfl, atRoot⟩ | ⟨⟨front, back, rfl, atRoot, stays⟩, last⟩)
    · exact ⟨parts, [], rfl, atRoot, staysBelow_nil⟩
    · refine ⟨front, back ++ [part], by simp, atRoot, (staysBelow_concat_iff _ _).mpr ⟨stays, ?_⟩⟩
      rwa [resolveParts_append_of_root atRoot] at last

theorem names_enter {level : Level} {names : List Bytes} (same : level.names = names.length)
    (part : Bytes) : (level.enter part).names = (resolveStep names part).length := by
  unfold Level.enter
  by_cases isDot : part = text "."
  · rw [if_pos isDot, isDot, resolveStep_dot, same]
  rw [if_neg isDot]
  by_cases isUp : part = text ".."
  · rw [if_pos isUp, isUp, resolveStep_up, List.length_dropLast, ← same]
    split
    · rfl
    · show level.names = level.names - 1
      omega
  rw [if_neg isUp]
  by_cases empty : part = []
  · rw [if_pos empty, empty, resolveStep_empty, ← same]
    split <;> rfl
  · rw [if_neg empty, resolveStep_name empty ⟨isDot, isUp⟩, List.length_append, ← same]
    rfl

/-- The root is set by an empty component, and taken back by `..`, when no name is there. -/
theorem rooted_enter (level : Level) (part : Bytes) :
    (level.enter part).rooted = true ↔
      (part = [] ∧ level.names = 0) ∨
        (level.rooted = true ∧ (part = text ".." → level.names ≠ 0)) := by
  have dotsFilled : text "." ≠ [] ∧ text ".." ≠ [] ∧ text "." ≠ text ".." := by decide
  unfold Level.enter
  by_cases isDot : part = text "."
  · subst isDot
    simp [dotsFilled]
  rw [if_neg isDot]
  by_cases isUp : part = text ".."
  · subst isUp
    by_cases named : 0 < level.names
    · simp [named, dotsFilled, named.ne']
    · have none : level.names = 0 := by omega
      simp [none, dotsFilled]
  rw [if_neg isUp]
  by_cases empty : part = []
  · subst empty
    by_cases none : level.names = 0
    · simp [none]
    · simp [none, dotsFilled.2.1.symm]
  · simp [empty, isUp]

/-- **The level of a list of components**: the names of its resolution, and whether it keeps the
root. -/
theorem foldl_enter (parts : List Bytes) :
    (parts.foldl Level.enter ⟨false, 0⟩).names = (resolveParts parts).length ∧
      ((parts.foldl Level.enter ⟨false, 0⟩).rooted = true ↔ KeepsRoot parts) := by
  induction parts using List.reverseRecOn with
  | nil =>
    refine ⟨rfl, iff_of_false Bool.false_ne_true ?_⟩
    rintro ⟨front, back, split, _⟩
    simp at split
  | append_singleton parts part ih =>
    obtain ⟨names, rooted⟩ := ih
    rw [List.foldl_append, List.foldl_cons, List.foldl_nil, resolveParts_concat]
    refine ⟨names_enter names part, ?_⟩
    have atRoot : (parts.foldl Level.enter ⟨false, 0⟩).names = 0 ↔ resolveParts parts = [] := by
      rw [names, List.length_eq_zero_iff]
    rw [rooted_enter, keepsRoot_concat_iff, rooted, atRoot, ne_eq, atRoot]

/-- **When `delUps` gives an absolute path with the same resolution**, of a path that does not resolve
to the root, one that starts with a separator in particular. -/
theorem delUps_absolute_iff (path : Bytes) (below : resolve path ≠ []) :
    ((delUps path).head? = some slash ∧ resolve (delUps path) = resolve path) ↔
      KeepsRoot (split path) := by
  obtain ⟨names, keeps⟩ := foldl_enter (split path)
  have isAbsolute := head?_joinAll_iff (delUpsParts_normal path)
  rw [levelOf_delUpsParts] at isAbsolute
  have positive : 0 < (level path).names := by
    rw [level, names]
    exact List.length_pos_iff.mpr below
  rw [and_iff_left (resolve_delUps path), delUps, isAbsolute, and_iff_left positive]
  exact keeps

/-- The root is kept where a doubled separator follows the climb. -/
theorem delUps_absolute_doubled :
    ((delUps (text "/../a/..//b")).head? = some slash ∧
        resolve (delUps (text "/../a/..//b")) = resolve (text "/../a/..//b")) ∧
      KeepsRoot (split (text "/../a/..//b")) := by
  have keeps : KeepsRoot (split (text "/../a/..//b")) := by
    refine ⟨[[], text "..", text "a", text ".."], [text "b"], by decide, by decide, ?_⟩
    intro front back same
    rcases front with _ | ⟨first, _ | ⟨second, rest⟩⟩
    · exact absurd (List.cons.inj same).1 (by decide)
    · simp at same
    · simp at same
  exact ⟨(delUps_absolute_iff (text "/../a/..//b") (by decide)).mpr keeps, keeps⟩

/-- A folder above the root becomes a relative one. -/
theorem delUps_above_root :
    (text "/../srv").head?.any isSep = true ∧ resolve (text "/../srv") = [text "srv"] ∧
      ¬ ((delUps (text "/../srv")).head? = some slash ∧
        resolve (delUps (text "/../srv")) = resolve (text "/../srv")) := by
  decide

end GemCaps.Path
