/-
**The last component of a path** (`pathutils.cpp`).

`basename` and `dirname` drop the separators at the end and look for the last one of the rest, each for
itself. `popSeps_eq`: the loop leaves the string when there is nothing but separators.
`dirname_basename_iff`: the two cut the path at the same place exactly when no backslash stands behind
the last `/`, because `basename` takes the last `/` even then.
-/

import GemCaps.Path.Utils
import Mathlib.Data.List.DropRight

namespace GemCaps.Path

open Cutting

/-! ### The separators at the end -/

/-- Some letter is no separator. -/
def Named (path : Bytes) : Prop := ∃ letter ∈ path, isSep letter = false

/-- **What the loop leaves**: the path without its trailing separators, if anything is left. -/
theorem popSeps_eq (path : Bytes) :
    popSeps path.reverse =
      if path.rdropWhile isSep = [] then none else some (path.rdropWhile isSep) := by
  induction path using List.reverseRecOn with
  | nil => rfl
  | append_singleton path last ih =>
    rw [List.reverse_concat, popSeps, List.rdropWhile_concat]
    by_cases separator : isSep last = true
    · rw [if_pos separator, if_pos separator, ih]
    · rw [if_neg separator, if_neg separator, if_neg (List.append_ne_nil_of_right_ne_nil _
        (List.cons_ne_nil _ _)), List.reverse_cons, List.reverse_reverse]

theorem named_iff (path : Bytes) : Named path ↔ path.rdropWhile isSep ≠ [] := by
  rw [ne_eq, List.rdropWhile_eq_nil_iff, Named]
  simp

theorem popSeps_of_named {path : Bytes} (named : Named path) :
    popSeps path.reverse = some (path.rdropWhile isSep) := by
  rw [popSeps_eq, if_neg ((named_iff path).mp named)]

theorem popSeps_eq_none {path : Bytes} (separators : ¬ Named path) : popSeps path.reverse = none := by
  rw [popSeps_eq, if_pos (not_not.mp fun more => separators ((named_iff path).mpr more))]

/-! ### The cut -/

section Cut

variable {path front back : Bytes}

theorem dirname_of_named (named : Named path) :
    dirname path = match rfind (path.rdropWhile isSep) slash, rfind (path.rdropWhile isSep) backslash with
      | none, none => some []
      | none, some foundBck => some ((path.rdropWhile isSep).take (foundBck + 1))
      | some foundFwd, none => some ((path.rdropWhile isSep).take (foundFwd + 1))
      | some foundFwd, some foundBck => some ((path.rdropWhile isSep).take
          ((if foundBck < foundFwd then foundFwd else foundBck) + 1)) := by
  rw [dirname, popSeps_of_named named]
  rfl

theorem basename_of_named (named : Named path) :
    basename path = match rfind (path.rdropWhile isSep) slash, rfind (path.rdropWhile isSep) backslash with
      | none, none => some (path.rdropWhile isSep)
      | some foundFwd, _ => some ((path.rdropWhile isSep).drop (foundFwd + 1))
      | none, some foundBck => some ((path.rdropWhile isSep).drop (foundBck + 1)) := by
  rw [basename, popSeps_of_named named]
  rfl

/-- `basename` is what stands behind the last `/`. -/
theorem basename_of_slash (named : Named path) (cut : path.rdropWhile isSep = front ++ slash :: back)
    (free : slash ∉ back) : basename path = some back := by
  rw [basename_of_named named, cut, rfind_append_cons front free]
  exact congrArg some (drop_front front slash back)

/-- Behind the last `/` there is no backslash. -/
theorem dirname_of_slash (named : Named path) (cut : path.rdropWhile isSep = front ++ slash :: back)
    (free : slash ∉ back) (noBackslash : backslash ∉ back) :
    dirname path = some (front ++ [slash]) := by
  have other : backslash ≠ slash := by decide
  rw [dirname_of_named named, cut, rfind_append_cons front free]
  rcases notMem_or_exists_last backslash front with none | ⟨first, rest, isFront, restFree⟩
  · have nowhere : backslash ∉ front ++ slash :: back := by simp [none, noBackslash, other]
    rw [rfind_eq_none nowhere]
    exact congrArg some (take_front front slash back)
  · have behind : backslash ∉ rest ++ slash :: back := by simp [restFree, noBackslash, other]
    have shape : front ++ slash :: back = first ++ backslash :: (rest ++ slash :: back) := by
      rw [isFront, List.append_assoc, List.cons_append]
    have found : rfind (front ++ slash :: back) backslash = some first.length := by
      rw [shape, rfind_append_cons first behind]
    have earlier : first.length < front.length := by
      rw [isFront, List.length_append, List.length_cons]
      omega
    simp only [found, if_pos earlier]
    rw [take_front]

/-- Without a `/` both look for the last backslash. -/
theorem ends_of_backslash (named : Named path)
    (cut : path.rdropWhile isSep = front ++ backslash :: back) (noSlash : slash ∉ path.rdropWhile isSep)
    (free : backslash ∉ back) :
    dirname path = some (front ++ [backslash]) ∧ basename path = some back := by
  rw [dirname_of_named named, basename_of_named named, rfind_eq_none noSlash, cut,
    rfind_append_cons front free]
  exact ⟨congrArg some (take_front front backslash back),
    congrArg some (drop_front front backslash back)⟩

theorem ends_of_free (named : Named path) (noSlash : slash ∉ path.rdropWhile isSep)
    (noBackslash : backslash ∉ path.rdropWhile isSep) :
    dirname path = some [] ∧ basename path = some (path.rdropWhile isSep) := by
  rw [dirname_of_named named, basename_of_named named, rfind_eq_none noSlash,
    rfind_eq_none noBackslash]
  exact ⟨rfl, rfl⟩

end Cut

/-- The path without its trailing separators is cut behind its last separator. -/
structure Cuts (path dir base : Bytes) : Prop where
  whole : dir ++ base = path.rdropWhile isSep
  base : ∀ letter ∈ base, isSep letter = false
  dir : dir = [] ∨ dir.getLast?.any isSep = true

theorem isSep_eq_false {letter : Byte} (noSlash : letter ≠ slash) (noBackslash : letter ≠ backslash) :
    isSep letter = false := by
  simp [isSep, noSlash, noBackslash]

theorem free_of_notMem {base : Bytes} (noSlash : slash ∉ base) (noBackslash : backslash ∉ base) :
    ∀ letter ∈ base, isSep letter = false := fun _ inside =>
  isSep_eq_false (fun same => noSlash (same ▸ inside)) fun same => noBackslash (same ▸ inside)

/-- **When `dirname` and `basename` fit together.** -/
theorem dirname_basename_iff {path : Bytes} (named : Named path) :
    (∃ dir base, dirname path = some dir ∧ basename path = some base ∧ Cuts path dir base) ↔
      (slash ∈ path.rdropWhile isSep → backslash ∉ afterLast slash (path.rdropWhile isSep)) := by
  rcases notMem_or_exists_last slash (path.rdropWhile isSep) with noSlash | ⟨front, back, cut, free⟩
  · refine iff_of_true ?_ fun inside => absurd inside noSlash
    rcases notMem_or_exists_last backslash (path.rdropWhile isSep) with
      noBackslash | ⟨front, back, cut, free⟩
    · obtain ⟨isDir, isBase⟩ := ends_of_free named noSlash noBackslash
      exact ⟨_, _, isDir, isBase, rfl, free_of_notMem noSlash noBackslash, .inl rfl⟩
    · obtain ⟨isDir, isBase⟩ := ends_of_backslash named cut noSlash free
      have backFree : slash ∉ back := fun inside => noSlash (by rw [cut]; simp [inside])
      refine ⟨_, _, isDir, isBase, ?_, free_of_notMem backFree free, .inr ?_⟩
      · rw [cut, List.append_assoc, List.singleton_append]
      · rw [List.getLast?_concat]
        rfl
  · have isBase := basename_of_slash named cut free
    rw [cut, afterLast_append_cons front free]
    constructor
    · rintro ⟨dir, base, _, based, cuts⟩ _ inside
      obtain rfl : back = base := Option.some.inj (isBase.symm.trans based)
      exact absurd (cuts.base backslash inside) (by decide)
    · intro clean
      have noBackslash : backslash ∉ back := clean (by simp)
      refine ⟨_, _, dirname_of_slash named cut free noBackslash, isBase, ?_,
        free_of_notMem free noBackslash, .inr ?_⟩
      · rw [cut, List.append_assoc, List.singleton_append]
      · rw [List.getLast?_concat]
        rfl

theorem dirname_basename_mixed :
    (∃ dir base, dirname (text "a\\b/c//") = some dir ∧ basename (text "a\\b/c//") = some base ∧
        Cuts (text "a\\b/c//") dir base) ↔
      (slash ∈ (text "a\\b/c//").rdropWhile isSep →
        backslash ∉ afterLast slash ((text "a\\b/c//").rdropWhile isSep)) :=
  dirname_basename_iff ⟨97, by decide, rfl⟩

/-- The directory of `a/b\c` is `a/b\`, but its last component is taken for `b\c`. -/
theorem dirname_basename_backslash :
    dirname (text "a/b\\c") = some (text "a/b\\") ∧
      basename (text "a/b\\c") = some (text "b\\c") ∧
      ¬ ∃ dir base, dirname (text "a/b\\c") = some dir ∧ basename (text "a/b\\c") = some base ∧
        Cuts (text "a/b\\c") dir base := by
  refine ⟨by decide, by decide, ?_⟩
  rintro ⟨dir, base, _, isBase, cuts⟩
  have taken : basename (text "a/b\\c") = some (text "b\\c") := by decide
  obtain rfl := Option.some.inj (taken.symm.trans isBase)
  exact absurd (cuts.base backslash (by decide)) (by decide)

/-! ### When the loop stays in the string -/

/-- **Both stay in the string when there is a component.** -/
theorem isSome_ends_iff (path : Bytes) :
    ((dirname path).isSome = true ↔ Named path) ∧ ((basename path).isSome = true ↔ Named path) := by
  by_cases named : Named path
  · constructor
    · refine iff_of_true ?_ named
      rw [dirname_of_named named]
      split <;> rfl
    · refine iff_of_true ?_ named
      rw [basename_of_named named]
      split <;> rfl
  · constructor
    · refine iff_of_false ?_ named
      rw [dirname, popSeps_eq_none named]
      exact Bool.false_ne_true
    · refine iff_of_false ?_ named
      rw [basename, popSeps_eq_none named]
      exact Bool.false_ne_true

end GemCaps.Path
