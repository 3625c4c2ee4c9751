/-
**The path functions** (`pathutils.cpp`).

The functions work on text alone and treat `/` and `\` alike. Loops over positions are written on
the rest of the path from the current position on.
-/

import GemCaps.Text

namespace GemCaps.Path

open Cutting

/-- A path separator. -/
def isSep (letter : Byte) : Bool := letter == slash || letter == backslash

/-- `path::join(root, path)`. -/
def join (root path : Bytes) : Bytes :=
  let path := if path.head?.any isSep then path.drop 1 else path
  if root.getLast?.any isSep then root ++ path else root ++ slash :: path

/-- `path::join(paths)` with the default separator. -/
def joinAll : List Bytes → Bytes
  | [] => []
  | [part] => part
  | part :: parts => part ++ slash :: joinAll parts

/-- The loop of `path::split` on the rest of the path; one round uses up at least one letter. -/
def splitLoop : Nat → Bytes → List Bytes
  | 0, _ => []
  | rounds + 1, rest =>
    if rest = [] then []
    else match find rest slash 0, find rest backslash 0 with
      | none, none => [rest]
      | none, some endBck => rest.take endBck :: splitLoop rounds (rest.drop (endBck + 1))
      | some endFwd, none => rest.take endFwd :: splitLoop rounds (rest.drop (endFwd + 1))
      | some endFwd, some endBck =>
        if endFwd < endBck then rest.take endFwd :: splitLoop rounds (rest.drop (endFwd + 1))
        else rest.take endBck :: splitLoop rounds (rest.drop (endBck + 1))

/-- `path::split`. -/
def split (path : Bytes) : List Bytes := splitLoop path.length path

/-- The loop shared by `isSubpath` and `relpath`: drop equal fronts until one list is empty;
`none` when two fronts differ. -/
def dropCommon : List Bytes → List Bytes → Option (List Bytes)
  | part :: parts, other :: others => if part ≠ other then none else dropCommon parts others
  | parts, _ => some parts

/-- `path::isSubpath`. -/
def isSubpath (path subpath : Bytes) : Bool := (dropCommon (split path) (split subpath)).isSome

/-- `path::relpath`. -/
def relpath (path rel : Bytes) : Bytes :=
  match dropCommon (split path) (split rel) with
  | none => path
  | some rest => joinAll rest

/-- One round of the loop in `path::delUps`. -/
def delUpsStep (parts : List Bytes) (part : Bytes) : List Bytes :=
  if part = text "." then parts
  else if part = text ".." then parts.dropLast
  else if part = [] ∧ parts ≠ [] then parts
  else parts ++ [part]

/-- The parts `path::delUps` joins at its end. -/
def delUpsParts (path : Bytes) : List Bytes := (split path).foldl delUpsStep []

/-- `path::delUps`. -/
def delUps (path : Bytes) : Bytes := joinAll (delUpsParts path)

/-- `path::isrel` (not on Windows). -/
def isrel (path : Bytes) : Bool := !path.head?.any isSep

/-- The loop at the start of `basename` and `dirname`, on the reversed path: drop separators from
the end. It calls `back()` until a letter is no separator; `none` when the string is empty then. -/
def popSeps : Bytes → Option Bytes
  | [] => none
  | letter :: rest => if isSep letter then popSeps rest else some (letter :: rest).reverse

/-- `path::basename`. A `/` is preferred to every backslash, so that the two are never compared. -/
def basename (path : Bytes) : Option Bytes := do
  let path ← popSeps path.reverse
  match rfind path slash, rfind path backslash with
  | none, none => some path
  | some foundFwd, _ => some (path.drop (foundFwd + 1))
  | none, some foundBck => some (path.drop (foundBck + 1))

/-- `path::dirname`. -/
def dirname (path : Bytes) : Option Bytes := do
  let path ← popSeps path.reverse
  match rfind path slash, rfind path backslash with
  | none, none => some []
  | none, some foundBck => some (path.take (foundBck + 1))
  | some foundFwd, none => some (path.take (foundFwd + 1))
  | some foundFwd, some foundBck =>
    some (path.take ((if foundBck < foundFwd then foundFwd else foundBck) + 1))

/-! ### What the loops compute -/

theorem isSep_slash : isSep slash = true := rfl

theorem joinAll_eq_intercalate (parts : List Bytes) : joinAll parts = [slash].intercalate parts := by
  induction parts using joinAll.induct with
  | case1 => rfl
  | case2 part => simp [joinAll]
  | case3 part parts nonempty ih =>
    obtain ⟨next, rest, rfl⟩ := List.exists_cons_of_ne_nil nonempty
    rw [joinAll, ih, List.intercalate_cons_cons]
    · simp
    · exact nonempty

theorem joinAll_cons {parts : List Bytes} (part : Bytes) (nonempty : parts ≠ []) :
    joinAll (part :: parts) = part ++ slash :: joinAll parts := by
  obtain ⟨next, rest, rfl⟩ := List.exists_cons_of_ne_nil nonempty
  rfl

theorem mem_joinAll {parts : List Bytes} {letter : Byte} (inside : letter ∈ joinAll parts) :
    (∃ part ∈ parts, letter ∈ part) ∨ letter = slash := by
  induction parts using joinAll.induct with
  | case1 => exact absurd inside List.not_mem_nil
  | case2 part => exact Or.inl ⟨part, List.mem_cons_self, inside⟩
  | case3 part parts nonempty ih =>
    rw [joinAll_cons part nonempty] at inside
    rcases List.mem_append.mp inside with inPart | later
    · exact Or.inl ⟨part, List.mem_cons_self, inPart⟩
    · rcases List.mem_cons.mp later with isSlash | inRest
      · exact Or.inr isSlash
      · rcases ih inRest with ⟨other, isOther, isLetter⟩ | isSlash
        · exact Or.inl ⟨other, List.mem_cons_of_mem _ isOther, isLetter⟩
        · exact Or.inr isSlash

/-- One round of the loop cuts off the front before the first separator. -/
theorem splitLoop_append_cons {front back : Bytes} {mark : Byte}
    (free : ∀ letter ∈ front, isSep letter = false) (isMark : isSep mark = true) (rounds : Nat) :
    splitLoop (rounds + 1) (front ++ mark :: back) = front :: splitLoop rounds back := by
  have noSlash : slash ∉ front := fun inside => by simpa [isSep] using free slash inside
  have noBackslash : backslash ∉ front := fun inside => by simpa [isSep] using free backslash inside
  have nonempty : front ++ mark :: back ≠ [] := by simp
  have after : (front ++ mark :: back).drop (front.length + 1) = back := drop_front front mark back
  have later : ∀ {other : Byte} {index : Nat}, other ∉ front → other ≠ mark →
      find (front ++ mark :: back) other 0 = some index → front.length < index := by
    intro other index otherFree different found
    obtain ⟨left, right, shape, _, rfl⟩ := exists_of_find_eq_some found
    rw [List.drop_zero] at shape
    by_contra small
    have atIndex : (front ++ mark :: back)[left.length]? = some other := by
      rw [shape, List.getElem?_append_right le_rfl, Nat.sub_self, List.getElem?_cons_zero]
    rcases Nat.lt_or_ge left.length front.length with inFront | atMark
    · rw [List.getElem?_append_left inFront] at atIndex
      exact otherFree (List.mem_of_getElem? atIndex)
    · have same : left.length = front.length := by omega
      rw [same, List.getElem?_append_right le_rfl, Nat.sub_self, List.getElem?_cons_zero,
        Option.some.injEq] at atIndex
      exact different atIndex.symm
  rw [splitLoop, if_neg nonempty]
  by_cases isSlash : mark = slash
  · subst isSlash
    have here : (front ++ slash :: back).drop 0 = front ++ slash :: back := rfl
    have foundFwd : find (front ++ slash :: back) slash 0 = some front.length := by
      simpa using find_eq_some here noSlash
    rw [foundFwd]
    cases foundBck : find (front ++ slash :: back) backslash 0 with
    | none => simp only [List.take_left, after]
    | some endBck =>
      simp only [if_pos (later noBackslash (by decide) foundBck), List.take_left, after]
  · have isBackslash : mark = backslash := by simpa [isSep, isSlash] using isMark
    subst isBackslash
    have here : (front ++ backslash :: back).drop 0 = front ++ backslash :: back := rfl
    have foundBck : find (front ++ backslash :: back) backslash 0 = some front.length := by
      simpa using find_eq_some here noBackslash
    rw [foundBck]
    cases foundFwd : find (front ++ backslash :: back) slash 0 with
    | none => simp only [List.take_left, after]
    | some endFwd =>
      have behind := later noSlash (by decide) foundFwd
      simp only [if_neg (Nat.lt_asymm behind), List.take_left, after]

theorem splitLoop_of_free {rest : Bytes} (free : ∀ letter ∈ rest, isSep letter = false)
    (nonempty : rest ≠ []) (rounds : Nat) : splitLoop (rounds + 1) rest = [rest] := by
  have noSlash : slash ∉ rest := fun inside => by simpa [isSep] using free slash inside
  have noBackslash : backslash ∉ rest := fun inside => by simpa [isSep] using free backslash inside
  rw [splitLoop, if_neg nonempty, find_eq_none (by simpa using noSlash),
    find_eq_none (by simpa using noBackslash)]

/-- **The loop of `split` ends with the fields of the path**, given a round for every letter. -/
theorem splitLoop_eq_fields {rounds : Nat} {rest : Bytes} (enough : rest.length ≤ rounds) :
    splitLoop rounds rest = fields isSep rest := by
  induction rest using fields_induction isSep generalizing rounds with
  | nil => cases rounds <;> simp [splitLoop]
  | last rest nonempty free =>
    have positive := List.length_pos_iff.mpr nonempty
    obtain ⟨rounds, rfl⟩ : ∃ less, rounds = less + 1 := ⟨rounds - 1, by omega⟩
    rw [splitLoop_of_free free nonempty, fields_of_free free nonempty]
  | field front mark back free isMark ih =>
    simp only [List.length_append, List.length_cons] at enough
    obtain ⟨rounds, rfl⟩ : ∃ less, rounds = less + 1 := ⟨rounds - 1, by omega⟩
    rw [splitLoop_append_cons free isMark, fields_append_cons free isMark, ih (by omega)]

theorem split_eq_fields (path : Bytes) : split path = fields isSep path :=
  splitLoop_eq_fields le_rfl

/-- `dropCommon` gives up, or drops a number of parts. -/
theorem dropCommon_eq_some {parts others rest : List Bytes}
    (dropped : dropCommon parts others = some rest) : ∃ count, rest = parts.drop count := by
  induction parts, others using dropCommon.induct with
  | case1 part parts other others different =>
    rw [dropCommon, if_pos different] at dropped
    cases dropped
  | case2 part parts other others same ih =>
    rw [dropCommon, if_neg same] at dropped
    obtain ⟨count, rfl⟩ := ih dropped
    exact ⟨count + 1, rfl⟩
  | case3 parts others short =>
    have kept : dropCommon parts others = some parts := by
      rw [dropCommon]
      exact short
    rw [kept] at dropped
    exact ⟨0, (Option.some.inj dropped).symm⟩

/-- `relpath` keeps the path, or takes components off its front. -/
theorem relpath_eq (path rel : Bytes) :
    relpath path rel = path ∨ ∃ count, relpath path rel = joinAll ((split path).drop count) := by
  unfold relpath
  cases dropped : dropCommon (split path) (split rel) with
  | none => exact .inl rfl
  | some rest =>
    obtain ⟨count, rfl⟩ := dropCommon_eq_some dropped
    exact .inr ⟨count, rfl⟩

/-- **The loop succeeds when one list is the front of the other.** -/
theorem dropCommon_isSome_iff (parts others : List Bytes) :
    (dropCommon parts others).isSome = true ↔ parts <+: others ∨ others <+: parts := by
  induction parts, others using dropCommon.induct with
  | case1 part parts other others different =>
    rw [dropCommon, if_pos different, List.cons_prefix_cons, List.cons_prefix_cons]
    refine iff_of_false (by simp) ?_
    rintro (⟨same, _⟩ | ⟨same, _⟩)
    · exact different same
    · exact different same.symm
  | case2 part parts other others same ih =>
    obtain rfl := not_not.mp same
    rw [dropCommon, if_neg same, ih, List.cons_prefix_cons, List.cons_prefix_cons]
    simp
  | case3 parts others short =>
    have kept : dropCommon parts others = some parts := by
      rw [dropCommon]
      exact short
    rw [kept]
    refine iff_of_true rfl ?_
    cases parts with
    | nil => exact .inl List.nil_prefix
    | cons part parts =>
      cases others with
      | nil => exact .inr List.nil_prefix
      | cons other others => exact absurd rfl (short part parts other others rfl)

/-- What is behind the common front. -/
theorem dropCommon_append (front rest : List Bytes) :
    dropCommon (front ++ rest) front = some rest := by
  induction front with
  | nil => cases rest <;> rfl
  | cons part front ih =>
    rw [List.cons_append, dropCommon, if_neg (not_not.mpr rfl), ih]

/-- Nothing is left of a front. -/
theorem dropCommon_of_prefix (front rest : List Bytes) :
    dropCommon front (front ++ rest) = some [] := by
  induction front with
  | nil => rfl
  | cons part front ih =>
    rw [List.cons_append, dropCommon, if_neg (not_not.mpr rfl), ih]

end GemCaps.Path
