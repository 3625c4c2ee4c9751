/-
**Where a canonical path lies below the folder.**

`handle` takes the components of the base off a canonical path and joins the rest to the folder.
`place` is the list of names that is left.

* `mapped_eq_place`: the file of a canonical path is the folder and these names.
* `mapped_eq_join_iff`: a path is mapped to an entry of the directory of another one when its place
  is the place of that one and the name of the entry. `join` drops a separator before the name.
* `place_entry`: for two requests that the handler takes, this says that the directory is not above
  the base, and that the one path continues the other; otherwise the one path is too long.
-/

import GemCaps.Files.Containment
import GemCaps.Files.Routing

namespace GemCaps

open Cutting GemCaps.Path

/-! ### Joined lists -/

namespace Path

theorem joinAll_append {front back : List Bytes} (frontFilled : front ≠ [])
    (backFilled : back ≠ []) :
    joinAll (front ++ back) = joinAll front ++ slash :: joinAll back := by
  induction front using joinAll.induct with
  | case1 => exact absurd rfl frontFilled
  | case2 part => exact joinAll_cons part backFilled
  | case3 part parts nonempty ih =>
    have later : parts ++ back ≠ [] := by simp [backFilled]
    rw [List.cons_append, joinAll_cons part later, ih nonempty, joinAll_cons part nonempty,
      List.append_assoc, List.cons_append]

theorem joinAll_concat {parts : List Bytes} (filled : parts ≠ []) (part : Bytes) :
    joinAll (parts ++ [part]) = joinAll parts ++ slash :: part :=
  joinAll_append filled (List.cons_ne_nil part [])

/-- A list of parts without separator can be read off its join. -/
theorem splitOn_joinAll {parts : List Bytes} (free : ∀ part ∈ parts, slash ∉ part)
    (filled : parts ≠ []) : (joinAll parts).splitOn slash = parts := by
  rw [joinAll_eq_intercalate, List.splitOn_intercalate slash free filled]

theorem split_ne_nil {path : Bytes} (filled : path ≠ []) : split path ≠ [] := by
  obtain ⟨letter, rest, rfl⟩ := List.exists_cons_of_ne_nil filled
  rw [split_eq_fields, fields]
  split
  · exact List.cons_ne_nil _ _
  · split <;> exact List.cons_ne_nil _ _

theorem split_of_rooted {path : Bytes} (rooted : path.head? = some slash) :
    ∃ rest, split path = [] :: rest := by
  obtain ⟨rest, rfl⟩ := List.head?_eq_some_iff.mp rooted
  exact ⟨split rest, by rw [split_eq_fields, split_eq_fields, fields_cons_mark isSep_slash]⟩

/-- The parts without the root. -/
def names : List Bytes → List Bytes
  | [] :: rest => rest
  | parts => parts

theorem names_of_filled {parts : List Bytes} (filled : ∀ part ∈ parts, part ≠ []) :
    names parts = parts := by
  rcases parts with _ | ⟨_ | ⟨letter, first⟩, rest⟩
  · rfl
  · exact absurd rfl (filled [] List.mem_cons_self)
  · rfl

theorem Normal.names_filled {parts : List Bytes} (normal : Normal parts) :
    ∀ part ∈ names parts, part ≠ [] := by
  rcases parts with _ | ⟨_ | ⟨letter, first⟩, rest⟩
  · exact fun part inside => absurd inside List.not_mem_nil
  · exact normal.filled
  · intro part inside
    rcases List.mem_cons.mp inside with rfl | later
    · exact List.cons_ne_nil _ _
    · exact normal.filled part later

theorem Normal.names {parts : List Bytes} (normal : Normal parts) : Normal (names parts) := by
  rcases parts with _ | ⟨_ | ⟨letter, first⟩, rest⟩
  · exact normal
  · exact normal.drop 1
  · exact normal

/-- `join` drops the root. -/
theorem unrooted_joinAll {parts : List Bytes} (normal : Normal parts) :
    unrooted (joinAll parts) = joinAll (names parts) := by
  rcases parts with _ | ⟨_ | ⟨letter, first⟩, rest⟩
  · rfl
  · by_cases single : rest = []
    · subst single
      rfl
    · rw [joinAll_cons [] single]
      rfl
  · have plain : isSep letter = false := normal.free _ List.mem_cons_self letter List.mem_cons_self
    have head : (joinAll ((letter :: first) :: rest)).head? = some letter := by cases rest <;> rfl
    rw [unrooted, head, if_neg (by simp [plain])]
    rfl

/-- Every file is joined to the folder with its separator. -/
theorem join_eq_append (root path : Bytes) : join root path = join root [] ++ unrooted path := by
  unfold join unrooted
  by_cases trailing : root.getLast?.any isSep = true
  · simp [trailing]
  · simp [trailing]

theorem getLast?_join_nil (root : Bytes) : (join root []).getLast?.any isSep = true := by
  unfold join
  by_cases trailing : root.getLast?.any isSep = true
  · simp [trailing]
  · simp [trailing, isSep_slash]

end Path

/-! ### The split of a canonical path -/

section Canonical

variable {path : Bytes}

/-- A canonical path is its joined parts, perhaps with a separator behind them. -/
theorem Canonical.shape (canonical : Canonical path) :
    delUps path = joinAll (split path) ∧
      (path = joinAll (split path) ∨ path = joinAll (split path) ++ [slash]) := by
  obtain ⟨parts, normal, same, rfl | rfl⟩ := canonical
  · by_cases root : parts = [[]]
    · subst root
      exact ⟨rfl, .inl rfl⟩
    · rw [split_joinAll normal root]
      exact ⟨same, .inl rfl⟩
  · by_cases empty : parts = []
    · subst empty
      exact ⟨rfl, .inr rfl⟩
    · rw [split_joinAll_slash normal empty]
      exact ⟨same, .inr rfl⟩

theorem Canonical.length_joinAll_le (canonical : Canonical path) :
    (joinAll (split path)).length ≤ path.length := by
  have lengths := canonical.shape.2
  rcases lengths with same | same
  · exact le_of_eq (congrArg List.length same.symm)
  · rw [congrArg List.length same, List.length_append]
    exact Nat.le_add_right _ _

end Canonical

/-! ### The place of a path -/

namespace FileHandler

/-- The parts of a path below the base, as `relpath` takes them. -/
def belowBase (handler : FileHandler) (parts : List Bytes) : List Bytes :=
  if handler.base.isEmpty then parts else (dropCommon parts (split handler.base)).getD parts

/-- The names of a path below the base. -/
def place (handler : FileHandler) (path : Bytes) : List Bytes :=
  names (handler.belowBase (split path))

section Place

variable {handler : FileHandler} {path other : Bytes}

theorem belowBase_normal {parts : List Bytes} (normal : Normal parts) :
    Normal (handler.belowBase parts) := by
  unfold belowBase
  split
  · exact normal
  · cases dropped : dropCommon parts (split handler.base) with
    | none => exact normal
    | some rest =>
      obtain ⟨count, rfl⟩ := dropCommon_eq_some dropped
      exact normal.drop count

theorem delUps_served (canonical : Canonical path) :
    delUps (handler.served path) = joinAll (handler.belowBase (split path)) := by
  unfold served belowBase
  cases handler.base.isEmpty with
  | true => exact canonical.shape.1
  | false =>
    simp only [Bool.false_eq_true, if_false]
    unfold relpath
    cases dropped : dropCommon (split path) (split handler.base) with
    | none => exact canonical.shape.1
    | some rest =>
      obtain ⟨count, rfl⟩ := dropCommon_eq_some dropped
      exact delUps_joinAll (canonical.normal_split.drop count)

/-- **The file of a canonical path**: the folder with its separator, and the names of its place. -/
theorem mapped_eq_place (canonical : Canonical path) :
    handler.mapped path = join handler.folder [] ++ joinAll (handler.place path) := by
  rw [mapped, delUps_served canonical, join_eq_append,
    unrooted_joinAll (belowBase_normal canonical.normal_split), place]

theorem place_normal (canonical : Canonical path) : Normal (handler.place path) :=
  (belowBase_normal canonical.normal_split).names

theorem place_filled (canonical : Canonical path) : ∀ name ∈ handler.place path, name ≠ [] :=
  (belowBase_normal canonical.normal_split).names_filled

/-- An entry of the directory that a canonical path is mapped to. -/
theorem join_mapped (canonical : Canonical path) (name : Bytes) :
    join (handler.mapped path) name =
      join handler.folder [] ++ joinAll (handler.place path ++ [unrooted name]) := by
  rw [mapped_eq_place canonical]
  by_cases atFolder : handler.place path = []
  · rw [atFolder, List.nil_append, joinAll, List.append_nil,
      join_of_trailing (getLast?_join_nil _), joinAll]
  · have filled : joinAll (handler.place path) ≠ [] := by
      obtain ⟨first, rest, isPlace⟩ := List.exists_cons_of_ne_nil atFolder
      have inside : first ∈ handler.place path := isPlace ▸ List.mem_cons_self
      exact joinAll_ne_nil inside (place_filled canonical first inside)
    have noTrailing : (join handler.folder [] ++ joinAll (handler.place path)).getLast?.any isSep =
        false := by
      rw [List.getLast?_append_of_ne_nil _ filled]
      exact getLast?_joinAll (place_normal canonical)
    rw [join_eq noTrailing, joinAll_concat atFolder, List.append_assoc]

/-- **When a path is mapped to an entry of the directory of another one.** -/
theorem mapped_eq_join_iff (canonical : Canonical path) (otherCanonical : Canonical other)
    {name : Bytes} (free : slash ∉ unrooted name) :
    handler.mapped other = join (handler.mapped path) name ↔
      handler.place other = handler.place path ++ [unrooted name] ∨
        (handler.place other = [] ∧ handler.place path = [] ∧ unrooted name = []) := by
  rw [mapped_eq_place otherCanonical, join_mapped canonical, List.append_cancel_left_eq]
  have entryFree : ∀ part ∈ handler.place path ++ [unrooted name], slash ∉ part := by
    intro part inside
    rcases List.mem_append.mp inside with before | last
    · exact (place_normal canonical).slash_notMem part before
    · exact List.mem_singleton.mp last ▸ free
  have isEntry := splitOn_joinAll entryFree (by simp)
  constructor
  · intro same
    by_cases atFolder : handler.place other = []
    · rw [atFolder] at same
      rw [← same] at isEntry
      have single : [[]] = handler.place path ++ [unrooted name] := isEntry
      refine .inr ⟨atFolder, ?_, ?_⟩
      · exact (List.append_eq_singleton_iff.mp single.symm).elim And.left fun both =>
          absurd both.2 (List.cons_ne_nil _ _)
      · exact ((List.append_eq_singleton_iff.mp single.symm).elim (fun both =>
          (List.cons.inj both.2).1) fun both => absurd both.2 (List.cons_ne_nil _ _))
    · rw [← same, splitOn_joinAll (place_normal otherCanonical).slash_notMem atFolder] at isEntry
      exact .inl isEntry
  · rintro (same | ⟨atFolder, atFolder', empty⟩)
    · rw [same]
    · rw [atFolder, atFolder', empty]
      rfl

/-! ### The place of a request that the handler takes -/

/-- The path is not strictly above the base. -/
def OnBase (handler : FileHandler) (path : Bytes) : Prop :=
  handler.base = [] ∨ Path.Below handler.base path

instance (handler : FileHandler) (path : Bytes) : Decidable (handler.OnBase path) :=
  inferInstanceAs (Decidable (_ ∨ _))

/-- The path is the root, or the base, or above the base. -/
def AtTop (handler : FileHandler) (path : Bytes) : Prop :=
  split path <+: [[]] ∨ split path <+: split handler.base

instance (handler : FileHandler) (path : Bytes) : Decidable (handler.AtTop path) :=
  inferInstanceAs (Decidable (_ ∨ _))

theorem place_of_noBase (noBase : handler.base = []) (path : Bytes) :
    handler.place path = names (split path) := by
  rw [place, belowBase, if_pos (List.isEmpty_iff.mpr noBase)]

/-- Below a base there are only names. -/
theorem place_of_below (canonical : Canonical path) (based : handler.base ≠ []) {rest : List Bytes}
    (isSplit : split path = split handler.base ++ rest) : handler.place path = rest := by
  have isPlace : handler.place path = names rest := by
    rw [place, belowBase, if_neg (by simpa using based), isSplit, dropCommon_append,
      Option.getD_some]
  rw [isPlace]
  refine names_of_filled fun part inside => canonical.normal_split.filled part ?_
  obtain ⟨first, others, isBase⟩ := List.exists_cons_of_ne_nil (split_ne_nil based)
  rw [isSplit, isBase, List.cons_append, List.tail_cons]
  exact List.mem_append_right _ inside

theorem place_of_above (based : handler.base ≠ []) (above : split path <+: split handler.base) :
    handler.place path = [] := by
  obtain ⟨rest, isBase⟩ := above
  rw [place, belowBase, if_neg (by simpa using based), ← isBase, dropCommon_of_prefix]
  rfl

/-- **A path that continues another one** by a name, below the base, has the place of an entry. -/
theorem place_concat (canonical : Canonical path) (rooted : path.head? = some slash)
    (onBase : handler.OnBase path) (otherCanonical : Canonical other) {part : Bytes}
    (continued : split other = split path ++ [part]) :
    handler.place other = handler.place path ++ [part] := by
  by_cases noBase : handler.base = []
  · obtain ⟨rest, isSplit⟩ := split_of_rooted rooted
    rw [place_of_noBase noBase, place_of_noBase noBase, continued, isSplit]
    rfl
  · obtain ⟨rest, isSplit⟩ := onBase.resolve_left noBase
    rw [place_of_below canonical noBase isSplit.symm]
    refine place_of_below otherCanonical noBase ?_
    rw [continued, ← isSplit, List.append_assoc]

/-- **Which request has the place of an entry**, among those that the handler takes: the directory
is not above the base and the request continues it, or the request is longer than that. -/
theorem place_entry {host otherHost part : Bytes} (canonical : Canonical path)
    (rooted : path.head? = some slash) (taken : handler.shouldHandle host path = true)
    (otherCanonical : Canonical other) (otherRooted : other = [] ∨ other.head? = some slash)
    (otherTaken : handler.shouldHandle otherHost other = true)
    (isEntry : handler.place other = handler.place path ++ [part]) :
    (handler.OnBase path ∧ split other = split path ++ [part]) ∨
      (joinAll (split path ++ [part])).length < (joinAll (split other)).length := by
  have notTop : handler.place other ≠ [] := by simp [isEntry]
  by_cases noBase : handler.base = []
  · obtain ⟨rest, isSplit⟩ := split_of_rooted rooted
    rw [place_of_noBase noBase, place_of_noBase noBase, isSplit] at isEntry
    rcases otherRooted with rfl | otherRooted
    · exact absurd (place_of_noBase noBase []) notTop
    · obtain ⟨otherRest, isOther⟩ := split_of_rooted otherRooted
      rw [isOther] at isEntry
      have same : otherRest = rest ++ [part] := isEntry
      exact .inl ⟨.inl noBase, by rw [isOther, isSplit, same, List.cons_append]⟩
  · have otherBelow : Path.Below handler.base other := by
      rcases ((shouldHandle_iff _ _ _).mp otherTaken).2 with none | below | above
      · exact absurd none noBase
      · exact below
      · exact absurd (place_of_above noBase above.1) notTop
    obtain ⟨otherRest, isOther⟩ := otherBelow
    rw [place_of_below otherCanonical noBase isOther.symm] at isEntry
    rcases ((shouldHandle_iff _ _ _).mp taken).2 with none | below | above
    · exact absurd none noBase
    · obtain ⟨rest, isSplit⟩ := id below
      rw [place_of_below canonical noBase isSplit.symm] at isEntry
      exact .inl ⟨.inr below, by rw [← isOther, ← isSplit, isEntry, List.append_assoc]⟩
    · obtain ⟨more, isBase⟩ := above.1
      have moreFilled : more ≠ [] := fun empty => above.2 (by rw [← isBase, empty, List.append_nil])
      have splitFilled : split path ≠ [] := by
        obtain ⟨rest, isSplit⟩ := split_of_rooted rooted
        simp [isSplit]
      rw [place_of_above noBase above.1, List.nil_append] at isEntry
      -- The request repeats the base, which has more parts than the directory.
      refine .inr ?_
      rw [← isOther, ← isBase, isEntry, List.append_assoc, joinAll_concat splitFilled,
        joinAll_append splitFilled (by simp), joinAll_concat moreFilled]
      simp only [List.length_append, List.length_cons]
      omega

/-- A request that the handler takes has no place below the folder exactly at the top. -/
theorem place_eq_nil_iff {host : Bytes} (canonical : Canonical path)
    (taken : handler.shouldHandle host path = true) :
    handler.place path = [] ↔ handler.AtTop path := by
  by_cases noBase : handler.base = []
  · rw [place_of_noBase noBase, AtTop, noBase, show split [] = [] from rfl]
    rcases split path with _ | ⟨_ | ⟨letter, first⟩, rest⟩
    · exact iff_of_true rfl (.inl List.nil_prefix)
    · simp [names]
    · simp [names]
  · rcases ((shouldHandle_iff _ _ _).mp taken).2 with none | below | above
    · exact absurd none noBase
    · obtain ⟨rest, isSplit⟩ := below
      have baseFilled := List.length_pos_iff.mpr (split_ne_nil noBase)
      rw [place_of_below canonical noBase isSplit.symm, AtTop, ← isSplit]
      constructor
      · rintro rfl
        exact .inr (by simp)
      · rintro (atRoot | atBase)
        · have short := atRoot.length_le
          rw [List.length_append, List.length_singleton] at short
          exact List.eq_nil_of_length_eq_zero (by omega)
        · have short := atBase.length_le
          rw [List.length_append] at short
          exact List.eq_nil_of_length_eq_zero (by omega)
    · exact iff_of_true (place_of_above noBase above.1) (.inr above.1)

end Place

end FileHandler

end GemCaps
