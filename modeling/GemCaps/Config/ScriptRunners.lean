/-
**The programs that run scripts** (`Executor::load`, `Executor::findPath`, and their use in `main`).

`conf.yml` names for each extension the words of a program; a program without a separator in its name
is looked up in the directories of `PATH`. The loop over the entries ends at the first one that is
wrong and keeps those before it, and `main` goes on whatever was thrown.

* `launcher_startPrograms_iff`: with which words a script is launched, from the text of the file to the
  directories.
* `load_eq_error_iff`: which exception leaves `load`, for the first entry that is wrong.
-/

import GemCaps.Config.Directory
import GemCaps.Executor.Arrays

namespace GemCaps

open Loading

/-! ### `PATH` -/

/-- The loop of `findPath` that cuts `PATH` at the colons; one round uses up at least one letter. -/
def cutPath : Nat → Bytes → List Bytes
  | 0, _ => []
  | rounds + 1, path =>
    match find path colon 0 with
    | none => [path]
    | some pos => path.take pos :: cutPath rounds (path.drop (pos + 1))

/-- `paths` of `findPath`. -/
def searchPaths (path : CString) : List Bytes := cutPath (path.bytes.length + 1) path.bytes

/-- The loops of `findPath` over the directories and their entries. -/
def findIn (scans : Bytes → Scan) (filename : Bytes) : List Bytes → Bytes
  | [] => filename
  | dir :: dirs =>
    match scans dir with
    | .error _ => findIn scans filename dirs
    | .ok listing =>
      match listing.entries.find? fun entry => entry.isFile && filename == entry.name.bytes with
      | some entry => Path.join dir entry.name.bytes
      | none => findIn scans filename dirs

/-- `Executor::findPath(filename)`; `path` is `Executor::getPath()`. -/
def Executor.findPath (path : CString) (scans : Bytes → Scan) (filename : Bytes) : Bytes :=
  findIn scans filename (searchPaths path)

/-! ### The table of the programs -/

section Functions

variable (yaml : YamlCpp) (locate : Bytes → Bytes)

/-- `as<vector<string>>()` of a sequence, and a single word. -/
def readWords (node : YamlNode) : Except Thrown (List Bytes) :=
  match node with
  | .sequence _ items => items.mapM fun item => item.convert yaml yaml.asString
  | .null _ | .scalar _ _ | .map _ _ => do
    let word ← node.convert yaml yaml.asString
    .ok [word]

/-- One round of `load` up to the insertion. -/
def readRunner (pair : YamlNode × YamlNode) : Except Thrown (Bytes × List Bytes) := do
  let program ← readWords yaml pair.2
  match program with
  | [] => .error (.invalidSettings pair.2.mark (text "Must have at least one element in the sequence"))
  | exe :: rest =>
    let ext ← pair.1.convert yaml yaml.asString
    let front := if find exe slash 0 = none ∧ find exe backslash 0 = none then locate exe else exe
    .ok (ext, front :: rest)

/-- `Executor::load(settings)`: the table that it leaves, and how it ends. -/
def Executor.load (settings : YamlNode) : Programs × Except Thrown Unit :=
  match settings with
  | .map _ pairs =>
    let loaded := loadUntil (readRunner yaml locate) insertNew (fun _ => none) pairs
    (loaded.1, rethrow (fun _ message => message) loaded.2)
  | .null mark | .scalar mark _ | .sequence mark _ =>
    (fun _ => none, .error (.invalidSettings mark (text "Must be a map")))

/-- The part of `main` that loads the table; whatever is thrown is caught and printed. -/
def startPrograms (files : Files) (config : Bytes) : Programs :=
  match loadFile files (Path.join config (text "conf.yml")) with
  | .error _ => fun _ => none
  | .ok node =>
    match node.subscript yaml (text "scriptRunners") with
    | .error _ | .ok none => fun _ => none
    | .ok (some settings) => (Executor.load yaml locate settings).1

end Functions

/-! ### What is looked up -/

/-- A directory that can be read has a file of this name. -/
def Holds (scans : Bytes → Scan) (filename dir : Bytes) : Prop :=
  ∃ listing, scans dir = .ok listing ∧
    ∃ entry ∈ listing.entries, entry.isFile = true ∧ entry.name.bytes = filename

/-- What stands in the table for the first word: a path stays, a name becomes the file in the first
directory of `PATH` that has one, or stays. -/
def Located (path : CString) (scans : Bytes → Scan) (exe found : Bytes) : Prop :=
  if slash ∈ exe ∨ backslash ∈ exe then found = exe
  else (∃ before dir after, path.bytes.splitOn colon = before ++ dir :: after ∧
      Holds scans exe dir ∧ (∀ earlier ∈ before, ¬ Holds scans exe earlier) ∧
      found = Path.join dir exe) ∨
    (∀ dir ∈ path.bytes.splitOn colon, ¬ Holds scans exe dir) ∧ found = exe

/-- The words in a node: a sequence of strings, or one string. -/
def Written (yaml : YamlCpp) (node : YamlNode) (words : List Bytes) : Prop :=
  match node with
  | .sequence _ items => items.mapM yaml.asString = some words
  | .null _ | .scalar _ _ | .map _ _ => ∃ word, yaml.asString node = some word ∧ words = [word]

/-- An entry for an extension, with at least one word. -/
structure Names (yaml : YamlCpp) (pair : YamlNode × YamlNode) (ext exe : Bytes)
    (rest : List Bytes) : Prop where
  ext : yaml.asString pair.1 = some ext
  words : Written yaml pair.2 (exe :: rest)

variable {yaml : YamlCpp} {path : CString} {scans : Bytes → Scan}

/-- **The loop cuts at every colon.** -/
theorem cutPath_eq {rounds : Nat} {path : Bytes} (enough : path.length < rounds) :
    cutPath rounds path = path.splitOn colon := by
  induction rounds generalizing path with
  | zero => cases enough
  | succ rounds ih =>
    unfold cutPath
    cases found : find path colon 0 with
    | none =>
      have free : colon ∉ path := find_eq_none_iff.mp found
      exact (List.splitOn_eq_singleton free).symm
    | some pos =>
      obtain ⟨front, back, here, free, isPos⟩ := exists_of_find_eq_some found
      rw [List.drop_zero] at here
      have isPos : pos = front.length := by omega
      have shorter : back.length < rounds := by
        rw [here, List.length_append, List.length_cons] at enough
        omega
      have cut : path.drop (pos + 1) = back := by
        rw [here, isPos, List.append_cons, List.drop_left' (by simp)]
      show path.take pos :: cutPath rounds (path.drop (pos + 1)) = _
      rw [cut, ih shorter, here, List.splitOn_append_cons_self_of_not_mem free, isPos,
        List.take_left' rfl]

theorem searchPaths_eq : searchPaths path = path.bytes.splitOn colon :=
  cutPath_eq (Nat.lt_succ_self _)

/-- One directory. -/
theorem findIn_cons (filename dir : Bytes) (dirs : List Bytes) :
    (Holds scans filename dir ∧ findIn scans filename (dir :: dirs) = Path.join dir filename) ∨
      (¬ Holds scans filename dir ∧
        findIn scans filename (dir :: dirs) = findIn scans filename dirs) := by
  cases scanned : scans dir with
  | error result =>
    refine .inr ⟨?_, by rw [findIn, scanned]⟩
    rintro ⟨listing, isListing, _⟩
    exact absurd (scanned.symm.trans isListing) nofun
  | ok listing =>
    cases found : listing.entries.find? fun entry =>
        entry.isFile && filename == entry.name.bytes with
    | some entry =>
      have isEntry : entry.isFile = true ∧ filename = entry.name.bytes := by
        simpa using List.find?_some found
      refine .inl ⟨⟨listing, scanned, entry, List.mem_of_find?_eq_some found, isEntry.1,
        isEntry.2.symm⟩, ?_⟩
      have isName : Path.join dir entry.name.bytes = Path.join dir filename :=
        congrArg (Path.join dir) isEntry.2.symm
      rw [← isName]
      simp only [findIn, scanned, found]
    | none =>
      refine .inr ⟨?_, by simp only [findIn, scanned, found]⟩
      rintro ⟨other, isOther, entry, inside, isFile, named⟩
      obtain rfl := Except.ok.inj (scanned.symm.trans isOther)
      have misses := List.find?_eq_none.mp found entry inside
      simp [isFile, named] at misses

/-- **The first directory that has the file.** -/
theorem findIn_eq_iff {filename found : Bytes} (dirs : List Bytes) :
    findIn scans filename dirs = found ↔
      (∃ before dir after, dirs = before ++ dir :: after ∧ Holds scans filename dir ∧
        (∀ earlier ∈ before, ¬ Holds scans filename earlier) ∧ found = Path.join dir filename) ∨
      (∀ dir ∈ dirs, ¬ Holds scans filename dir) ∧ found = filename := by
  induction dirs with
  | nil =>
    constructor
    · exact fun same => .inr ⟨fun _ => nofun, same.symm⟩
    · rintro (⟨before, dir, after, split, _⟩ | ⟨_, same⟩)
      · exact absurd split.symm (by simp)
      · exact same.symm
  | cons first dirs ih =>
    rcases @findIn_cons scans filename first dirs with ⟨holds, isFound⟩ | ⟨lacks, isFound⟩
    · rw [isFound]
      constructor
      · exact fun same => .inl ⟨[], first, dirs, rfl, holds, fun _ => nofun, same.symm⟩
      · rintro (⟨before, dir, after, split, _, earlier, same⟩ | ⟨none, _⟩)
        · cases before with
          | nil =>
            obtain ⟨rfl, _⟩ := List.cons.inj split
            exact same.symm
          | cons other before =>
            obtain ⟨rfl, _⟩ := List.cons.inj split
            exact absurd holds (earlier first List.mem_cons_self)
        · exact absurd holds (none first List.mem_cons_self)
    · rw [isFound, ih]
      constructor
      · rintro (⟨before, dir, after, rfl, holds, earlier, same⟩ | ⟨none, same⟩)
        · exact .inl ⟨first :: before, dir, after, rfl, holds,
            List.forall_mem_cons.mpr ⟨lacks, earlier⟩, same⟩
        · exact .inr ⟨List.forall_mem_cons.mpr ⟨lacks, none⟩, same⟩
      · rintro (⟨before, dir, after, split, holds, earlier, same⟩ | ⟨none, same⟩)
        · cases before with
          | nil =>
            obtain ⟨rfl, _⟩ := List.cons.inj split
            exact absurd holds lacks
          | cons other before =>
            obtain ⟨rfl, isRest⟩ := List.cons.inj split
            exact .inl ⟨before, dir, after, isRest, holds, (List.forall_mem_cons.mp earlier).2, same⟩
        · exact .inr ⟨(List.forall_mem_cons.mp none).2, same⟩

/-! ### The entries -/

theorem convert_eq_ok_iff {α : Type} {decode : YamlNode → Option α} {node : YamlNode} {value : α} :
    node.convert yaml decode = .ok value ↔ decode node = some value := by
  unfold YamlNode.convert
  cases decode node with
  | none => exact iff_of_false nofun nofun
  | some other =>
    exact ⟨fun same => congrArg some (Except.ok.inj same),
      fun same => congrArg Except.ok (Option.some.inj same)⟩

theorem mapM_convert_eq_ok_iff {items : List YamlNode} {words : List Bytes} :
    (items.mapM fun item => item.convert yaml yaml.asString) = .ok words ↔
      items.mapM yaml.asString = some words := by
  induction items generalizing words with
  | nil =>
    exact ⟨fun same => congrArg some (Except.ok.inj same),
      fun same => congrArg Except.ok (Option.some.inj same)⟩
  | cons item items ih =>
    rw [List.mapM_cons, List.mapM_cons, bind_eq_ok_iff, Option.bind_eq_bind, Option.bind_eq_some_iff]
    refine exists_congr fun word => and_congr convert_eq_ok_iff ?_
    rw [bind_eq_ok_iff, Option.bind_eq_bind, Option.bind_eq_some_iff]
    refine exists_congr fun others => and_congr ih ?_
    exact ⟨fun same => congrArg some (Except.ok.inj same),
      fun same => congrArg Except.ok (Option.some.inj same)⟩

theorem readWords_eq_ok_iff {node : YamlNode} {words : List Bytes} :
    readWords yaml node = .ok words ↔ Written yaml node words := by
  have single : ∀ node : YamlNode, (do
      let word ← node.convert yaml yaml.asString
      .ok [word] : Except Thrown (List Bytes)) = .ok words ↔
        ∃ word, yaml.asString node = some word ∧ words = [word] := by
    intro node
    rw [bind_eq_ok_iff]
    refine exists_congr fun word => and_congr convert_eq_ok_iff ?_
    exact ⟨fun same => (Except.ok.inj same).symm, fun same => congrArg Except.ok same.symm⟩
  cases node with
  | sequence mark items => exact mapM_convert_eq_ok_iff
  | null mark | scalar mark value | map mark pairs => exact single _

/-- The test of `load` on the first word. -/
theorem located_iff {exe found : Bytes} :
    Located path scans exe found ↔
      found = if find exe slash 0 = none ∧ find exe backslash 0 = none then
        Executor.findPath path scans exe else exe := by
  have plain : (find exe slash 0 = none ∧ find exe backslash 0 = none) ↔
      ¬ (slash ∈ exe ∨ backslash ∈ exe) := by
    rw [find_eq_none_iff, find_eq_none_iff, List.drop_zero, not_or]
  unfold Located
  by_cases separated : slash ∈ exe ∨ backslash ∈ exe
  · rw [if_pos separated, if_neg (plain.not.mpr (not_not.mpr separated))]
  · rw [if_neg separated, if_pos (plain.mpr separated), Executor.findPath, searchPaths_eq,
      ← findIn_eq_iff]
    exact eq_comm

/-- One entry, with any way to look up its first word. -/
theorem readRunner_names_iff {locate : Bytes → Bytes} {pair : YamlNode × YamlNode} {ext : Bytes}
    {words : List Bytes} : readRunner yaml locate pair = .ok (ext, words) ↔
      ∃ exe rest, Names yaml pair ext exe rest ∧
        words = (if find exe slash 0 = none ∧ find exe backslash 0 = none then locate exe else exe) ::
          rest := by
  unfold readRunner
  rw [bind_eq_ok_iff]
  constructor
  · rintro ⟨program, isRead, rest⟩
    cases program with
    | nil => cases rest
    | cons exe others =>
      obtain ⟨name, isName, same⟩ := bind_eq_ok_iff.mp rest
      obtain ⟨rfl, rfl⟩ := Prod.mk.inj (Except.ok.inj same)
      exact ⟨exe, others, ⟨convert_eq_ok_iff.mp isName, readWords_eq_ok_iff.mp isRead⟩, rfl⟩
  · rintro ⟨exe, others, ⟨isName, areWords⟩, rfl⟩
    refine ⟨exe :: others, readWords_eq_ok_iff.mpr areWords, ?_⟩
    exact bind_eq_ok_iff.mpr ⟨ext, convert_eq_ok_iff.mpr isName, rfl⟩

/-- **One entry**: its words, the first one looked up. -/
theorem readRunner_eq_ok_iff {pair : YamlNode × YamlNode} {ext : Bytes} {words : List Bytes} :
    readRunner yaml (Executor.findPath path scans) pair = .ok (ext, words) ↔
      ∃ exe rest found, Names yaml pair ext exe rest ∧ Located path scans exe found ∧
        words = found :: rest := by
  rw [readRunner_names_iff]
  refine exists_congr fun exe => exists_congr fun rest => ?_
  simp only [located_iff, exists_eq_left, exists_and_left]

/-! ### The table -/

/-- The settings name these words for an extension: in the first entry for it, and no entry before
that one is wrong. -/
def Runs (yaml : YamlCpp) (path : CString) (scans : Bytes → Scan) (settings : YamlNode)
    (ext : Bytes) (words : List Bytes) : Prop :=
  ∃ mark before pair after, settings = .map mark (before ++ pair :: after) ∧
    (∃ exe rest found, Names yaml pair ext exe rest ∧ Located path scans exe found ∧
      words = found :: rest) ∧
    ∀ earlier ∈ before, ∃ other exe rest, Names yaml earlier other exe rest ∧ other ≠ ext

/-- A lookup always has a result. -/
theorem exists_located (exe : Bytes) : ∃ found, Located path scans exe found :=
  ⟨_, located_iff.mpr rfl⟩

/-- **The table that `load` leaves**, also when it ends with an exception. -/
theorem load_eq_some_iff {settings : YamlNode} {ext : Bytes} {words : List Bytes} :
    (Executor.load yaml (Executor.findPath path scans) settings).1 ext = some words ↔
      Runs yaml path scans settings ext words := by
  cases settings with
  | null mark | scalar mark value | sequence mark items =>
    refine iff_of_false nofun ?_
    rintro ⟨_, _, _, _, isMap, _⟩
    cases isMap
  | map mark pairs =>
    show (loadUntil (readRunner yaml (Executor.findPath path scans)) insertNew
      (fun _ => none) pairs).1 ext = some words ↔ _
    rw [loadUntil_state, foldl_insertNew, Option.none_or, Option.map_eq_some_iff]
    constructor
    · rintro ⟨⟨name, found⟩, isFound, rfl⟩
      obtain ⟨named, before, pair, after, rfl, isRead, earlier⟩ :=
        (find?_frontData_eq_some _).mp isFound
      obtain rfl : name = ext := of_decide_eq_true named
      refine ⟨mark, before, pair, after, rfl, readRunner_eq_ok_iff.mp isRead, fun first inside => ?_⟩
      obtain ⟨⟨other, otherWords⟩, isOther, differs⟩ := earlier first inside
      obtain ⟨exe, rest, _, names, _⟩ := readRunner_eq_ok_iff.mp isOther
      exact ⟨other, exe, rest, names, of_decide_eq_false differs⟩
    · rintro ⟨_, before, pair, after, same, isRead, earlier⟩
      obtain ⟨_, rfl⟩ := YamlNode.map.inj same
      refine ⟨(ext, words), (find?_frontData_eq_some _).mpr ⟨decide_eq_true rfl, before, pair, after,
        rfl, readRunner_eq_ok_iff.mpr isRead, fun first inside => ?_⟩, rfl⟩
      obtain ⟨other, exe, rest, names, differs⟩ := earlier first inside
      obtain ⟨found, located⟩ := @exists_located path scans exe
      have isRead := readRunner_eq_ok_iff.mpr ⟨exe, rest, found, names, located, rfl⟩
      exact ⟨(other, found :: rest), isRead, decide_eq_false differs⟩

/-- What an entry throws: for an empty sequence; for the first node that is no string where a word is
read; or else for a key that is no string. -/
inductive Wrong (yaml : YamlCpp) : YamlNode × YamlNode → Thrown → Prop
  | empty (key : YamlNode) (mark : Mark) : Wrong yaml (key, .sequence mark [])
      (.invalidSettings mark (text "Must have at least one element in the sequence"))
  | item (key : YamlNode) (mark : Mark) (before : List YamlNode) (item : YamlNode)
      (after : List YamlNode) (earlier : ∀ other ∈ before, (yaml.asString other).isSome = true)
      (noString : yaml.asString item = none) :
      Wrong yaml (key, .sequence mark (before ++ item :: after))
        (.representation item.mark yaml.badConversion)
  | word (key node : YamlNode) (single : ∀ mark items, node ≠ .sequence mark items)
      (noString : yaml.asString node = none) :
      Wrong yaml (key, node) (.representation node.mark yaml.badConversion)
  | key (key node : YamlNode) (exe : Bytes) (rest : List Bytes)
      (words : Written yaml node (exe :: rest)) (noString : yaml.asString key = none) :
      Wrong yaml (key, node) (.representation key.mark yaml.badConversion)

theorem convert_eq_error_iff {α : Type} {decode : YamlNode → Option α} {node : YamlNode}
    {thrown : Thrown} : node.convert yaml decode = .error thrown ↔
      decode node = none ∧ thrown = .representation node.mark yaml.badConversion := by
  unfold YamlNode.convert
  cases decode node with
  | none => exact ⟨fun same => ⟨rfl, (Except.error.inj same).symm⟩, fun both => both.2 ▸ rfl⟩
  | some value => exact iff_of_false nofun fun both => nomatch both.1

theorem bind_eq_error_iff {α β : Type} {result : Except Thrown α} {next : α → Except Thrown β}
    {thrown : Thrown} : result >>= next = .error thrown ↔
      result = .error thrown ∨ ∃ value, result = .ok value ∧ next value = .error thrown := by
  cases result with
  | error other =>
    show Except.error other = Except.error thrown ↔ _
    refine ⟨fun same => .inl (Except.error.inj same ▸ rfl), ?_⟩
    rintro (same | ⟨_, isValue, _⟩)
    · exact congrArg Except.error (Except.error.inj same)
    · cases isValue
  | ok value =>
    refine ⟨fun same => .inr ⟨value, rfl, same⟩, ?_⟩
    rintro (same | ⟨other, isOther, fails⟩)
    · cases same
    · exact Except.ok.inj isOther ▸ fails

theorem mapM_convert_eq_error_iff {items : List YamlNode} {thrown : Thrown} :
    (items.mapM fun item => item.convert yaml yaml.asString) = .error thrown ↔
      ∃ before item after, items = before ++ item :: after ∧
        (∀ other ∈ before, (yaml.asString other).isSome = true) ∧ yaml.asString item = none ∧
        thrown = .representation item.mark yaml.badConversion := by
  induction items with
  | nil =>
    refine iff_of_false nofun ?_
    rintro ⟨before, item, after, split, _⟩
    exact absurd split.symm (by simp)
  | cons first items ih =>
    rw [List.mapM_cons, bind_eq_error_iff, convert_eq_error_iff]
    constructor
    · rintro (⟨noString, rfl⟩ | ⟨word, isWord, fails⟩)
      · exact ⟨[], first, items, rfl, fun _ => nofun, noString, rfl⟩
      · rcases bind_eq_error_iff.mp fails with later | ⟨_, _, never⟩
        · obtain ⟨before, item, after, rfl, earlier, rest⟩ := ih.mp later
          have isString := Option.isSome_iff_exists.mpr ⟨word, convert_eq_ok_iff.mp isWord⟩
          exact ⟨first :: before, item, after, rfl,
            List.forall_mem_cons.mpr ⟨isString, earlier⟩, rest⟩
        · cases never
    · rintro ⟨before, item, after, split, earlier, noString, rfl⟩
      cases before with
      | nil =>
        obtain ⟨rfl, _⟩ := List.cons.inj split
        exact .inl ⟨noString, rfl⟩
      | cons other before =>
        obtain ⟨rfl, isRest⟩ := List.cons.inj split
        obtain ⟨isFirst, areOthers⟩ := List.forall_mem_cons.mp earlier
        obtain ⟨word, isWord⟩ := Option.isSome_iff_exists.mp isFirst
        refine .inr ⟨word, convert_eq_ok_iff.mpr isWord, bind_eq_error_iff.mpr (.inl ?_)⟩
        exact ih.mpr ⟨before, item, after, isRest, areOthers, noString, rfl⟩

/-- Only an empty sequence has no words. -/
theorem sequence_of_written_nil {node : YamlNode} (written : Written yaml node []) :
    ∃ mark, node = .sequence mark [] := by
  cases node with
  | sequence mark items =>
    refine ⟨mark, congrArg (YamlNode.sequence mark) ?_⟩
    cases items with
    | nil => rfl
    | cons item items =>
      have isWritten : (item :: items).mapM yaml.asString = some [] := written
      rw [List.mapM_cons, Option.bind_eq_bind, Option.bind_eq_some_iff] at isWritten
      obtain ⟨word, _, rest⟩ := isWritten
      rw [Option.bind_eq_bind, Option.bind_eq_some_iff] at rest
      obtain ⟨others, _, same⟩ := rest
      cases same
  | null mark | scalar mark value | map mark pairs =>
    obtain ⟨_, _, same⟩ := written
    cases same

/-- **What one entry throws.** -/
theorem readRunner_eq_error_iff {locate : Bytes → Bytes} {pair : YamlNode × YamlNode}
    {thrown : Thrown} : readRunner yaml locate pair = .error thrown ↔ Wrong yaml pair thrown := by
  obtain ⟨key, node⟩ := pair
  unfold readRunner
  rw [bind_eq_error_iff]
  constructor
  · rintro (fails | ⟨program, isRead, fails⟩)
    · cases node with
      | sequence mark items =>
        obtain ⟨before, item, after, rfl, earlier, noString, rfl⟩ :=
          mapM_convert_eq_error_iff.mp fails
        exact .item key mark before item after earlier noString
      | null mark | scalar mark value | map mark pairs =>
        rcases bind_eq_error_iff.mp fails with noWord | ⟨_, _, never⟩
        · obtain ⟨noString, rfl⟩ := convert_eq_error_iff.mp noWord
          exact .word key _ (fun _ _ => nofun) noString
        · cases never
    · cases program with
      | nil =>
        obtain rfl := Except.error.inj fails
        obtain ⟨mark, rfl⟩ := sequence_of_written_nil (readWords_eq_ok_iff.mp isRead)
        exact .empty key mark
      | cons exe rest =>
        rcases bind_eq_error_iff.mp fails with noKey | ⟨_, _, never⟩
        · obtain ⟨noString, rfl⟩ := convert_eq_error_iff.mp noKey
          exact .key key node exe rest (readWords_eq_ok_iff.mp isRead) noString
        · cases never
  · intro wrong
    cases wrong with
    | empty key mark => exact .inr ⟨[], rfl, rfl⟩
    | item key mark before item after earlier noString =>
      exact .inl (mapM_convert_eq_error_iff.mpr ⟨before, item, after, rfl, earlier, noString, rfl⟩)
    | word key node single noString =>
      refine .inl ?_
      cases node with
      | sequence mark items => exact absurd rfl (single mark items)
      | null mark | scalar mark value | map mark pairs =>
        exact bind_eq_error_iff.mpr (.inl (convert_eq_error_iff.mpr ⟨noString, rfl⟩))
    | key key node exe rest words noString =>
      refine .inr ⟨exe :: rest, readWords_eq_ok_iff.mpr words, bind_eq_error_iff.mpr (.inl ?_)⟩
      exact convert_eq_error_iff.mpr ⟨noString, rfl⟩

/-- The exception as it leaves `load`. -/
def Thrown.renamed : Thrown → Thrown
  | .representation mark message => .invalidSettings mark message
  | other => other

/-- **When `load` fails**: the settings are no map, or there is a first entry that is wrong. -/
theorem load_eq_error_iff {locate : Bytes → Bytes} {settings : YamlNode} {thrown : Thrown} :
    (Executor.load yaml locate settings).2 = .error thrown ↔
      ((∀ mark pairs, settings ≠ .map mark pairs) ∧
        thrown = .invalidSettings settings.mark (text "Must be a map")) ∨
      ∃ mark before pair after inner, settings = .map mark (before ++ pair :: after) ∧
        (∀ earlier ∈ before, ∃ ext exe rest, Names yaml earlier ext exe rest) ∧
        Wrong yaml pair inner ∧ thrown = inner.renamed := by
  have noMap : ∀ mark, (∀ other pairs, settings ≠ .map other pairs) → settings.mark = mark →
      ((Except.error (.invalidSettings mark (text "Must be a map")) : Except Thrown Unit) =
          .error thrown ↔
        ((∀ mark pairs, settings ≠ .map mark pairs) ∧
          thrown = .invalidSettings settings.mark (text "Must be a map")) ∨
        ∃ mark before pair after inner, settings = .map mark (before ++ pair :: after) ∧
          (∀ earlier ∈ before, ∃ ext exe rest, Names yaml earlier ext exe rest) ∧
          Wrong yaml pair inner ∧ thrown = inner.renamed) := by
    rintro mark isNoMap rfl
    constructor
    · exact fun same => .inl ⟨isNoMap, (Except.error.inj same).symm⟩
    · rintro (⟨_, rfl⟩ | ⟨other, before, pair, after, _, isMap, _⟩)
      · rfl
      · exact absurd isMap (isNoMap other _)
  cases settings with
  | null mark | scalar mark value | sequence mark items => exact noMap _ (fun _ _ => nofun) rfl
  | map mark pairs =>
    have renames : ∀ result : Except Thrown Unit,
        rethrow (fun _ message => message) result = .error thrown ↔
          ∃ inner, result = .error inner ∧ thrown = inner.renamed := by
      intro result
      cases result with
      | ok value => exact iff_of_false nofun fun ⟨_, same, _⟩ => nomatch same
      | error inner =>
        cases inner <;> simp [rethrow, Thrown.renamed, eq_comm]
    show rethrow _ (loadUntil _ _ _ pairs).2 = _ ↔ _
    rw [renames]
    simp only [loadUntil_eq_error_iff, readRunner_eq_error_iff]
    constructor
    · rintro ⟨inner, ⟨before, pair, after, rfl, earlier, wrong⟩, same⟩
      refine .inr ⟨mark, before, pair, after, inner, rfl, fun first inside => ?_, wrong, same⟩
      obtain ⟨⟨ext, words⟩, isRead⟩ := earlier first inside
      obtain ⟨exe, rest, names, _⟩ := readRunner_names_iff.mp isRead
      exact ⟨ext, exe, rest, names⟩
    · rintro (⟨isNoMap, _⟩ | ⟨_, before, pair, after, inner, isMap, earlier, wrong, same⟩)
      · exact absurd rfl (isNoMap mark pairs)
      · obtain ⟨_, rfl⟩ := YamlNode.map.inj isMap
        refine ⟨inner, ⟨before, pair, after, rfl, fun first inside => ?_, wrong⟩, same⟩
        obtain ⟨ext, exe, rest, names⟩ := earlier first inside
        exact ⟨_, readRunner_names_iff.mpr ⟨exe, rest, names, rfl⟩⟩

/-- **How a script is launched**: the words come from the entry for what follows its last dot. -/
theorem launcher_startPrograms_iff {files : Files} {config script : Bytes} {words : List Bytes}
    (launches : words ≠ []) :
    (startPrograms yaml (Executor.findPath path scans) files config).launcher script = words ↔
      ∃ stem ext node settings, script = stem ++ dot :: ext ∧ dot ∉ ext ∧
        files (Path.join config (text "conf.yml")) = some node ∧
        node.subscript yaml (text "scriptRunners") = .ok (some settings) ∧
        Runs yaml path scans settings ext words := by
  have tabled : ∀ ext,
      startPrograms yaml (Executor.findPath path scans) files config ext = some words ↔
        ∃ node settings, files (Path.join config (text "conf.yml")) = some node ∧
          node.subscript yaml (text "scriptRunners") = .ok (some settings) ∧
          Runs yaml path scans settings ext words := by
    intro ext
    simp only [startPrograms, loadFile]
    cases files (Path.join config (text "conf.yml")) with
    | none => simp
    | some node =>
      cases isSettings : node.subscript yaml (text "scriptRunners") with
      | error thrown => simp [isSettings]
      | ok found =>
        cases found with
        | none => simp [isSettings]
        | some settings => simp [isSettings, load_eq_some_iff]
  rcases Cutting.notMem_or_exists_last dot script with free | ⟨stem, ext, rfl, free⟩
  · have noWords : (startPrograms yaml (Executor.findPath path scans) files config).launcher script =
        [] := by
      rw [Programs.launcher, rfind_eq_none free]
    rw [noWords]
    refine iff_of_false (fun same => launches same.symm) ?_
    rintro ⟨stem, ext, _, _, rfl, _⟩
    exact free (by simp)
  · have isLauncher : (startPrograms yaml (Executor.findPath path scans) files config).launcher
        (stem ++ dot :: ext) =
          (startPrograms yaml (Executor.findPath path scans) files config ext).getD [] := by
      rw [Programs.launcher, rfind_append_cons stem free]
      simp
    rw [isLauncher]
    constructor
    · intro same
      cases found : startPrograms yaml (Executor.findPath path scans) files config ext with
      | none => exact absurd (by rw [← same, found]; rfl) launches
      | some other =>
        obtain rfl : other = words := by rw [← same, found]; rfl
        obtain ⟨node, settings, isNode, isSettings, runs⟩ := (tabled ext).mp found
        exact ⟨stem, ext, node, settings, rfl, free, isNode, isSettings, runs⟩
    · rintro ⟨_, other, node, settings, split, otherFree, isNode, isSettings, runs⟩
      have lengths : some _ = some _ :=
        (rfind_append_cons stem free).symm.trans (split ▸ rfind_append_cons _ otherFree)
      obtain ⟨_, same⟩ := List.append_inj split (Option.some.inj lengths)
      obtain rfl : ext = other := (List.cons.inj same).2
      rw [(tabled ext).mpr ⟨node, settings, isNode, isSettings, runs⟩]
      rfl

/-- A file that names an interpreter for one extension. -/
def pythonConf : YamlNode := .map ⟨0, 0⟩
  [(.scalar ⟨0, 0⟩ (text "scriptRunners"),
    .map ⟨0, 0⟩ [plainPair (text "py") (text "python3")])]

/-- The interpreter is in the second directory; the first one cannot be read. -/
def pythonScans : Bytes → Scan := fun dir =>
  if dir = text "/usr/bin" then .ok ⟨[⟨⟨text "python3", by decide⟩, true⟩], by decide⟩
  else .error (-2)

/-- The two directories. -/
def twoPaths : CString := ⟨text "/bin:/usr/bin", by decide⟩

theorem launcher_startPrograms_python :
    let programs := startPrograms plainYaml (Executor.findPath twoPaths pythonScans)
      (fun file => if file = text "/etc/conf.yml" then some pythonConf else none) (text "/etc")
    programs.launcher (text "/srv/a.py") = [text "/usr/bin/python3"] ∧
      (programs.launcher (text "/srv/a.py") = [text "/usr/bin/python3"] ↔
        ∃ stem ext node settings, text "/srv/a.py" = stem ++ dot :: ext ∧ dot ∉ ext ∧
          (if Path.join (text "/etc") (text "conf.yml") = text "/etc/conf.yml" then some pythonConf
            else none) = some node ∧
          node.subscript plainYaml (text "scriptRunners") = .ok (some settings) ∧
          Runs plainYaml twoPaths pythonScans settings ext [text "/usr/bin/python3"]) :=
  ⟨by decide, launcher_startPrograms_iff (by decide)⟩

end GemCaps
