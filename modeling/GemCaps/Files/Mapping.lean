/-
**The base maps onto the folder** (`filehandler.cpp`).

`handle_maps`: for a base, a folder and further names without anything special in them, the path that
continues the base by the names is not redirected, and its file is the folder continued by the names.
The root as the base, no names at all, and a separator behind the path take other routes to the same
file.
-/

import GemCaps.Files.Place
import GemCaps.Files.Redirects

namespace GemCaps

open Cutting GemCaps.Path

/-- A component that is an ordinary name. -/
structure Ordinary (part : Bytes) : Prop where
  filled : part ≠ []
  noDots : part ≠ text "." ∧ part ≠ text ".."
  free : ∀ letter ∈ part, isSep letter = false
  noNul : nul ∉ part

theorem ordinary_iff {part : Bytes} : Ordinary part ↔
    (part ≠ [] ∧ part ≠ text "." ∧ part ≠ text "..") ∧
      part.all (fun letter => !isSep letter && letter != nul) = true := by
  rw [List.all_eq_true]
  constructor
  · intro ordinary
    refine ⟨⟨ordinary.filled, ordinary.noDots⟩, fun letter inside => ?_⟩
    rw [ordinary.free letter inside, Bool.not_false, Bool.true_and, bne_iff_ne]
    exact fun isNul => ordinary.noNul (isNul ▸ inside)
  · rintro ⟨⟨filled, noDots⟩, all⟩
    refine ⟨filled, noDots, fun letter inside => ?_, fun inside => ?_⟩
    · exact (Bool.not_eq_true' _).mp (Bool.and_eq_true_iff.mp (all letter inside)).1
    · exact bne_iff_ne.mp (Bool.and_eq_true_iff.mp (all nul inside)).2 rfl

instance (part : Bytes) : Decidable (Ordinary part) := decidable_of_iff _ ordinary_iff.symm

/-- `/` and the names, one separator before each; `/` alone for no names. -/
def absolute (names : List Bytes) : Bytes :=
  if names = [] then [slash] else names.flatMap fun name => slash :: name

/-- A folder as the handler keeps it, in ordinary names. -/
def PlainFolder (folder : Bytes) : Prop :=
  ∃ names, (∀ name ∈ names, Ordinary name) ∧
    (folder = absolute names ∨ names ≠ [] ∧ folder = joinAll names)

section Names

variable {names more : List Bytes}

theorem absolute_eq_joinAll (filled : names ≠ []) : absolute names = joinAll ([] :: names) := by
  rw [absolute, if_neg filled, joinAll_cons [] filled, List.nil_append]
  induction names using joinAll.induct with
  | case1 => exact absurd rfl filled
  | case2 name => simp [joinAll]
  | case3 name names nonempty ih =>
    rw [List.flatMap_cons, ih nonempty, joinAll_cons name nonempty, List.cons_append]

theorem normal_of_ordinary (ordinary : ∀ name ∈ names, Ordinary name) : Normal names :=
  ⟨fun name inside => (ordinary name inside).free, fun name inside => (ordinary name inside).noDots,
    fun name inside => (ordinary name (List.mem_of_mem_tail inside)).filled⟩

theorem normal_rooted (ordinary : ∀ name ∈ names, Ordinary name) : Normal ([] :: names) := by
  refine ⟨fun name inside => ?_, fun name inside => ?_, fun name inside => (ordinary name inside).filled⟩
  · rcases List.mem_cons.mp inside with rfl | later
    · exact fun letter none => absurd none List.not_mem_nil
    · exact (ordinary name later).free
  · rcases List.mem_cons.mp inside with rfl | later
    · exact ⟨by decide, by decide⟩
    · exact (ordinary name later).noDots

theorem ordinary_ne_root (ordinary : ∀ name ∈ names, Ordinary name) : names ≠ [[]] := by
  rintro rfl
  exact (ordinary [] List.mem_cons_self).filled rfl

theorem split_absolute (ordinary : ∀ name ∈ names, Ordinary name) :
    split (absolute names) = [] :: names := by
  by_cases empty : names = []
  · subst empty
    rfl
  · rw [absolute_eq_joinAll empty]
    exact split_joinAll (normal_rooted ordinary) (by simpa using empty)

theorem split_absolute_slash (ordinary : ∀ name ∈ names, Ordinary name) (filled : names ≠ []) :
    split (absolute names ++ [slash]) = [] :: names := by
  rw [absolute_eq_joinAll filled, split_joinAll_slash (normal_rooted ordinary) (List.cons_ne_nil _ _)]

/-- An absolute path of ordinary names is not redirected, nor is it with a separator behind it. -/
theorem canonical_absolute (ordinary : ∀ name ∈ names, Ordinary name) {path : Bytes}
    (isPath : path = absolute names ∨ names ≠ [] ∧ path = absolute names ++ [slash]) :
    FileHandler.canonical path = path := by
  have normal := normal_rooted ordinary
  rcases isPath with rfl | ⟨filled, rfl⟩
  · by_cases empty : names = []
    · subst empty
      rfl
    · rw [absolute_eq_joinAll empty, FileHandler.canonical_joinAll normal]
  · rw [absolute_eq_joinAll filled, FileHandler.canonical_joinAll_slash normal]

theorem noNul_joinAll {parts : List Bytes} (noNul : ∀ part ∈ parts, nul ∉ part) :
    nul ∉ joinAll parts := by
  intro inside
  rcases mem_joinAll inside with ⟨part, isPart, inPart⟩ | isSlash
  · exact noNul part isPart inPart
  · exact absurd isSlash (by decide)

/-- Names behind a normal list. -/
theorem normal_append {parts : List Bytes} (normal : Normal parts) (filled : parts ≠ [])
    (ordinary : ∀ name ∈ more, Ordinary name) : Normal (parts ++ more) := by
  refine ⟨?_, ?_, ?_⟩
  · exact List.forall_mem_append.mpr ⟨normal.free, fun name inside => (ordinary name inside).free⟩
  · exact List.forall_mem_append.mpr ⟨normal.noDots, fun name inside => (ordinary name inside).noDots⟩
  · rw [List.tail_append_of_ne_nil filled]
    exact List.forall_mem_append.mpr ⟨normal.filled, fun name inside => (ordinary name inside).filled⟩

/-- Names joined behind a folder are split off again. -/
theorem split_folder_names {parts : List Bytes} (normal : Normal parts) (filled : parts ≠ [])
    (ordinary : ∀ name ∈ more, Ordinary name) :
    split (joinAll parts ++ slash :: joinAll more) = parts ++ more := by
  by_cases empty : more = []
  · subst empty
    rw [List.append_nil]
    exact split_joinAll_slash normal filled
  · rw [← joinAll_append filled empty]
    refine split_joinAll (normal_append normal filled ordinary) fun root => ?_
    have count := congrArg List.length root
    have left := List.length_pos_iff.mpr filled
    have right := List.length_pos_iff.mpr empty
    rw [List.length_append, List.length_singleton] at count
    omega

/-- A plain folder is a joined list, and `join` puts one separator behind it. -/
theorem PlainFolder.exists_parts {folder : Bytes} (plain : PlainFolder folder) :
    ∃ parts, Normal parts ∧ parts ≠ [] ∧ (∀ part ∈ parts, nul ∉ part) ∧ split folder = parts ∧
      join folder [] = joinAll parts ++ [slash] := by
  have joined : ∀ {parts : List Bytes}, Normal parts →
      join (joinAll parts) [] = joinAll parts ++ [slash] := fun normal => by
    rw [join_eq (getLast?_joinAll normal)]
    rfl
  obtain ⟨names, ordinary, rfl | ⟨filled, rfl⟩⟩ := plain
  · have normal := normal_rooted ordinary
    have noNul : ∀ part ∈ [] :: names, nul ∉ part := by
      intro part inside
      rcases List.mem_cons.mp inside with rfl | later
      · exact List.not_mem_nil
      · exact (ordinary part later).noNul
    refine ⟨[] :: names, normal, List.cons_ne_nil _ _, noNul, split_absolute ordinary, ?_⟩
    by_cases empty : names = []
    · subst empty
      rfl
    · rw [absolute_eq_joinAll empty, joined normal]
  · have normal := normal_of_ordinary ordinary
    exact ⟨names, normal, filled, fun name inside => (ordinary name inside).noNul,
      split_joinAll normal (ordinary_ne_root ordinary), joined normal⟩

end Names

/-- A request that is not redirected goes to the rules with its file, and from there to `stat`. -/
theorem handle_of_canonical {handler : FileHandler} {request : Request}
    (kept : FileHandler.canonical request.path = request.path) :
    (Serving.handle handler request).trace.head? =
        some (.validate (handler.mapped request.path)
          (handler.validateFile (handler.mapped request.path))) ∧
      (handler.validateFile (handler.mapped request.path) = true →
        (Serving.handle handler request).pending =
          some (.stat (handed (handler.mapped request.path)))) := by
  unfold Serving.handle
  simp only [kept, ne_eq, not_true_eq_false, if_false]
  cases handler.validateFile (handler.mapped request.path) with
  | true => exact ⟨rfl, fun _ => rfl⟩
  | false => exact ⟨rfl, fun refused => absurd refused Bool.false_ne_true⟩

/-- **The base maps onto the folder.** The path that continues the base by ordinary names, with or
without a separator behind it, passes the test of the base, is not redirected, and is mapped to the
folder continued by the names. -/
theorem handle_maps (handler : FileHandler) (request : Request) {base rest : List Bytes}
    (isBase : handler.base = absolute base) (baseOrdinary : ∀ name ∈ base, Ordinary name)
    (folder : PlainFolder handler.folder) (restOrdinary : ∀ name ∈ rest, Ordinary name)
    (isPath : request.path = absolute (base ++ rest) ∨
      base ++ rest ≠ [] ∧ request.path = absolute (base ++ rest) ++ [slash]) :
    (∀ host, handler.shouldHandle host request.path = true ↔ handler.HostMatches host) ∧
      ∃ file, split file = split handler.folder ++ rest ∧ (handed file).bytes = file ∧
        (Serving.handle handler request).trace.head? =
          some (.validate file (handler.validateFile file)) ∧
        (handler.validateFile file = true →
          (Serving.handle handler request).pending = some (.stat (handed file))) := by
  have ordinary : ∀ name ∈ base ++ rest, Ordinary name := fun name inside =>
    (List.mem_append.mp inside).elim (baseOrdinary name) (restOrdinary name)
  have kept := canonical_absolute ordinary isPath
  have splitBase : split handler.base = [] :: base := isBase ▸ split_absolute baseOrdinary
  have splitPath : split request.path = split handler.base ++ rest := by
    rw [splitBase]
    rcases isPath with same | ⟨filled, same⟩
    · rw [same, split_absolute ordinary, List.cons_append]
    · rw [same, split_absolute_slash ordinary filled, List.cons_append]
  have based : handler.base ≠ [] := fun none => by
    rw [none] at splitBase
    cases splitBase
  constructor
  · intro host
    rw [FileHandler.shouldHandle_iff]
    exact and_iff_left (.inr (.inl ⟨rest, splitPath.symm⟩))
  · obtain ⟨parts, normal, filled, noNul, isSplit, isJoined⟩ := folder.exists_parts
    have isFile : handler.mapped request.path = joinAll parts ++ slash :: joinAll rest := by
      rw [FileHandler.mapped_eq_place (canonical_of_eq kept),
        FileHandler.place_of_below (canonical_of_eq kept) based splitPath, isJoined,
        List.append_assoc, List.singleton_append]
    refine ⟨handler.mapped request.path, ?_, cStr_of_noNul ?_, handle_of_canonical kept⟩
    · rw [isFile, isSplit, split_folder_names normal filled restOrdinary]
    · rw [isFile]
      intro inside
      rcases List.mem_append.mp inside with inFolder | inNames
      · exact noNul_joinAll noNul inFolder
      · have restNoNul := noNul_joinAll fun name isName => (restOrdinary name isName).noNul
        exact restNoNul ((List.mem_cons.mp inNames).resolve_left (by decide))

/-- A handler that maps `/docs` to `/srv/www`. -/
def docsHandler : FileHandler :=
  ⟨[], text "/srv/www", text "/docs", true, [], [], text "en_US.UTF-8", ∅⟩

/-- The index of a directory below the base. -/
theorem handle_maps_docs :
    docsHandler.shouldHandle (text "h") (text "/docs/a/") = true ∧
      ∃ file, split file = [[], text "srv", text "www", text "a"] ∧
        (Serving.handle docsHandler { path := text "/docs/a/" }).pending =
          some (.stat (handed file)) := by
  have docs : ∀ name ∈ [text "docs"], Ordinary name := by decide
  have folder : PlainFolder docsHandler.folder :=
    ⟨[text "srv", text "www"], by decide, .inl (by decide)⟩
  have rest : ∀ name ∈ [text "a"], Ordinary name := by decide
  obtain ⟨taken, file, isFile, _, _, pending⟩ :=
    handle_maps docsHandler { path := text "/docs/a/" } (by decide) docs folder rest
      (.inr ⟨by decide, by decide⟩)
  exact ⟨(taken (text "h")).mpr (.inl rfl), file, isFile.trans (by decide), pending rfl⟩

end GemCaps
