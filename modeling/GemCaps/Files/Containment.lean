/-
**Which path the operating system receives.**

A request that is not redirected has a canonical path; below the base, and normalised once more, it
is joined to the folder. Lexically the file therefore lies below the folder, but what `uv_fs_stat`
receives ends at the first NUL, and a component that only starts with `..` ends there too.
`stat_below_iff`: the path received lies at or below the folder if and only if the folder holds no
NUL and the served path, shortened at its first NUL, does not end in `..`.
-/

import GemCaps.Files.Serving
import GemCaps.Path.Joining

namespace GemCaps

open Cutting GemCaps.Path

/-! ### Components -/

/-- The components of a path for the operating system. -/
def components (path : Bytes) : List Bytes := path.splitOn slash

/-- A path lies lexically at or below a folder. -/
def Below (folder path : Bytes) : Prop :=
  ∃ below, components path = components folder ++ below ∧ text ".." ∉ below

/-- The path ends in `..`. -/
def EndsUp (path : Bytes) : Prop := (components path).getLast? = some (text "..")

instance (path : Bytes) : Decidable (EndsUp path) := inferInstanceAs (Decidable (_ = _))

theorem components_append (front back : Bytes) :
    components (front ++ slash :: back) = components front ++ components back :=
  List.splitOn_append_cons_self front back

theorem endsUp_append (front back : Bytes) : EndsUp (front ++ slash :: back) ↔ EndsUp back := by
  have nonempty : components back ≠ [] := List.splitOn_ne_nil slash back
  rw [EndsUp, components_append, List.getLast?_append_of_ne_nil _ nonempty, EndsUp]

/-- A joined normal list has no component `..`. -/
theorem up_notMem_components {parts : List Bytes} (normal : Normal parts) :
    text ".." ∉ components (joinAll parts) := by
  rw [components, joinAll_eq_intercalate]
  by_cases empty : parts = []
  · subst empty
    decide
  · rw [List.splitOn_intercalate slash normal.slash_notMem empty]
    exact fun inside => (normal.noDots _ inside).2 rfl

theorem not_endsUp_joinAll {parts : List Bytes} (normal : Normal parts) :
    ¬ EndsUp (joinAll parts) := fun up =>
  up_notMem_components normal (List.mem_of_getLast? up)

/-- Shortening adds no component but the last one. -/
theorem up_mem_components_cStr {path : Bytes} (plain : text ".." ∉ components path) :
    text ".." ∈ components (cStr path) ↔ EndsUp (cStr path) := by
  obtain ⟨rest, whole⟩ := before_isPrefix nul path
  refine ⟨fun inside => ?_, fun up => List.mem_of_getLast? up⟩
  rcases mem_splitOn_append rest inside with earlier | last
  · rw [cStr, whole] at earlier
    exact absurd earlier plain
  · exact last

/-! ### Joining a normal list to a folder -/

theorem exists_unrooted {parts : List Bytes} (normal : Normal parts) :
    ∃ rest, Normal rest ∧ unrooted (joinAll parts) = joinAll rest ∧
      (joinAll parts = joinAll rest ∨ joinAll parts = slash :: joinAll rest) := by
  rcases parts with _ | ⟨_ | ⟨letter, first⟩, rest⟩
  · exact ⟨[], normal, rfl, Or.inl rfl⟩
  · by_cases single : rest = []
    · subst single
      exact ⟨[], Normal.nil, rfl, Or.inl rfl⟩
    · have rooted : joinAll ([] :: rest) = slash :: joinAll rest := joinAll_cons [] single
      refine ⟨rest, normal.drop 1, ?_, Or.inr rooted⟩
      rw [rooted]
      rfl
  · have plain : isSep letter = false := normal.free _ List.mem_cons_self letter List.mem_cons_self
    have head : (joinAll ((letter :: first) :: rest)).head? = some letter := by
      by_cases single : rest = []
      · subst single
        rfl
      · rw [joinAll_cons _ single]
        rfl
    refine ⟨_, normal, ?_, Or.inl rfl⟩
    rw [unrooted, head, if_neg (by simp [plain])]

theorem cStr_append {front : Bytes} (noNul : nul ∉ front) (back : Bytes) :
    cStr (front ++ back) = front ++ cStr back :=
  before_append_of_notMem noNul back

theorem cStr_append_of_nul {front : Bytes} (hasNul : nul ∈ front) (back : Bytes) :
    cStr (front ++ back) = cStr front := before_append_of_mem hasNul back

/-- **A joined normal list below a folder without NUL.** -/
theorem below_join_iff {folder : Bytes} {parts : List Bytes}
    (noTrailing : folder.getLast?.any isSep = false) (noNul : nul ∉ folder)
    (normal : Normal parts) :
    Below folder (cStr (join folder (joinAll parts))) ↔ ¬ EndsUp (cStr (joinAll parts)) := by
  obtain ⟨rest, restNormal, isRest, same⟩ := exists_unrooted normal
  have noNulSlash : nul ∉ folder ++ [slash] := by simp [noNul, show nul ≠ slash by decide]
  have cut : cStr (folder ++ slash :: joinAll rest) = folder ++ slash :: cStr (joinAll rest) := by
    rw [← List.singleton_append, ← List.append_assoc, cStr_append noNulSlash, List.append_assoc,
      List.singleton_append]
  have up : EndsUp (cStr (joinAll parts)) ↔ EndsUp (cStr (joinAll rest)) := by
    rcases same with same | same
    · rw [same]
    · have single : nul ∉ [slash] := by decide
      rw [same, ← List.singleton_append, cStr_append single]
      exact endsUp_append [] _
  rw [join_eq noTrailing, isRest, cut, Below, components_append, up,
    ← up_mem_components_cStr (up_notMem_components restNormal)]
  constructor
  · rintro ⟨below, split, plain⟩
    exact List.append_cancel_left split ▸ plain
  · exact fun plain => ⟨_, rfl, plain⟩

/-- A folder with a NUL is not reached. -/
theorem not_below_of_nul {folder path : Bytes} (hasNul : nul ∈ folder) :
    ¬ Below folder (cStr (folder ++ path)) := by
  rintro ⟨below, continued, _⟩
  rw [cStr_append_of_nul hasNul] at continued
  have long := length_le_of_splitOn continued
  obtain ⟨rest, whole⟩ := before_isPrefix nul folder
  have lengths := congrArg List.length whole
  rw [List.length_append] at lengths
  have empty : rest = [] := List.length_eq_zero_iff.mp (by rw [cStr] at long; omega)
  subst empty
  rw [List.append_nil] at whole
  have noNul := mark_notMem_before nul folder
  rw [whole] at noNul
  exact noNul hasNul

/-! ### The served path -/

/-- A path as `delUps` leaves it, perhaps with a separator behind it. -/
def Canonical (path : Bytes) : Prop :=
  ∃ parts, Normal parts ∧ delUps path = joinAll parts ∧
    (path = joinAll parts ∨ path = joinAll parts ++ [slash])

theorem canonical_of_eq {path : Bytes} (kept : FileHandler.canonical path = path) :
    Canonical path := by
  refine ⟨delUpsParts path, delUpsParts_normal path, rfl, ?_⟩
  unfold FileHandler.canonical at kept
  by_cases trailing : path.getLast? = some slash
  · rw [if_pos trailing] at kept
    exact Or.inr kept.symm
  · rw [if_neg trailing] at kept
    exact Or.inl kept.symm

theorem Canonical.normal_split {path : Bytes} (canonical : Canonical path) : Normal (split path) := by
  obtain ⟨parts, normal, _, rfl | rfl⟩ := canonical
  · by_cases root : parts = [[]]
    · subst root
      exact Normal.nil
    · rw [split_joinAll normal root]
      exact normal
  · by_cases empty : parts = []
    · subst empty
      exact Normal.nil.concat (fun _ inside => absurd inside List.not_mem_nil) (by decide) fun _ => rfl
    · rw [split_joinAll_slash normal empty]
      exact normal

theorem canonical_joinAll {parts : List Bytes} (normal : Normal parts) :
    Canonical (joinAll parts) :=
  ⟨parts, normal, delUps_joinAll normal, Or.inl rfl⟩

/-- What is left of a canonical path below the base is canonical. -/
theorem Canonical.served {path : Bytes} (canonical : Canonical path) (handler : FileHandler) :
    Canonical (handler.served path) := by
  unfold FileHandler.served
  cases handler.base.isEmpty with
  | true => exact canonical
  | false =>
    rcases relpath_eq path handler.base with same | ⟨count, same⟩
    · rw [if_neg Bool.false_ne_true, same]
      exact canonical
    · rw [if_neg Bool.false_ne_true, same]
      exact canonical_joinAll (canonical.normal_split.drop count)

/-- The separator behind a canonical path does not matter. -/
theorem Canonical.endsUp_iff {path : Bytes} (canonical : Canonical path) :
    EndsUp (cStr (delUps path)) ↔ EndsUp (cStr path) := by
  obtain ⟨parts, normal, same, isPath | isPath⟩ := canonical
  · rw [same, isPath]
  · rw [same, isPath]
    by_cases hasNul : nul ∈ joinAll parts
    · rw [cStr_append_of_nul hasNul]
    · have noNulSlash : nul ∉ joinAll parts ++ [slash] := by
        simp [hasNul, show nul ≠ slash by decide]
      rw [cStr_of_noNul hasNul, cStr_of_noNul noNulSlash]
      refine iff_of_false (not_endsUp_joinAll normal) fun up => ?_
      exact absurd ((endsUp_append (joinAll parts) []).mp up) (by decide)

/-- What `handle` starts with is the file of a canonical path. -/
theorem stat_of_handle {handler : FileHandler} {request : Request} {path : CString}
    (started : .start (.stat path) ∈ (Serving.handle handler request).trace) :
    FileHandler.canonical request.path = request.path ∧
      path = handed (handler.mapped request.path) := by
  by_cases admitted : Serving.Admitted handler request
  · rw [Serving.handle_of_admitted admitted] at started
    exact ⟨admitted.1, by simpa using started⟩
  · obtain ⟨trace, same, isTrace⟩ := Serving.handle_of_not_admitted admitted
    rw [same] at started
    rcases isTrace with rfl | rfl <;> simp at started

/-- An admitted request starts with its file. -/
theorem stat_mem_handle {handler : FileHandler} {request : Request}
    (admitted : Serving.Admitted handler request) :
    .start (.stat (handed (handler.mapped request.path))) ∈
      (Serving.handle handler request).trace := by
  rw [Serving.handle_of_admitted admitted]
  simp

/-- **What the operating system receives lies below the folder** exactly when no NUL hides a `..`. -/
theorem stat_below_iff {regex : Bytes → Option (Bytes → Bool)} {settings : Settings} {dir : Bytes}
    {handler : FileHandler} {request : Request} {path : CString}
    (created : createHandler regex settings dir = .ok handler)
    (started : .start (.stat path) ∈ (Serving.handle handler request).trace) :
    Below handler.folder path.bytes ↔
      nul ∉ handler.folder ∧ ¬ EndsUp (cStr (handler.served request.path)) := by
  obtain ⟨folderParts, folderNormal, isFolder⟩ := FileHandler.folder_normal created
  obtain ⟨kept, rfl⟩ := stat_of_handle started
  have noTrailing : handler.folder.getLast?.any isSep = false := by
    rw [isFolder]
    exact getLast?_joinAll folderNormal
  have served := (canonical_of_eq kept).served handler
  obtain ⟨parts, normal, same, _⟩ := id served
  show Below handler.folder (cStr (handler.mapped request.path)) ↔ _
  rw [← served.endsUp_iff, FileHandler.mapped, same]
  by_cases hasNul : nul ∈ handler.folder
  · refine iff_of_false ?_ fun both => both.1 hasNul
    rw [join_eq noTrailing]
    exact not_below_of_nul hasNul
  · rw [below_join_iff noTrailing hasNul normal]
    exact (and_iff_right hasNul).symm

/-- The settings of a handler for `/srv`. -/
def srvSettings : Settings := { folder := some (text "/srv") }

/-- The handler they make. -/
def srvHandler : FileHandler := ⟨[], text "/srv", [], true, [], [], text "en_US.UTF-8", ∅⟩

/-- A request that is served from the folder. -/
theorem stat_below_plain : Below srvHandler.folder
    (handed (srvHandler.mapped (text "/a"))).bytes :=
  (stat_below_iff (show createHandler (fun _ => none) srvSettings [] = .ok srvHandler from rfl)
    (stat_mem_handle (show Serving.Admitted srvHandler { path := text "/a" } by decide))).mpr
    ⟨by decide, by decide⟩

/-- A request with a NUL behind `..`. -/
def upNulRequest : Request :=
  ⟨text "gemini://h/..\x00/\r\n", text "h", 1965, text "/..\x00/", []⟩

/-- The NUL leads out of the folder: the operating system receives `/srv/..`. -/
theorem stat_upNul :
    createHandler (fun _ => none) srvSettings [] = .ok srvHandler ∧
      parseHost { header := upNulRequest.header } = some upNulRequest ∧
      .start (.stat ⟨text "/srv/..", by decide⟩) ∈ (Serving.handle srvHandler upNulRequest).trace ∧
      ¬ Below srvHandler.folder (text "/srv/..") := by
  have received : handed (srvHandler.mapped upNulRequest.path) = ⟨text "/srv/..", by decide⟩ := by
    decide
  refine ⟨rfl, by decide, ?_, ?_⟩
  · rw [← received]
    exact stat_mem_handle (by decide)
  · rintro ⟨below, continued, plain⟩
    have split : components (text "/srv/..") = components (text "/srv") ++ [text ".."] := by decide
    rw [split] at continued
    exact plain (List.append_cancel_left continued ▸ List.mem_singleton_self _)

end GemCaps
