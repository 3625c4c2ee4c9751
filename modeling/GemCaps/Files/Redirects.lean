/-
**Chains of redirects.**

`handle` redirects a request whose path is not canonical, and `handle_on_stat` one whose path has a
separator too many or too few for what it is mapped to. A canonical path keeps its file when the
separator behind it comes or goes, so a chain has at most two redirects (`redirects_terminate`). The
target can lose its root: `..` takes it back like any other part. `redirectsEnd_iff` says for which
paths every target of the chain starts with a separator.
-/

import GemCaps.Files.Containment
import GemCaps.Files.Effects
import GemCaps.Path.Level

namespace GemCaps

open GemCaps.Path Transition

/-! ### The separator behind a canonical path -/

namespace FileHandler

theorem canonical_joinAll {parts : List Bytes} (normal : Normal parts) :
    canonical (joinAll parts) = joinAll parts := by
  have noTrailing : (joinAll parts).getLast? ≠ some slash := fun trailing => by
    have free := getLast?_joinAll normal
    rw [trailing] at free
    exact absurd free (by decide)
  rw [canonical, if_neg noTrailing, delUps_joinAll normal]

theorem delUps_joinAll_slash {parts : List Bytes} (normal : Normal parts) :
    delUps (joinAll parts ++ [slash]) = joinAll parts := by
  by_cases empty : parts = []
  · subst empty
    rfl
  · rw [delUps, delUpsParts_of_split (split_joinAll_slash normal empty) normal]

theorem canonical_joinAll_slash {parts : List Bytes} (normal : Normal parts) :
    canonical (joinAll parts ++ [slash]) = joinAll parts ++ [slash] := by
  rw [canonical, if_pos List.getLast?_concat, delUps_joinAll_slash normal]

/-- **The target of the first redirect is not redirected there again.** -/
theorem canonical_canonical (path : Bytes) : canonical (canonical path) = canonical path := by
  have normal := delUpsParts_normal path
  by_cases trailing : path.getLast? = some slash
  · have same : canonical path = joinAll (delUpsParts path) ++ [slash] := if_pos trailing
    rw [same, canonical_joinAll_slash normal]
  · have same : canonical path = joinAll (delUpsParts path) := if_neg trailing
    rw [same, canonical_joinAll normal]

/-- What is left below the base depends on the parts of the path only. -/
theorem delUps_served_of_split {handler : FileHandler} {path other : Bytes}
    (same : split path = split other) :
    delUps (handler.served path) = delUps (handler.served other) := by
  have sameParts : delUps path = delUps other := by rw [delUps, delUps, delUpsParts, same]; rfl
  unfold served
  cases handler.base.isEmpty with
  | true => exact sameParts
  | false =>
    simp only [Bool.false_eq_true, if_false]
    unfold relpath
    rw [same]
    cases dropCommon (split other) (split handler.base) with
    | none => exact sameParts
    | some rest => rfl

/-- **The separator behind a canonical path does not change its file.** -/
theorem mapped_slash (handler : FileHandler) {parts : List Bytes} (normal : Normal parts) :
    handler.mapped (joinAll parts ++ [slash]) = handler.mapped (joinAll parts) := by
  refine congrArg (Path.join handler.folder) ?_
  by_cases atRoot : joinAll parts = []
  · rw [atRoot, List.nil_append]
    have splitRoot : split [slash] = [[]] := by decide
    have splitNil : split [] = [] := by decide
    unfold served
    cases handler.base.isEmpty with
    | true => rfl
    | false =>
      simp only [Bool.false_eq_true, if_false]
      unfold relpath
      rw [splitRoot, splitNil]
      cases split handler.base with
      | nil => rfl
      | cons other others =>
        by_cases root : other = []
        · subst root
          rfl
        · rw [dropCommon, if_pos (Ne.symm root)]
          rfl
  · refine delUps_served_of_split ?_
    have nonempty : parts ≠ [] := fun empty => atRoot (by rw [empty]; rfl)
    have rooted : parts ≠ [[]] := fun root => atRoot (by rw [root]; rfl)
    rw [split_joinAll_slash normal nonempty, split_joinAll normal rooted]

end FileHandler

/-! ### One redirect -/

/-- A file system that does not change: the result and the mode that `stat` reports. -/
abbrev FileSystem := CString → Int × Nat

/-- The file of this path may be sent, and is a directory. -/
def FindsDirectory (handler : FileHandler) (stat : FileSystem) (path : Bytes) : Prop :=
  handler.validateFile (handler.mapped path) = true ∧
    (stat (handed (handler.mapped path))).1 = 0 ∧
    Serving.isDir (stat (handed (handler.mapped path))).2 = true

/-- The file of this path may be sent, and is a regular file. -/
def FindsFile (handler : FileHandler) (stat : FileSystem) (path : Bytes) : Prop :=
  handler.validateFile (handler.mapped path) = true ∧
    (stat (handed (handler.mapped path))).1 = 0 ∧
    Serving.isDir (stat (handed (handler.mapped path))).2 = false ∧
    Serving.isFile (stat (handed (handler.mapped path))).2 = true

instance (handler : FileHandler) (stat : FileSystem) (path : Bytes) :
    Decidable (FindsDirectory handler stat path) := inferInstanceAs (Decidable (_ ∧ _ ∧ _))

instance (handler : FileHandler) (stat : FileSystem) (path : Bytes) :
    Decidable (FindsFile handler stat path) := inferInstanceAs (Decidable (_ ∧ _ ∧ _ ∧ _))

/-- A request with this path is answered with a redirect to this target, by `handle` or by
`handle_on_stat`. -/
def Redirects (system : System) (handler : FileHandler) (stat : FileSystem)
    (path target : CString) : Prop :=
  ∃ request : Request, request.path = path.bytes ∧ ∃ serving : Serving,
    (serving = Serving.handle handler request ∨
      ∃ file, (Serving.handle handler request).pending = some (.stat file) ∧
        (Serving.handle handler request).step system handler
          (.statDone (stat file).1 (stat file).2) = some serving) ∧
    .send (responseHeader resRedirectPerm target.bytes) ∈ serving.trace

section Headers

variable {system : System} {handler : FileHandler} {stat : FileSystem} {path target : CString}

/-- The header of a redirect shows its target. -/
theorem target_of_header {other : Bytes} (noNul : nul ∉ other)
    (same : responseHeader resRedirectPerm target.bytes = responseHeader resRedirectPerm other) :
    target.bytes = other := by
  unfold responseHeader at same
  have metas := (List.cons.inj (List.append_cancel_left same)).2
  rw [cStr_of_noNul target.noNul, cStr_of_noNul noNul] at metas
  exact List.append_cancel_right metas

/-- A response that starts with another digit is no redirect. -/
theorem header_ne {response : Bytes} (other : response.take 1 ≠ text "3") :
    responseHeader resRedirectPerm target.bytes ≠ response := by
  rintro rfl
  have code : decimal resRedirectPerm = text "31" := by decide
  rw [responseHeader, code] at other
  exact other rfl

theorem pipe_sends {serving : Serving} {data : Bytes} :
    .send data ∈ (serving.pipe system).trace ↔ .send data ∈ serving.trace := by
  unfold Serving.pipe
  split <;> simp [Serving.act]

theorem closeRunner_sends {serving : Serving} {runner : CGIRunner} {data : Bytes} :
    .send data ∈ (serving.closeRunner runner).trace ↔ .send data ∈ serving.trace := by
  unfold Serving.closeRunner Serving.interrupt
  split <;> split <;> simp [Serving.act]

theorem spawn_sends {serving : Serving} {runner : CGIRunner} {data : Bytes}
    (inside : .send data ∈ (serving.spawn system runner).trace) :
    .send data ∈ serving.trace ∨ data = cgiError := by
  unfold Serving.spawn at inside
  split at inside
  · exact .inl inside
  split at inside
  · rw [closeRunner_sends] at inside
    simpa [Serving.act] using inside
  · exact .inl (by simpa [Serving.act] using inside)

/-- Reading a file sends nothing but the error of a script that does not start. -/
theorem readFile_sends {serving : Serving} {data : Bytes}
    (inside : .send data ∈ (serving.readFile system handler).trace) :
    .send data ∈ serving.trace ∨ data = cgiError := by
  unfold Serving.readFile at inside
  split at inside
  · refine (spawn_sends inside).imp_left fun earlier => ?_
    simpa [Serving.act] using pipe_sends.mp earlier
  · exact .inl (by simpa [Serving.start, Serving.act] using inside)

/-- `handle` redirects a path that is not canonical, and no other. -/
theorem handle_sends {request : Request} :
    .send (responseHeader resRedirectPerm target.bytes) ∈ (Serving.handle handler request).trace ↔
      FileHandler.canonical request.path ≠ request.path ∧
        responseHeader resRedirectPerm target.bytes =
          responseHeader resRedirectPerm (FileHandler.canonical request.path) := by
  simp only [Serving.handle]
  by_cases kept : FileHandler.canonical request.path = request.path
  · have illegal : responseHeader resRedirectPerm target.bytes ≠ illegalFile :=
      header_ne (by decide)
    simp only [kept, ne_eq, not_true_eq_false, if_false]
    split <;> simp [Serving.start, Serving.respond, Serving.act, illegal]
  · simp only [ne_eq, kept, not_false_eq_true, if_true]
    simp [Serving.respond, Serving.act]

/-- `handle_on_stat` redirects what has a separator too many or too few. -/
theorem handleOnStat_sends {serving : Serving} {result : Int} {mode : Nat}
    (silent : ∀ data, .send data ∉ serving.trace) :
    .send (responseHeader resRedirectPerm target.bytes) ∈
        (serving.handleOnStat system handler result mode).trace ↔
      result = 0 ∧
        (Serving.isDir mode = true ∧ serving.request.path.getLast? ≠ some slash ∧
            responseHeader resRedirectPerm target.bytes =
              responseHeader resRedirectPerm (serving.request.path ++ [slash]) ∨
          Serving.isDir mode = false ∧ Serving.isFile mode = true ∧
            serving.request.path.getLast? = some slash ∧
            responseHeader resRedirectPerm target.bytes =
              responseHeader resRedirectPerm serving.request.path.dropLast) := by
  have missing : responseHeader resRedirectPerm target.bytes ≠ doesNotExist :=
    header_ne (by decide)
  have script : responseHeader resRedirectPerm target.bytes ≠ cgiError := header_ne (by decide)
  have responds : ∀ response, .send (responseHeader resRedirectPerm target.bytes) ∈
      (serving.respond response).trace ↔ responseHeader resRedirectPerm target.bytes = response := by
    intro response
    simp [Serving.respond, Serving.act, silent]
  have reads : .send (responseHeader resRedirectPerm target.bytes) ∉
      (serving.readFile system handler).trace := fun inside =>
    (readFile_sends inside).elim (silent _) script
  have scans : .send (responseHeader resRedirectPerm target.bytes) ∉ serving.readDir.trace := by
    simp [Serving.readDir, Serving.start, Serving.act, silent]
  simp only [Serving.handleOnStat]
  by_cases failed : result = 0
  · cases directory : Serving.isDir mode <;> cases file : Serving.isFile mode <;>
      by_cases trailing : serving.request.path.getLast? = some slash <;>
      simp [failed, trailing, responds, reads, scans, missing]
  · simp [failed, responds, missing]

theorem noNul_canonical {path : Bytes} (noNul : nul ∉ path) :
    nul ∉ FileHandler.canonical path := by
  have kept : nul ∉ delUps path := fun inside =>
    (mem_of_mem_delUps inside).elim noNul (by decide)
  unfold FileHandler.canonical
  split
  · simp [kept, show nul ≠ slash by decide]
  · exact kept

theorem step_of_admitted {request : Request} (admitted : Serving.Admitted handler request)
    (result : Int) (mode : Nat) :
    (Serving.handle handler request).step system handler (.statDone result mode) =
      some ((Serving.handle handler request).finish.handleOnStat system handler result mode) := by
  rw [Serving.handle_of_admitted admitted]
  rfl

/-- What an admitted request is redirected to once its `stat` is there. -/
theorem sends_on_stat {request : Request} (isPath : request.path = path.bytes)
    (admitted : Serving.Admitted handler request) :
    .send (responseHeader resRedirectPerm target.bytes) ∈
        ((Serving.handle handler request).finish.handleOnStat system handler
          (stat (handed (handler.mapped path.bytes))).1
          (stat (handed (handler.mapped path.bytes))).2).trace ↔
      FindsDirectory handler stat path.bytes ∧ path.bytes.getLast? ≠ some slash ∧
          target.bytes = path.bytes ++ [slash] ∨
        FindsFile handler stat path.bytes ∧ path.bytes.getLast? = some slash ∧
          target.bytes = path.bytes.dropLast := by
  have noNulSlash : nul ∉ path.bytes ++ [slash] := by
    simp [path.noNul, show nul ≠ slash by decide]
  have noNulLess : nul ∉ path.bytes.dropLast := fun inside =>
    path.noNul (List.dropLast_subset _ inside)
  have silent : ∀ data, .send data ∉ (Serving.handle handler request).finish.trace := by
    rw [Serving.handle_of_admitted admitted]
    simp [Serving.finish, Serving.act]
  have same : (Serving.handle handler request).finish.request.path = path.bytes := by
    rw [Serving.handle_of_admitted admitted]
    exact isPath
  have valid : handler.validateFile (handler.mapped path.bytes) = true := isPath ▸ admitted.2
  have longer : responseHeader resRedirectPerm target.bytes =
      responseHeader resRedirectPerm (path.bytes ++ [slash]) ↔
        target.bytes = path.bytes ++ [slash] :=
    ⟨target_of_header noNulSlash, fun same => same ▸ rfl⟩
  have shorter : responseHeader resRedirectPerm target.bytes =
      responseHeader resRedirectPerm path.bytes.dropLast ↔ target.bytes = path.bytes.dropLast :=
    ⟨target_of_header noNulLess, fun same => same ▸ rfl⟩
  rw [handleOnStat_sends silent, same, longer, shorter]
  simp only [FindsDirectory, FindsFile, valid, true_and, and_or_left, and_assoc]

/-- **What is redirected where.** -/
theorem redirects_iff : Redirects system handler stat path target ↔
    (FileHandler.canonical path.bytes ≠ path.bytes ∧
        target.bytes = FileHandler.canonical path.bytes) ∨
      FileHandler.canonical path.bytes = path.bytes ∧
        (FindsDirectory handler stat path.bytes ∧ path.bytes.getLast? ≠ some slash ∧
            target.bytes = path.bytes ++ [slash] ∨
          FindsFile handler stat path.bytes ∧ path.bytes.getLast? = some slash ∧
            target.bytes = path.bytes.dropLast) := by
  constructor
  · rintro ⟨request, isPath, serving, comes, inside⟩
    rcases comes with rfl | ⟨file, waits, stepped⟩
    · obtain ⟨other, header⟩ := handle_sends.mp inside
      rw [isPath] at other header
      exact .inl ⟨other, target_of_header (noNul_canonical path.noNul) header⟩
    · by_cases admitted : Serving.Admitted handler request
      · have isFile : file = handed (handler.mapped path.bytes) := by
          rw [Serving.handle_of_admitted admitted] at waits
          rw [← isPath]
          exact (Operation.stat.inj (Option.some.inj waits)).symm
        rw [step_of_admitted admitted, Option.some.injEq] at stepped
        subst isFile
        subst stepped
        exact .inr ⟨isPath ▸ admitted.1, (sends_on_stat isPath admitted).mp inside⟩
      · obtain ⟨trace, same, _⟩ := Serving.handle_of_not_admitted admitted
        rw [same] at waits
        cases waits
  · rintro (⟨other, isTarget⟩ | ⟨kept, found⟩)
    · exact ⟨{ path := path.bytes }, rfl, _, .inl rfl,
        handle_sends.mpr ⟨other, by rw [isTarget]⟩⟩
    · have valid : handler.validateFile (handler.mapped path.bytes) = true := by
        rcases found with ⟨finds, _⟩ | ⟨finds, _⟩
        · exact finds.1
        · exact finds.1
      have admitted : Serving.Admitted handler { path := path.bytes } := ⟨kept, valid⟩
      refine ⟨{ path := path.bytes }, rfl, _, .inr ⟨_, ?_, step_of_admitted admitted _ _⟩,
        (sends_on_stat rfl admitted).mpr found⟩
      rw [Serving.handle_of_admitted admitted]

end Headers

/-! ### How many redirects there are -/

section Chains

variable {system : System} {handler : FileHandler} {stat : FileSystem} {path target : CString}

/-- A canonical path without a separator behind it stays canonical with one, and keeps its file. -/
theorem canonical_concat (handler : FileHandler) {path : Bytes} (kept : FileHandler.canonical path = path)
    (noTrailing : path.getLast? ≠ some slash) :
    FileHandler.canonical (path ++ [slash]) = path ++ [slash] ∧
      handler.mapped (path ++ [slash]) = handler.mapped path := by
  obtain ⟨parts, normal, _, rfl | rfl⟩ := canonical_of_eq kept
  · exact ⟨FileHandler.canonical_joinAll_slash normal, handler.mapped_slash normal⟩
  · exact absurd List.getLast?_concat noTrailing

/-- A canonical path with a separator behind it stays canonical without, and keeps its file. -/
theorem canonical_dropLast (handler : FileHandler) {path : Bytes} (kept : FileHandler.canonical path = path)
    (trailing : path.getLast? = some slash) :
    FileHandler.canonical path.dropLast = path.dropLast ∧
      path.dropLast.getLast? ≠ some slash ∧
      handler.mapped path.dropLast = handler.mapped path := by
  obtain ⟨parts, normal, _, rfl | rfl⟩ := canonical_of_eq kept
  · have free := getLast?_joinAll normal
    rw [trailing] at free
    exact absurd free (by decide)
  · rw [List.dropLast_concat]
    refine ⟨FileHandler.canonical_joinAll normal, fun again => ?_, (handler.mapped_slash normal).symm⟩
    have free := getLast?_joinAll normal
    rw [again] at free
    exact absurd free (by decide)

/-- How many redirects can still follow. -/
def rank (handler : FileHandler) (stat : FileSystem) (path : CString) : Nat :=
  if FileHandler.canonical path.bytes ≠ path.bytes then 2
  else if FindsDirectory handler stat path.bytes ∧ path.bytes.getLast? ≠ some slash ∨
    FindsFile handler stat path.bytes ∧ path.bytes.getLast? = some slash then 1
  else 0

theorem rank_le_one (kept : FileHandler.canonical path.bytes = path.bytes) :
    rank handler stat path ≤ 1 := by
  rw [rank, if_neg (not_not.mpr kept)]
  split <;> omega

/-- A directory is no regular file. -/
theorem FindsDirectory.not_findsFile {path : Bytes} (finds : FindsDirectory handler stat path) :
    ¬ FindsFile handler stat path := fun file =>
  absurd (finds.2.2.symm.trans file.2.2.1) (by decide)

/-- **A redirect leads closer to the end.** -/
theorem rank_lt_of_redirects (redirects : Redirects system handler stat path target) :
    rank handler stat target < rank handler stat path := by
  rcases redirects_iff.mp redirects with ⟨other, isTarget⟩ | ⟨kept, found⟩
  · have keptTarget : FileHandler.canonical target.bytes = target.bytes := by
      rw [isTarget, FileHandler.canonical_canonical]
    have two : rank handler stat path = 2 := if_pos other
    rw [two]
    exact Nat.lt_succ_of_le (rank_le_one keptTarget)
  · have one : rank handler stat path = 1 := by
      rw [rank, if_neg (not_not.mpr kept), if_pos]
      exact found.imp (fun all => ⟨all.1, all.2.1⟩) fun all => ⟨all.1, all.2.1⟩
    rw [one, Nat.lt_one_iff, rank]
    rcases found with ⟨finds, noTrailing, isTarget⟩ | ⟨finds, trailing, isTarget⟩
    · obtain ⟨keptTarget, sameFile⟩ := canonical_concat handler kept noTrailing
      have noFile : ¬ FindsFile handler stat (path.bytes ++ [slash]) := by
        rw [FindsFile, sameFile]
        exact finds.not_findsFile
      rw [isTarget, if_neg (not_not.mpr keptTarget), if_neg]
      rintro (⟨_, again⟩ | ⟨file, _⟩)
      · exact again List.getLast?_concat
      · exact noFile file
    · obtain ⟨keptTarget, bare, sameFile⟩ := canonical_dropLast handler kept trailing
      have noDirectory : ¬ FindsDirectory handler stat path.bytes.dropLast := by
        rw [FindsDirectory, sameFile]
        exact fun directory => FindsDirectory.not_findsFile directory finds
      rw [isTarget, if_neg (not_not.mpr keptTarget), if_neg]
      rintro (⟨directory, _⟩ | ⟨_, again⟩)
      · exact noDirectory directory
      · exact bare again

/-- **A chain of redirects has at most two, and never returns.** -/
theorem redirects_terminate {chain : List CString}
    (isChain : (path :: chain).IsChain (Redirects system handler stat)) :
    chain.length ≤ 2 ∧ (path :: chain).Nodup := by
  obtain ⟨distinct, bounded⟩ :=
    chain_of_rank (fun _ _ redirects => rank_lt_of_redirects redirects) isChain
  refine ⟨bounded.trans ?_, distinct⟩
  unfold rank
  split
  · exact Nat.le_refl 2
  · split <;> omega

/-! ### Where they lead -/

/-- At the end of the path the root and at least one name are left; or no name is left, a separator
ends the path, and the file of `/` is no regular file that may be sent. -/
def Settles (handler : FileHandler) (stat : FileSystem) (path : Bytes) : Prop :=
  (level path).rooted = true ∧ 0 < (level path).names ∨
    (level path).names = 0 ∧ path.getLast? = some slash ∧ ¬ FindsFile handler stat [slash]

instance (handler : FileHandler) (stat : FileSystem) (path : Bytes) :
    Decidable (Settles handler stat path) := inferInstanceAs (Decidable (_ ∧ _ ∨ _ ∧ _ ∧ _))

/-- Every target starts with a separator, and the chain ends after two redirects without coming back
to a path. -/
def RedirectsEnd (system : System) (handler : FileHandler) (stat : FileSystem) (path : CString) :
    Prop :=
  ∀ chain : List CString, (path :: chain).IsChain (Redirects system handler stat) →
    (∀ target ∈ chain, target.bytes.head? = some slash) ∧ chain.length ≤ 2 ∧
      (path :: chain).Nodup

/-- **What `Settles` says of the canonical path**: it is rooted, and if it is `/`, that is no regular
file. -/
theorem settles_iff (path : Bytes) : Settles handler stat path ↔
    (FileHandler.canonical path).head? = some slash ∧
      ¬ (FileHandler.canonical path = [slash] ∧ FindsFile handler stat [slash]) := by
  have normal := delUpsParts_normal path
  have nothing := joinAll_eq_nil_iff normal
  have rooted := head?_joinAll_iff normal
  rw [levelOf_delUpsParts] at nothing rooted
  unfold Settles FileHandler.canonical
  by_cases trailing : path.getLast? = some slash
  · rw [if_pos trailing, ← rooted, ← nothing]
    by_cases empty : delUps path = []
    · have emptyToo : joinAll (delUpsParts path) = [] := empty
      simp [empty, emptyToo, trailing]
    · have notRoot : joinAll (delUpsParts path) ++ [slash] ≠ [slash] := fun same =>
        empty (by simpa [delUps] using same)
      have filled : joinAll (delUpsParts path) ≠ [] := empty
      rw [List.head?_append_of_ne_nil _ empty]
      simp [filled, delUps]
  · rw [if_neg trailing, ← rooted]
    have notRoot : joinAll (delUpsParts path) ≠ [slash] := fun same => by
      have free := getLast?_joinAll normal
      rw [same] at free
      exact absurd free (by decide)
    simp [trailing, notRoot, delUps]

/-- A settled path is redirected to a rooted path that is settled. -/
theorem Settles.redirects (settles : Settles handler stat path.bytes)
    (redirects : Redirects system handler stat path target) :
    target.bytes.head? = some slash ∧ Settles handler stat target.bytes := by
  obtain ⟨rooted, noFile⟩ := (settles_iff path.bytes).mp settles
  rw [settles_iff]
  rcases redirects_iff.mp redirects with ⟨other, isTarget⟩ | ⟨kept, found⟩
  · rw [isTarget, FileHandler.canonical_canonical]
    exact ⟨rooted, rooted, noFile⟩
  · rw [kept] at rooted noFile
    obtain ⟨rest, isPath⟩ := List.head?_eq_some_iff.mp rooted
    rcases found with ⟨finds, noTrailing, isTarget⟩ | ⟨finds, trailing, isTarget⟩
    · have keptTarget := (canonical_concat handler kept noTrailing).1
      rw [isTarget, keptTarget, isPath]
      exact ⟨rfl, rfl, fun both => by simp at both⟩
    · obtain ⟨keptTarget, bare, _⟩ := canonical_dropLast handler kept trailing
      have more : rest ≠ [] := fun empty => by
        rw [isPath, empty] at finds noFile
        exact noFile ⟨rfl, finds⟩
      have head : path.bytes.dropLast.head? = some slash := by
        rw [isPath, List.dropLast_cons_of_ne_nil more]
        rfl
      rw [isTarget, keptTarget]
      refine ⟨head, head, fun both => bare ?_⟩
      rw [both.1]
      rfl

/-- **When redirects end at rooted paths**: the root and a name are left at the end of the path, or
the path leads to `/` and finds no regular file there. -/
theorem redirectsEnd_iff (rooted : path.bytes.head? = some slash) :
    RedirectsEnd system handler stat path ↔ Settles handler stat path.bytes := by
  constructor
  · intro ends
    rw [settles_iff]
    have noNul := noNul_canonical path.noNul
    have first : FileHandler.canonical path.bytes ≠ path.bytes →
        Redirects system handler stat path ⟨FileHandler.canonical path.bytes, noNul⟩ :=
      fun other => redirects_iff.mpr (.inl ⟨other, rfl⟩)
    have isRooted : (FileHandler.canonical path.bytes).head? = some slash := by
      by_cases kept : FileHandler.canonical path.bytes = path.bytes
      · rw [kept]
        exact rooted
      · exact (ends [_] (List.isChain_pair.mpr (first kept))).1 _ List.mem_cons_self
    refine ⟨isRooted, fun ⟨atRoot, finds⟩ => ?_⟩
    -- The regular file at `/` has its separator taken away, and nothing is left.
    have second : Redirects system handler stat ⟨[slash], by decide⟩ ⟨[], List.not_mem_nil⟩ :=
      redirects_iff.mpr (.inr ⟨by decide, .inr ⟨finds, rfl, rfl⟩⟩)
    have bad : ([] : Bytes).head? ≠ some slash := by decide
    by_cases kept : FileHandler.canonical path.bytes = path.bytes
    · have isPath : path = ⟨[slash], by decide⟩ := by
        cases path
        cases kept.symm.trans atRoot
        rfl
      subst isPath
      exact bad ((ends [_] (List.isChain_pair.mpr second)).1 _ List.mem_cons_self)
    · have isTarget : (⟨FileHandler.canonical path.bytes, noNul⟩ : CString) =
          ⟨[slash], by decide⟩ := by
        simp only [atRoot]
      have both := List.isChain_cons_cons.mpr
        ⟨isTarget ▸ first kept, List.isChain_pair.mpr second⟩
      exact bad ((ends [_, _] both).1 _ (List.mem_cons_of_mem _ List.mem_cons_self))
  · intro settles chain isChain
    refine ⟨?_, redirects_terminate isChain⟩
    have keeps : ∀ first second : CString, Settles handler stat first.bytes →
        Redirects system handler stat first second →
        second.bytes.head? = some slash ∧ Settles handler stat second.bytes :=
      fun _ _ settled redirects => settled.redirects redirects
    exact forall_of_chain keeps settles isChain

end Chains

/-- A file system in which everything is a directory. -/
def directories : FileSystem := fun _ => (0, 0o040755)

/-- `/a/../b` is redirected to `/b`, and that to `/b/`. -/
theorem redirectsEnd_directories :
    RedirectsEnd plainSystem srvHandler directories ⟨text "/a/../b", by decide⟩ :=
  (redirectsEnd_iff (by decide)).mpr (by decide)

/-- `/..` is a path that the parser stores, and it is redirected to nothing. -/
theorem redirects_up :
    (parseHost { header := text "gemini://h/..\r\n" }).map Request.path = some (text "/..") ∧
      Redirects plainSystem srvHandler directories ⟨text "/..", by decide⟩ ⟨[], by decide⟩ ∧
      ¬ RedirectsEnd plainSystem srvHandler directories ⟨text "/..", by decide⟩ := by
  have redirects : Redirects plainSystem srvHandler directories ⟨text "/..", by decide⟩
      ⟨[], by decide⟩ := redirects_iff.mpr (.inl ⟨by decide, by decide⟩)
  refine ⟨by decide, redirects, fun ends => ?_⟩
  have bad := (ends [_] (List.isChain_pair.mpr redirects)).1 _ List.mem_cons_self
  exact absurd bad (by decide)

end GemCaps
