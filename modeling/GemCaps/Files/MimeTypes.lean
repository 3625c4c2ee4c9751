/-
**The type of a file** (`MimeTypes::getType`, and what `file_on_open` makes of it).

`getType` looks up what stands behind the last dot of the whole path, or the whole path where there is
no dot, and returns the null pointer for what the table does not list; `file_on_open` hands it to
`responseHeader` as it is. `run_typed_iff`: the file that a request has opened gets its header exactly
when its extension is listed.
-/

import GemCaps.Files.Containment
import GemCaps.Files.Effects
import GemCaps.Request.Literal

namespace GemCaps

open Cutting Transition

/-- The table: the type of an extension that it lists. -/
abbrev MimeTable := Bytes → Option CString

/-- `MimeTypes::getType(extension)`. -/
def getType (types : MimeTable) (extension : Bytes) : Option CString :=
  match rfind extension dot with
  | none => types extension
  | some found => types (extension.drop (found + 1))

/-- The program with this table. -/
def System.withTypes (system : System) (types : MimeTable) : System :=
  { system with mimeType := fun file => (getType types file).map CString.bytes }

/-! ### What is looked up -/

/-- What stands behind the last dot; all of the text where there is none. -/
def extension (file : Bytes) : Bytes := afterLast dot file

/-- **`getType` looks up the extension.** -/
theorem getType_eq (types : MimeTable) (file : Bytes) : getType types file = types (extension file) := by
  unfold getType extension
  rcases notMem_or_exists_last dot file with noDot | ⟨front, name, rfl, noDot⟩
  · rw [rfind_eq_none noDot, afterLast_of_notMem noDot]
  · rw [rfind_append_cons front noDot, afterLast_append_cons front noDot]
    exact congrArg types (drop_front front dot name)

/-- The extension of the file is in the table. -/
def Listed (types : MimeTable) (file : Bytes) : Prop := (types (extension file)).isSome = true

instance (types : MimeTable) (file : Bytes) : Decidable (Listed types file) :=
  inferInstanceAs (Decidable (_ = _))

/-- **A table without separators lists no file whose last component has no dot.** -/
theorem not_listed_of_noDot {types : MimeTable} (plain : ∀ name, slash ∈ name → types name = none)
    (folder : Bytes) {name : Bytes} (noDot : dot ∉ name) :
    ¬ Listed types (folder ++ slash :: name) := by
  have inside : slash ∈ extension (folder ++ slash :: name) := by
    unfold extension
    rcases notMem_or_exists_last dot folder with noDots | ⟨front, rest, rfl, noDots⟩
    · rw [afterLast_of_notMem (by simp [noDots, noDot, show dot ≠ slash by decide])]
      simp
    · have free : dot ∉ rest ++ slash :: name := by
        simp [noDots, noDot, show dot ≠ slash by decide]
      rw [List.append_assoc, List.cons_append, afterLast_append_cons front free]
      simp
  rw [Listed, plain _ inside]
  exact Bool.false_ne_true

/-- **The array of a success header**: with types that have room in it, it is written exactly when the
extension is listed. -/
theorem responseHeader_isSome_iff_listed {types : MimeTable}
    (short : ∀ name mimeType, types name = some mimeType → mimeType.bytes.length ≤ 1019)
    (file : Bytes) :
    (StringLiteral.responseHeader 1024 resSuccess (getType types file)).isSome = true ↔
      Listed types file := by
  have code : (decimal resSuccess).length = 2 := by decide
  rw [getType_eq, Listed]
  cases found : types (extension file) with
  | none =>
    rw [StringLiteral.responseHeader_null]
    exact Iff.rfl
  | some mimeType =>
    have room := short _ mimeType found
    rw [StringLiteral.responseHeader_isSome_iff (by decide), code]
    exact iff_of_true (by omega) rfl

namespace Serving

variable {system : System} {handler : FileHandler} {request : Request} {serving next : Serving}

/-! ### The file that is open -/

/-- The file of a request: the one it is mapped to, or an index entry that may be sent. -/
def IsServed (handler : FileHandler) (request : Request) (file : Bytes) : Prop :=
  file = handler.mapped request.path ∨
    ∃ entry, IsIndex handler (handler.mapped request.path) entry ∧
      file = Path.join (handler.mapped request.path) entry.name.bytes

/-- While an operation is pending, no script runs; an open is that of the file of the context. -/
structure Serves (handler : FileHandler) (request : Request) (serving : Serving) : Prop where
  runner : serving.runner = none
  crashed : serving.crashed = false
  served : IsServed handler request serving.file
  searches : ∀ path, serving.pending = some (.stat path) ∨ serving.pending = some (.scandir path) →
    serving.file = handler.mapped request.path
  opens : ∀ path, serving.pending = some (.openFile path) → path = handed serving.file

/-- **`read_file`** opens the file, or leaves no operation pending. -/
theorem Reading.serves {before after : Serving} (reading : Reading system handler before after)
    (pending : before.pending = none) (runner : before.runner = none)
    (crashed : before.crashed = false) (served : IsServed handler request before.file) :
    after.pending = none ∨ Serves handler request after := by
  cases reading with
  | quiet quietly => exact .inl (quietly.pending.trans pending)
  | spawns executable env prepared quietly =>
    exact .inl (quietly.pending.trans (prepared.pending.trans pending))
  | opens plain =>
    refine .inr ⟨runner, crashed, served, ?_, ?_⟩
    · rintro path (other | other) <;> cases other
    · intro path opened
      exact (Operation.openFile.inj (Option.some.inj opened)).symm

/-- The reads and the close behind an open are for the same file. -/
theorem Serves.later {after : Serving} {operation : Operation}
    (serves : Serves handler request serving) (runner : after.runner = serving.runner)
    (crashed : after.crashed = serving.crashed) (file : after.file = serving.file)
    (waits : after.pending = some operation)
    (later : (∃ fd offset, operation = .read fd offset) ∨ ∃ fd, operation = .closeFile fd) :
    Serves handler request after := by
  refine ⟨runner.trans serves.runner, crashed.trans serves.crashed, file ▸ serves.served, ?_, ?_⟩
  · intro path searches
    rw [waits] at searches
    rcases later with ⟨fd, offset, rfl⟩ | ⟨fd, rfl⟩
    · rcases searches with other | other <;> cases other
    · rcases searches with other | other <;> cases other
  · intro path opened
    rw [waits] at opened
    rcases later with ⟨fd, offset, rfl⟩ | ⟨fd, rfl⟩
    · cases opened
    · cases opened

/-- **One step.** -/
theorem Serves.step {event : ServingEvent} (step : serving.step system handler event = some next)
    (pends : serving.pending = none ∨ Serves handler request serving) :
    next.pending = none ∨ Serves handler request next := by
  cases stepped_of_step step with
  | statDone result mode waits =>
    have serves := pends.resolve_left (by simp [waits])
    have atMapped := serves.searches _ (.inl waits)
    rcases handleOnStat_cases system handler serving.finish result mode with
      ⟨response, same⟩ | ⟨_, same⟩ | ⟨_, same⟩
    · rw [same]
      exact .inl rfl
    · rw [same]
      refine .inr ⟨serves.runner, serves.crashed, serves.served, fun _ _ => atMapped, ?_⟩
      intro path opened
      cases opened
    · rw [same]
      exact (readFile_reading system handler _).serves rfl serves.runner serves.crashed serves.served
  | scanDone result entries waits =>
    have serves := pends.resolve_left (by simp [waits])
    have atMapped : serving.finish.file = handler.mapped request.path :=
      serves.searches _ (.inr waits)
    rcases dirOnScan_cases system handler serving.finish result entries with
      ⟨_, said, same, _⟩ | ⟨_, entry, isFirst, verdicts, same, _⟩
    · rw [same]
      exact .inl rfl
    · rw [same]
      rw [atMapped] at isFirst ⊢
      have chosen := List.find?_some isFirst
      exact (readFile_reading system handler _).serves rfl serves.runner serves.crashed
        (.inr ⟨entry, of_decide_eq_true chosen, rfl⟩)
  | openDone result waits =>
    have serves := pends.resolve_left (by simp [waits])
    simp only [fileOnOpen]
    split
    · exact .inl rfl
    · split
      · exact .inl rfl
      · exact .inr (serves.later rfl rfl rfl rfl (.inl ⟨_, _, rfl⟩))
  | readDone result data waits =>
    have serves := pends.resolve_left (by simp [waits])
    simp only [fileOnRead]
    split
    · exact .inr (serves.later rfl rfl rfl rfl (.inr ⟨_, rfl⟩))
    · exact .inr (serves.later rfl rfl rfl rfl (.inl ⟨_, _, rfl⟩))
  | closeDone waits => exact .inl rfl
  | running runs quietly other =>
    refine pends.imp (fun none => quietly.pending.trans none) fun serves => ?_
    exact absurd serves.runner runs
  | connectionClosed =>
    exact pends.imp id fun serves =>
      ⟨serves.runner, serves.crashed, serves.served, serves.searches, serves.opens⟩

theorem handle_serves (handler : FileHandler) (request : Request) :
    (handle handler request).pending = none ∨ Serves handler request (handle handler request) := by
  by_cases admitted : Admitted handler request
  · rw [handle_of_admitted admitted]
    refine .inr ⟨rfl, rfl, .inl rfl, fun _ _ => rfl, ?_⟩
    intro path opened
    cases opened
  · obtain ⟨trace, same, _⟩ := handle_of_not_admitted admitted
    rw [same]
    exact .inl rfl

/-- **The file that a run has opened.** -/
theorem run_serves {events : List ServingEvent}
    (ran : Transition.run (step system handler) (handle handler request) events = some serving)
    {path : CString} (waits : serving.pending = some (.openFile path)) :
    Serves handler request serving :=
  (run_always (fun serving => serving.pending = none ∨ Serves handler request serving)
    (fun _ _ _ pends stepped => Serves.step stepped pends) (handle_serves handler request)
    ran).resolve_left (by simp [waits])

/-! ### The header of a file -/

/-- `file_on_open` makes the header of this type, and the file is read. -/
def HeaderTyped (system : System) (handler : FileHandler) (serving : Serving) (result : Int)
    (mimeType : Bytes) : Prop :=
  ∃ next, serving.step system handler (.openDone result) = some next ∧ next.crashed = false ∧
    next.trace = serving.trace ++ [.finish, .acquire .descriptor, .acquire .buffer,
      .send (responseHeader resSuccess mimeType), .start (.read result 0)]

theorem openDone_eq (system : System) (serves : Serves handler request serving) {path : CString}
    (waits : serving.pending = some (.openFile path)) (result : Int) :
    path.bytes = cStr serving.finish.file ∧ serving.step system handler (.openDone result) =
      some (serving.finish.fileOnOpen system result) := by
  refine ⟨by rw [serves.opens path waits]; rfl, ?_⟩
  unfold Serving.step
  rw [serves.crashed, waits]
  rfl

/-- **The header has the type that is found.** -/
theorem headerTyped_of_eq (serves : Serves handler request serving) {path : CString}
    (waits : serving.pending = some (.openFile path)) {result : Int} (opened : 0 ≤ result)
    {mimeType : Bytes} (isMime : system.mimeType path.bytes = some mimeType) :
    HeaderTyped system handler serving result mimeType := by
  obtain ⟨isPath, stepped⟩ := openDone_eq system serves waits result
  rw [isPath] at isMime
  refine ⟨_, stepped, ?_, ?_⟩
  · simp only [fileOnOpen, if_neg (Int.not_lt.mpr opened), isMime]
    exact serves.crashed
  · simp only [fileOnOpen, if_neg (Int.not_lt.mpr opened), isMime]
    simp [start, act, finish]

/-- Without a type the server reads the null pointer. -/
theorem crashed_of_eq_none (serves : Serves handler request serving) {path : CString}
    (waits : serving.pending = some (.openFile path)) {result : Int} (opened : 0 ≤ result)
    (untyped : system.mimeType path.bytes = none) :
    ∃ next, serving.step system handler (.openDone result) = some next ∧ next.crashed = true := by
  obtain ⟨isPath, stepped⟩ := openDone_eq system serves waits result
  rw [isPath] at untyped
  refine ⟨_, stepped, ?_⟩
  simp only [fileOnOpen, if_neg (Int.not_lt.mpr opened), untyped]

/-- **`file_on_open` has a type exactly when one is found.** -/
theorem headerTyped_iff (serves : Serves handler request serving) {path : CString}
    (waits : serving.pending = some (.openFile path)) {result : Int} (opened : 0 ≤ result) :
    (∃ mimeType, HeaderTyped system handler serving result mimeType) ↔
      system.mimeType path.bytes ≠ none := by
  constructor
  · rintro ⟨mimeType, next, stepped, alive, _⟩ untyped
    obtain ⟨other, steppedToo, crashed⟩ := crashed_of_eq_none serves waits opened untyped
    obtain rfl := Option.some.inj (stepped.symm.trans steppedToo)
    exact absurd (alive.symm.trans crashed) (by decide)
  · intro typed
    obtain ⟨mimeType, isMime⟩ := Option.ne_none_iff_exists'.mp typed
    exact ⟨mimeType, headerTyped_of_eq serves waits opened isMime⟩

theorem headerTyped_iff_listed {types : MimeTable} (serves : Serves handler request serving)
    {path : CString} (waits : serving.pending = some (.openFile path)) {result : Int}
    (opened : 0 ≤ result) :
    (∃ mimeType, HeaderTyped (system.withTypes types) handler serving result mimeType) ↔
      Listed types path.bytes := by
  rw [headerTyped_iff serves waits opened]
  show (getType types path.bytes).map CString.bytes ≠ none ↔ _
  rw [getType_eq, Listed, ← Option.ne_none_iff_isSome]
  simp

/-- **A file whose name has no dot crashes the server**, whatever the folders above it are called. -/
theorem not_typed_of_noDot {types : MimeTable} (plain : ∀ name, slash ∈ name → types name = none)
    (serves : Serves handler request serving) {path : CString}
    (waits : serving.pending = some (.openFile path)) {result : Int} (opened : 0 ≤ result)
    {folder name : Bytes} (isPath : path.bytes = folder ++ slash :: name) (noDot : dot ∉ name) :
    ¬ ∃ mimeType, HeaderTyped (system.withTypes types) handler serving result mimeType := by
  rw [headerTyped_iff_listed serves waits opened, isPath]
  exact not_listed_of_noDot plain folder noDot

/-- **When the header of a file has a type**: in every run, the file that is open is that of the
request or an index entry, and its header is made exactly when its extension is listed. -/
theorem run_typed_iff {types : MimeTable} {events : List ServingEvent}
    (ran : Transition.run (step (system.withTypes types) handler) (handle handler request) events =
      some serving)
    {path : CString} (waits : serving.pending = some (.openFile path)) {result : Int}
    (opened : 0 ≤ result) :
    path = handed serving.file ∧ IsServed handler request serving.file ∧
      ((∃ mimeType, HeaderTyped (system.withTypes types) handler serving result mimeType) ↔
        Listed types path.bytes) := by
  have serves := run_serves ran waits
  exact ⟨serves.opens path waits, serves.served, headerTyped_iff_listed serves waits opened⟩

/-- A table that lists `gmi` only. -/
def gemTypes : MimeTable := fun name =>
  if name = text "gmi" then some ⟨text "text/gemini", by decide⟩ else none

theorem run_typed_iff_gem : ∃ serving path,
    Transition.run (step (plainSystem.withTypes gemTypes) srvHandler)
        (handle srvHandler { path := text "/a.gmi" }) [.statDone 0 0o100644] = some serving ∧
      serving.pending = some (.openFile path) ∧ (0 : Int) ≤ 3 ∧ path = handed serving.file ∧
      IsServed srvHandler { path := text "/a.gmi" } serving.file ∧
      ((∃ mimeType, HeaderTyped (plainSystem.withTypes gemTypes) srvHandler serving 3 mimeType) ↔
        Listed gemTypes path.bytes) := by
  have ran := (show Transition.run (step (plainSystem.withTypes gemTypes) srvHandler)
    (handle srvHandler { path := text "/a.gmi" }) [.statDone 0 0o100644] = some _ from rfl)
  exact ⟨_, _, rfl, rfl, by decide, run_typed_iff ran rfl (by decide)⟩

/-- These callbacks lead to an open; when it succeeds, the type is the null pointer, and the server
reads it. -/
def Untyped (path : Bytes) (events : List ServingEvent) : Prop :=
  ∃ serving next,
    Transition.run (step (plainSystem.withTypes gemTypes) srvHandler) (handle srvHandler { path })
        events = some serving ∧
      serving.step (plainSystem.withTypes gemTypes) srvHandler (.openDone 3) = some next ∧
      next.crashed = true ∧ getType gemTypes (cStr serving.file) = none ∧
      ¬ ∃ mimeType, HeaderTyped (plainSystem.withTypes gemTypes) srvHandler serving 3 mimeType

/-- No dot, an extension that is not listed, a dot in the folder only, and an index entry. -/
theorem run_untyped :
    Untyped (text "/README") [.statDone 0 0o100644] ∧
      Untyped (text "/a.xyz") [.statDone 0 0o100644] ∧
      Untyped (text "/v1.0/readme") [.statDone 0 0o100644] ∧
      Untyped (text "/d/")
        [.statDone 0 0o040755, .scanDone 1 [⟨⟨text "index.xyz", by decide⟩, false⟩]] := by
  have untyped : ∀ {serving next : Serving},
      serving.step (plainSystem.withTypes gemTypes) srvHandler (.openDone 3) = some next →
      next.crashed = true →
        ¬ ∃ mimeType, HeaderTyped (plainSystem.withTypes gemTypes) srvHandler serving 3 mimeType := by
    rintro serving next stepped crashed ⟨_, other, steppedToo, alive, _⟩
    rw [stepped] at steppedToo
    obtain rfl := Option.some.inj steppedToo
    exact absurd (crashed.symm.trans alive) (by decide)
  refine ⟨⟨_, _, rfl, rfl, rfl, by decide, untyped rfl rfl⟩,
    ⟨_, _, rfl, rfl, rfl, by decide, untyped rfl rfl⟩,
    ⟨_, _, rfl, rfl, rfl, by decide, untyped rfl rfl⟩,
    ⟨_, _, rfl, rfl, rfl, by decide, untyped rfl rfl⟩⟩

end Serving

end GemCaps
