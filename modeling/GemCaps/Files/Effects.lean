/-
**What the callbacks of a request can do.**

One lemma for each callback says everything it can do to the trace, to the pending operation and to
the file. Most of what is done is quiet: it touches no path, starts nothing, and neither acquires nor
releases the context.
-/

import GemCaps.Files.Serving

namespace GemCaps

/-- What says or asks something, and nothing else. -/
def Action.spoken : Action → Bool
  | .validate _ _ | .send _ | .close => true
  | .setClientCloseCallback _ | .acquire _ | .release _ | .start _ | .finish | .spawn _ | .signal =>
    false

/-- Actions that touch no path, and leave the context and its operation alone. -/
def Action.quiet : Action → Bool
  | .validate _ _ | .send _ | .close | .setClientCloseCallback _ | .signal => true
  | .acquire resource | .release resource => resource != .context
  | .start _ | .finish | .spawn _ => false

theorem Action.quiet_of_spoken {action : Action} (spoken : action.spoken = true) :
    action.quiet = true := by
  cases action <;> first | rfl | cases spoken

namespace Serving

variable {system : System} {handler : FileHandler} {serving before middle after : Serving}

/-- Quiet actions only; the operation and the file stay. -/
structure Quietly (before after : Serving) : Prop where
  trace : ∃ new, after.trace = before.trace ++ new ∧ ∀ action ∈ new, action.quiet = true
  pending : after.pending = before.pending
  file : after.file = before.file

/-- The actions that were added are quiet, which can be read off them. -/
theorem quietly_of_all {new : List Action} (isNew : after.trace = before.trace ++ new)
    (quiet : new.all Action.quiet = true) (pending : after.pending = before.pending)
    (file : after.file = before.file) : Quietly before after :=
  ⟨⟨new, isNew, List.all_eq_true.mp quiet⟩, pending, file⟩

/-- Nothing was added. -/
theorem quietly_of_trace (trace : after.trace = before.trace)
    (pending : after.pending = before.pending) (file : after.file = before.file) :
    Quietly before after :=
  quietly_of_all (trace.trans (List.append_nil _).symm) rfl pending file

theorem Quietly.trans (first : Quietly before middle) (second : Quietly middle after) :
    Quietly before after := by
  obtain ⟨new, isNew, quiet⟩ := first.trace
  obtain ⟨newer, isNewer, quieter⟩ := second.trace
  refine ⟨⟨new ++ newer, by rw [isNewer, isNew, List.append_assoc], ?_⟩,
    second.pending.trans first.pending, second.file.trans first.file⟩
  intro action inside
  exact (List.mem_append.mp inside).elim (quiet action) (quieter action)

theorem quietly_act {new : List Action} (quiet : ∀ action ∈ new, action.quiet = true) :
    Quietly serving (serving.act new) := ⟨⟨new, rfl, quiet⟩, rfl, rfl⟩

/-! ### CGI -/

theorem interrupt_quietly (runner : CGIRunner) : Quietly serving (serving.interrupt runner) := by
  unfold interrupt
  split
  · exact quietly_of_all rfl rfl rfl rfl
  · exact quietly_of_trace rfl rfl rfl

theorem closeRunner_quietly (runner : CGIRunner) :
    Quietly serving (serving.closeRunner runner) := by
  refine (interrupt_quietly runner).trans ?_
  unfold closeRunner
  split
  · exact quietly_of_all rfl rfl rfl rfl
  · exact quietly_of_all rfl rfl rfl rfl

theorem onExit_quietly (runner : CGIRunner) : Quietly serving (serving.onExit runner) :=
  closeRunner_quietly _

theorem onPipeRead_quietly (runner : CGIRunner) (nread : Int) (data : Bytes) :
    Quietly serving (serving.onPipeRead runner nread data) := by
  unfold onPipeRead
  split
  · exact closeRunner_quietly runner
  · exact quietly_of_all rfl rfl rfl rfl

theorem onPipeClosed_quietly (runner : CGIRunner) : Quietly serving (serving.onPipeClosed runner) :=
  quietly_of_trace rfl rfl rfl

/-- What reading the file of a context does: nothing but quiet actions, an open, or a spawn. -/
inductive Reading (system : System) (handler : FileHandler) (serving : Serving) :
    Serving → Prop where
  | quiet {after : Serving} (quietly : Quietly serving after) : Reading system handler serving after
  | opens (plain : handler.isExecutable serving.file = false) :
      Reading system handler serving (serving.start (.openFile (handed serving.file)))
  | spawns {ready after : Serving} (executable : handler.isExecutable serving.file = true)
      (env : List (Bytes × Bytes)) (prepared : Quietly serving ready)
      (quietly : Quietly (ready.act [.spawn (.make system.programs serving.file env [])]) after) :
      Reading system handler serving after

theorem pipe_quietly : Quietly serving (serving.pipe system) := by
  unfold pipe
  split
  · exact quietly_of_all rfl rfl rfl rfl
  · exact quietly_of_trace rfl rfl rfl

theorem spawn_reading {ready : Serving} {env : List (Bytes × Bytes)}
    (executable : handler.isExecutable serving.file = true) (prepared : Quietly serving ready) :
    Reading system handler serving
      (ready.spawn system { executor := .make system.programs serving.file env [] }) := by
  unfold Serving.spawn
  split
  · exact .quiet ⟨prepared.trace, prepared.pending, prepared.file⟩
  · refine .spawns executable env prepared ?_
    split
    · refine Quietly.trans ?_ (closeRunner_quietly _)
      refine quietly_of_all ?_ (show [Action.send cgiError].all Action.quiet = true from rfl) rfl rfl
      simp [act]
    · exact quietly_of_trace rfl rfl rfl

/-- **`read_file`.** -/
theorem readFile_reading (system : System) (handler : FileHandler) (serving : Serving) :
    Reading system handler serving (serving.readFile system handler) := by
  unfold readFile
  by_cases executable : handler.isExecutable serving.file = true
  · rw [if_pos executable]
    refine spawn_reading executable (Quietly.trans ?_ pipe_quietly)
    exact quietly_of_all rfl rfl rfl rfl
  · rw [if_neg executable]
    exact .opens (Bool.not_eq_true _ ▸ executable)

/-! ### Files -/

/-- **`file_on_open`** answers, crashes, or starts the first read. -/
theorem fileOnOpen_cases (system : System) (serving : Serving) (result : Int) :
    Quietly serving (serving.fileOnOpen system result) ∨
      ∃ ready offset, Quietly serving ready ∧
        serving.fileOnOpen system result = ready.start (.read result offset) := by
  simp only [fileOnOpen]
  split
  · exact Or.inl (quietly_of_all rfl rfl rfl rfl)
  · cases system.mimeType (cStr serving.file) with
    | none => exact Or.inl (quietly_of_all rfl rfl rfl rfl)
    | some mimeType =>
      refine Or.inr ⟨_, 0, Quietly.trans ?_ (quietly_act ?_), rfl⟩
      · exact quietly_of_all rfl rfl rfl rfl
      · simp [Action.quiet]

/-- **`file_on_read`** starts the next read or closes the file. -/
theorem fileOnRead_cases (serving : Serving) (result : Int) (data : Bytes) :
    ∃ ready operation, Quietly serving ready ∧
      serving.fileOnRead result data = ready.start operation ∧
      ((∃ fd offset, operation = .read fd offset) ∨ ∃ fd, operation = .closeFile fd) := by
  simp only [fileOnRead]
  split
  · refine ⟨_, _, ?_, rfl, Or.inr ⟨_, rfl⟩⟩
    exact quietly_of_all rfl rfl rfl rfl
  · refine ⟨_, _, ?_, rfl, Or.inl ⟨_, _, rfl⟩⟩
    exact quietly_of_all rfl rfl rfl rfl

/-- The callback of `stat` goes on to the directory. -/
def Descends (serving : Serving) (result : Int) (mode : Nat) : Prop :=
  result = 0 ∧ isDir mode = true ∧ serving.request.path.getLast? = some slash

/-- The callback of `stat` goes on to the file. -/
def Fetches (serving : Serving) (result : Int) (mode : Nat) : Prop :=
  result = 0 ∧ isDir mode = false ∧ isFile mode = true ∧ serving.request.path.getLast? ≠ some slash

instance (serving : Serving) (result : Int) (mode : Nat) : Decidable (serving.Descends result mode) :=
  inferInstanceAs (Decidable (_ ∧ _))

instance (serving : Serving) (result : Int) (mode : Nat) : Decidable (serving.Fetches result mode) :=
  inferInstanceAs (Decidable (_ ∧ _))

/-- **`handle_on_stat`** answers, scans the directory, or reads the file. -/
theorem handleOnStat_cases (system : System) (handler : FileHandler) (serving : Serving)
    (result : Int) (mode : Nat) :
    (∃ response, serving.handleOnStat system handler result mode = serving.respond response) ∨
      (serving.Descends result mode ∧
        serving.handleOnStat system handler result mode = serving.readDir) ∨
      (serving.Fetches result mode ∧
        serving.handleOnStat system handler result mode = serving.readFile system handler) := by
  simp only [handleOnStat]
  by_cases failed : result ≠ 0
  · exact Or.inl ⟨_, if_pos failed⟩
  · rw [if_neg failed]
    cases directory : isDir mode with
    | true =>
      by_cases trailing : serving.request.path.getLast? = some slash
      · exact Or.inr (Or.inl ⟨⟨not_not.mp failed, directory, trailing⟩, by simp [trailing]⟩)
      · exact Or.inl ⟨_, by simp [trailing]; rfl⟩
    | false =>
      cases file : isFile mode with
      | true =>
        by_cases trailing : serving.request.path.getLast? = some slash
        · exact Or.inl ⟨_, by simp [trailing]; rfl⟩
        · exact Or.inr (Or.inr ⟨⟨not_not.mp failed, directory, file, trailing⟩, by simp [trailing]⟩)
      | false => exact Or.inl ⟨_, by simp; rfl⟩

/-! ### Directories -/

/-- An entry that `dir_on_scan` takes for the directory. -/
def IsIndex (handler : FileHandler) (file : Bytes) (entry : Dirent) : Prop :=
  text "index." <+: entry.name.bytes ∧
    handler.validateFile (Path.join file entry.name.bytes) = true

instance (handler : FileHandler) (file : Bytes) (entry : Dirent) :
    Decidable (IsIndex handler file entry) := inferInstanceAs (Decidable (_ ∧ _))

/-- The loop only validates. -/
theorem scan_actions (handler : FileHandler) (file : Bytes) (entries : List Dirent)
    (folders children : List Bytes) :
    ∀ action ∈ (scan handler file entries folders children).1, action.spoken = true := by
  induction entries generalizing folders children with
  | nil => exact fun _ inside => absurd inside List.not_mem_nil
  | cons entry entries ih =>
    simp only [scan]
    split
    · split
      · exact fun action inside => List.mem_singleton.mp inside ▸ rfl
      · rintro action (_ | ⟨_, inside⟩)
        · rfl
        · exact ih _ _ action inside
    · exact ih _ _

/-- **The loop ends with the first index entry that is allowed**, or without one. -/
theorem scan_cases (handler : FileHandler) (file : Bytes) (entries : List Dirent)
    (folders children : List Bytes) :
    (∃ entry, entries.find? (IsIndex handler file ·) = some entry ∧
      (scan handler file entries folders children).2 =
        .accepted (Path.join file entry.name.bytes) ∧
      .validate (Path.join file entry.name.bytes) true ∈
        (scan handler file entries folders children).1) ∨
    (entries.find? (IsIndex handler file ·) = none ∧ ∃ folders' children',
      (scan handler file entries folders children).2 = .exhausted folders' children') := by
  induction entries generalizing folders children with
  | nil => exact Or.inr ⟨rfl, _, _, rfl⟩
  | cons entry entries ih =>
    have skip : ¬ IsIndex handler file entry →
        (entry :: entries).find? (IsIndex handler file ·) =
          entries.find? (IsIndex handler file ·) :=
      fun other => List.find?_cons_of_neg fun isIndex => other (of_decide_eq_true isIndex)
    simp only [scan]
    by_cases isIndexName : text "index." <+: entry.name.bytes
    · rw [if_pos isIndexName]
      by_cases valid : handler.validateFile (Path.join file entry.name.bytes) = true
      · have isIndex : IsIndex handler file entry := ⟨isIndexName, valid⟩
        rw [if_pos valid]
        exact Or.inl ⟨entry, List.find?_cons_of_pos (decide_eq_true isIndex), rfl,
          List.mem_singleton_self _⟩
      · rw [if_neg valid, skip fun isIndex => valid isIndex.2]
        refine (ih _ _).imp_left ?_
        rintro ⟨other, isFirst, ends, validated⟩
        exact ⟨other, isFirst, ends, List.mem_cons_of_mem _ validated⟩
    · rw [if_neg isIndexName, skip fun isIndex => isIndexName isIndex.1]
      exact ih _ _

theorem act_act (first second : List Action) :
    (serving.act first).act second = serving.act (first ++ second) := by
  simp only [act, List.append_assoc]

/-- A listing, or its refusal, ends with the release of the context. -/
theorem listDirectory_releases (handler : FileHandler) (serving : Serving)
    (folders children : List Bytes) :
    ∃ said, serving.listDirectory handler folders children =
        serving.act (said ++ [.release .context]) ∧ ∀ action ∈ said, action.spoken = true := by
  unfold listDirectory
  split
  · exact ⟨[.send _, .send _, .close], rfl, by simp [Action.spoken]⟩
  · exact ⟨[.send _, .close], rfl, by simp [Action.spoken]⟩

/-- The results of a scan after which `dir_on_scan` releases the context. -/
def Barren (handler : FileHandler) (file : Bytes) (result : Int) (entries : List Dirent) : Prop :=
  result < 0 ∨ entries.find? (IsIndex handler file ·) = none

/-- **`dir_on_scan`** releases the context at its end, unless it reads an index entry. -/
theorem dirOnScan_cases (system : System) (handler : FileHandler) (serving : Serving)
    (result : Int) (entries : List Dirent) :
    (Barren handler serving.file result entries ∧ ∃ said,
      serving.dirOnScan system handler result entries =
        serving.act (said ++ [.release .context]) ∧ ∀ action ∈ said, action.spoken = true) ∨
    (0 ≤ result ∧ ∃ entry, entries.find? (IsIndex handler serving.file ·) = some entry ∧
      ∃ verdicts, serving.dirOnScan system handler result entries =
          { serving.act verdicts with
            file := Path.join serving.file entry.name.bytes }.readFile system handler ∧
        .validate (Path.join serving.file entry.name.bytes) true ∈ verdicts ∧
        ∀ action ∈ verdicts, action.spoken = true) := by
  unfold dirOnScan
  by_cases failed : result < 0
  · rw [if_pos failed]
    exact Or.inl ⟨Or.inl failed, [.send fileNotOpen, .close], rfl, by simp [Action.spoken]⟩
  · rw [if_neg failed]
    have actions := scan_actions handler serving.file entries [] []
    rcases scan_cases handler serving.file entries [] [] with
      ⟨entry, isFirst, ends, validated⟩ | ⟨none, folders, children, ends⟩
    · simp only [ends]
      exact Or.inr ⟨Int.not_lt.mp failed, entry, isFirst, _, rfl, validated, actions⟩
    · simp only [ends]
      obtain ⟨said, isListing, spoken⟩ := listDirectory_releases handler
        (serving.act (scan handler serving.file entries [] []).1) folders children
      refine Or.inl ⟨Or.inr none, (scan handler serving.file entries [] []).1 ++ said, ?_,
        List.forall_mem_append.mpr ⟨actions, spoken⟩⟩
      rw [isListing, act_act, List.append_assoc]

/-! ### Every step -/

/-- What a step can be. -/
inductive Stepped (system : System) (handler : FileHandler) (serving : Serving) :
    ServingEvent → Serving → Prop where
  | statDone {path : CString} (result : Int) (mode : Nat)
      (waits : serving.pending = some (.stat path)) : Stepped system handler serving
        (.statDone result mode) (serving.finish.handleOnStat system handler result mode)
  | scanDone {path : CString} (result : Int) (entries : List Dirent)
      (waits : serving.pending = some (.scandir path)) : Stepped system handler serving
        (.scanDone result entries) (serving.finish.dirOnScan system handler result entries)
  | openDone {path : CString} (result : Int) (waits : serving.pending = some (.openFile path)) :
      Stepped system handler serving (.openDone result) (serving.finish.fileOnOpen system result)
  | readDone {fd : Int} {offset : Nat} (result : Int) (data : Bytes)
      (waits : serving.pending = some (.read fd offset)) :
      Stepped system handler serving (.readDone result data) (serving.finish.fileOnRead result data)
  | closeDone {fd : Int} (waits : serving.pending = some (.closeFile fd)) :
      Stepped system handler serving .closeDone serving.finish
  | running {event : ServingEvent} {next : Serving} (runs : serving.runner ≠ none)
      (quietly : Quietly serving next)
      (other : (∀ result mode, event ≠ .statDone result mode) ∧
        ∀ result entries, event ≠ .scanDone result entries) :
      Stepped system handler serving event next
  | connectionClosed :
      Stepped system handler serving .connectionClosed { serving with connected := false }

/-- Nothing is called back after a crash. -/
theorem step_of_crashed {event : ServingEvent} (crashed : serving.crashed = true) :
    serving.step system handler event = none := if_pos crashed

/-- **Every step is one of these.** -/
theorem stepped_of_step {event : ServingEvent} {next : Serving}
    (step : serving.step system handler event = some next) :
    Stepped system handler serving event next := by
  unfold Serving.step at step
  split at step
  · cases step
  · split at step
    · exact Option.some.inj step ▸ .statDone _ _ ‹_›
    · exact Option.some.inj step ▸ .scanDone _ _ ‹_›
    · exact Option.some.inj step ▸ .openDone _ ‹_›
    · exact Option.some.inj step ▸ .readDone _ _ ‹_›
    · exact Option.some.inj step ▸ .closeDone ‹_›
    · next isRunner =>
      refine .running (by simp [isRunner]) ?_ (by simp)
      split at step
      · exact Option.some.inj step ▸ onPipeRead_quietly _ _ _
      · cases step
    · next isRunner =>
      refine .running (by simp [isRunner]) ?_ (by simp)
      split at step
      · exact Option.some.inj step ▸ onExit_quietly _
      · cases step
    · next isRunner =>
      refine .running (by simp [isRunner]) ?_ (by simp)
      split at step
      · exact Option.some.inj step ▸ onPipeClosed_quietly _
      · cases step
    · split at step
      · exact Option.some.inj step ▸ .connectionClosed
      · cases step
    · cases step

/-! ### What was done stays done -/

theorem Quietly.extends (quietly : Quietly before after) : before.trace <+: after.trace := by
  obtain ⟨new, isNew, _⟩ := quietly.trace
  exact ⟨new, isNew.symm⟩

theorem act_extends (serving : Serving) (new : List Action) :
    serving.trace <+: (serving.act new).trace := List.prefix_append _ _

theorem Reading.extends (reading : Reading system handler before after) :
    before.trace <+: after.trace := by
  cases reading with
  | quiet quietly => exact quietly.extends
  | opens plain => exact act_extends before [_]
  | spawns executable env prepared quietly =>
    exact prepared.extends.trans ((act_extends _ _).trans quietly.extends)

/-- **A step only adds to the trace.** -/
theorem step_extends {event : ServingEvent} {next : Serving}
    (step : serving.step system handler event = some next) : serving.trace <+: next.trace := by
  have entered : serving.trace <+: serving.finish.trace := act_extends serving [.finish]
  cases stepped_of_step step with
  | statDone result mode waits =>
    refine entered.trans ?_
    rcases handleOnStat_cases system handler serving.finish result mode with
      ⟨response, same⟩ | ⟨_, same⟩ | ⟨_, same⟩
    · rw [same]
      exact act_extends _ _
    · rw [same]
      exact act_extends _ [_]
    · rw [same]
      exact (readFile_reading system handler _).extends
  | scanDone result entries waits =>
    refine entered.trans ?_
    rcases dirOnScan_cases system handler serving.finish result entries with
      ⟨_, said, same, _⟩ | ⟨_, entry, _, verdicts, same, _⟩
    · rw [same]
      exact act_extends _ _
    · have read := (readFile_reading system handler { serving.finish.act verdicts with
        file := Path.join serving.finish.file entry.name.bytes }).extends
      rw [same]
      exact (act_extends serving.finish verdicts).trans read
  | openDone result waits =>
    refine entered.trans ?_
    rcases fileOnOpen_cases system serving.finish result with quietly | ⟨ready, offset, quietly, same⟩
    · exact quietly.extends
    · rw [same]
      exact quietly.extends.trans (act_extends ready [_])
  | readDone result data waits =>
    obtain ⟨ready, operation, quietly, same, _⟩ := fileOnRead_cases serving.finish result data
    rw [same]
    exact entered.trans (quietly.extends.trans (act_extends ready [_]))
  | closeDone waits => exact entered
  | running runs quietly other => exact quietly.extends
  | connectionClosed => exact List.prefix_refl _

/-! ### The request -/

theorem interrupt_request (runner : CGIRunner) :
    (serving.interrupt runner).request = serving.request := by
  unfold interrupt
  split <;> rfl

theorem closeRunner_request (runner : CGIRunner) :
    (serving.closeRunner runner).request = serving.request := by
  unfold closeRunner
  split <;> exact interrupt_request runner

theorem onPipeRead_request (runner : CGIRunner) (nread : Int) (data : Bytes) :
    (serving.onPipeRead runner nread data).request = serving.request := by
  unfold onPipeRead
  split
  · exact closeRunner_request runner
  · rfl

theorem pipe_request : (serving.pipe system).request = serving.request := by
  unfold pipe
  split <;> rfl

theorem spawn_request (runner : CGIRunner) :
    (serving.spawn system runner).request = serving.request := by
  unfold spawn
  split
  · rfl
  · split
    · exact closeRunner_request runner
    · rfl

theorem readFile_request : (serving.readFile system handler).request = serving.request := by
  unfold readFile
  split
  · unfold runCgi run
    exact (spawn_request _).trans pipe_request
  · rfl

theorem handleOnStat_request (result : Int) (mode : Nat) :
    (serving.handleOnStat system handler result mode).request = serving.request := by
  rcases handleOnStat_cases system handler serving result mode with
    ⟨response, same⟩ | ⟨_, same⟩ | ⟨_, same⟩
  · rw [same]
    rfl
  · rw [same]
    rfl
  · rw [same]
    exact readFile_request

theorem dirOnScan_request (result : Int) (entries : List Dirent) :
    (serving.dirOnScan system handler result entries).request = serving.request := by
  rcases dirOnScan_cases system handler serving result entries with
    ⟨_, said, same, _⟩ | ⟨_, entry, _, verdicts, same, _⟩
  · rw [same]
    rfl
  · rw [same]
    exact readFile_request

theorem fileOnOpen_request (result : Int) :
    (serving.fileOnOpen system result).request = serving.request := by
  unfold fileOnOpen
  split
  · rfl
  · split <;> rfl

/-- **A step does not change the request.** -/
theorem step_request {event : ServingEvent} {next : Serving}
    (stepped : serving.step system handler event = some next) :
    next.request = serving.request := by
  unfold Serving.step at stepped
  split at stepped
  · cases stepped
  · split at stepped
    · exact Option.some.inj stepped ▸ handleOnStat_request _ _
    · exact Option.some.inj stepped ▸ dirOnScan_request _ _
    · exact Option.some.inj stepped ▸ fileOnOpen_request _
    · obtain rfl := Option.some.inj stepped
      unfold fileOnRead
      split <;> rfl
    · exact Option.some.inj stepped ▸ rfl
    · obtain ⟨_, same⟩ := Option.ite_none_right_eq_some.mp stepped
      exact Option.some.inj same ▸ onPipeRead_request _ _ _
    · obtain ⟨_, same⟩ := Option.ite_none_right_eq_some.mp stepped
      exact Option.some.inj same ▸ closeRunner_request _
    · obtain ⟨_, same⟩ := Option.ite_none_right_eq_some.mp stepped
      exact Option.some.inj same ▸ rfl
    · obtain ⟨_, same⟩ := Option.ite_none_right_eq_some.mp stepped
      exact Option.some.inj same ▸ rfl
    · cases stepped

theorem handle_request (handler : FileHandler) (request : Request) :
    (handle handler request).request = request := by
  by_cases admitted : Admitted handler request
  · rw [handle_of_admitted admitted]
  · obtain ⟨trace, same, _⟩ := handle_of_not_admitted admitted
    rw [same]

end Serving

end GemCaps
