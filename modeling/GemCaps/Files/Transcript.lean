/-
**What the client sees of a request.**

The calls on the client, `send` and `close`, are the transcript of a request. Until a callback
answers, the transcript is empty; while a file is read it is the success header and the pieces read
so far; after that it is a complete response, and nothing that can still come adds to it
(`Progress`, one case for each phase). A script without a file to run ends the program before anything
is shown (`Aborted`). `run_response_iff`: a request that has come to rest without having started a
process has shown its client one header, a body only behind the success header, and one close, if and
only if every script that it came to had a file to run.
-/

import GemCaps.Files.Release

namespace GemCaps

open Transition

/-- A call on the client. -/
def Action.visible : Action → Bool
  | .send _ | .close => true
  | .validate _ _ | .setClientCloseCallback _ | .acquire _ | .release _ | .start _ | .finish
  | .spawn _ | .signal => false

/-- A header, a body only behind the success header, and one close. -/
def Response (calls : List Action) : Prop :=
  ∃ status metaText body,
    calls = .send (responseHeader status metaText) :: (body.map Action.send ++ [.close]) ∧
      (body ≠ [] → status = resSuccess)

namespace Serving

variable {system : System} {handler : FileHandler} {serving : Serving}

/-- The calls on the client so far. -/
def transcript (serving : Serving) : List Action := serving.trace.filter Action.visible

@[simp] theorem act_transcript (serving : Serving) (new : List Action) :
    (serving.act new).transcript = serving.transcript ++ new.filter Action.visible :=
  List.filter_append ..

@[simp] theorem finish_transcript (serving : Serving) :
    serving.finish.transcript = serving.transcript :=
  (act_transcript serving [.finish]).trans (List.append_nil _)

@[simp] theorem start_transcript (serving : Serving) (operation : Operation) :
    (serving.start operation).transcript = serving.transcript :=
  (act_transcript serving [.start operation]).trans (List.append_nil _)

/-- A header alone, and the close. -/
theorem response_header (status : Nat) (metaText : Bytes) :
    Response [.send (responseHeader status metaText), .close] :=
  ⟨status, metaText, [], rfl, fun some => absurd rfl some⟩

/-- The process is gone or was never there, and so is the pipe. -/
def Ended (runner : CGIRunner) : Prop :=
  runner.alive = false ∧ (runner.response = true → runner.closing = true)

/-- The phases of a request. -/
inductive Progress (system : System) (serving : Serving) : Prop where
  | waits (silent : serving.transcript = [])
      (pending : ∃ path, serving.pending = some (.stat path) ∨
        serving.pending = some (.scandir path) ∨ serving.pending = some (.openFile path))
      (runner : serving.runner = none)
  | reads (metaText : Bytes) (body : List Bytes)
      (shown : serving.transcript =
        .send (responseHeader resSuccess metaText) :: body.map Action.send)
      (pending : ∃ fd offset, serving.pending = some (.read fd offset))
      (runner : serving.runner = none)
  | answered (response : Response serving.transcript)
      (pending : serving.pending = none ∨ ∃ fd, serving.pending = some (.closeFile fd))
      (ended : ∀ runner ∈ serving.runner, Ended runner)
  | spawned (executor : Executor) (spawns : .spawn executor ∈ serving.trace)
      (succeeds : system.spawnResult = 0)

/-- `uv_spawn` has failed its assertion that there is a file. -/
structure Aborted (serving : Serving) : Prop where
  crashed : serving.crashed = true
  silent : serving.transcript = []

/-- A script that the step comes to has a file to run. -/
def Launched (system : System) (handler : FileHandler) (serving : Serving) : ServingEvent → Prop
  | .statDone result mode => serving.Fetches result mode →
      handler.isExecutable serving.file = true → system.programs.Launches serving.file
  | .scanDone result entries => 0 ≤ result →
      ∀ entry ∈ entries.find? (IsIndex handler serving.file ·),
        handler.isExecutable (Path.join serving.file entry.name.bytes) = true →
          system.programs.Launches (Path.join serving.file entry.name.bytes)
  | .openDone _ | .readDone _ _ | .closeDone | .pipeRead _ _ | .processExit | .pipeClosed
  | .connectionClosed => True

instance (serving : Serving) : DecidablePred (Launched system handler serving)
  | .statDone _ _ | .scanDone _ _ => inferInstanceAs (Decidable (_ → _))
  | .openDone _ | .readDone _ _ | .closeDone | .pipeRead _ _ | .processExit | .pipeClosed
  | .connectionClosed => .isTrue trivial

/-! ### The callbacks -/

theorem respond_progress (silent : serving.transcript = []) (pending : serving.pending = none)
    (runner : serving.runner = none) (status : Nat) (metaText : Bytes) :
    Progress system (serving.respond (responseHeader status metaText)) := by
  refine .answered ?_ (.inl pending) fun other isRunner => ?_
  · rw [respond, act_transcript, silent]
    exact response_header status metaText
  · rw [Option.mem_def, show (serving.respond _).runner = none from runner] at isRunner
    cases isRunner

/-- The pipe is not shown to the client. -/
theorem pipe_transcript (silent : serving.transcript = []) : (serving.pipe system).transcript = [] := by
  unfold pipe
  split
  · exact (act_transcript ..).trans (by rw [silent]; rfl)
  · exact silent

theorem pipe_pending (pending : serving.pending = none) : (serving.pipe system).pending = none := by
  unfold pipe
  split <;> exact pending

/-- **`CGIRunner::run`** with a file to run. -/
theorem run_progress {runner : CGIRunner} (hasFile : runner.executor.args ≠ [])
    (silent : serving.transcript = []) (pending : serving.pending = none)
    (isNew : runner.response = true ∧ runner.closing = false) (dead : runner.alive = false) :
    Progress system (serving.run system runner) := by
  have piped : (serving.pipe system).transcript = [] := pipe_transcript silent
  unfold Serving.run spawn
  rw [if_neg hasFile]
  by_cases failed : system.spawnResult ≠ 0
  · rw [if_pos failed, closeRunner, if_pos isNew, interrupt, dead]
    refine .answered ?_ (.inl (pipe_pending pending)) ?_
    · refine Eq.subst ?_ (response_header resErrorCgi (text "Could not run script"))
      show _ = List.filter _ (((serving.pipe system).trace ++ _) ++ _)
      rw [List.filter_append, List.filter_append]
      show _ = (serving.pipe system).transcript ++ _ ++ _
      rw [piped]
      rfl
    · rintro other isRunner
      obtain rfl := Option.some.inj isRunner
      exact ⟨rfl, fun _ => rfl⟩
  · rw [if_neg failed]
    refine .spawned runner.executor ?_ (not_not.mp failed)
    exact List.mem_append_right _ List.mem_cons_self

/-- **`read_file`**, of a script that has a file to run, or of any other file. -/
theorem readFile_progress (silent : serving.transcript = []) (pending : serving.pending = none)
    (runner : serving.runner = none)
    (launches : handler.isExecutable serving.file = true → system.programs.Launches serving.file) :
    Progress system (serving.readFile system handler) := by
  unfold readFile runCgi
  by_cases executable : handler.isExecutable serving.file = true
  · rw [if_pos executable]
    refine run_progress ?_ ((act_transcript ..).trans (by rw [silent]; rfl)) pending ⟨rfl, rfl⟩ rfl
    exact (args_ne_nil_iff _ _ _).mpr (launches executable)
  · rw [if_neg executable]
    exact .waits ((start_transcript ..).trans silent) ⟨_, .inr (.inr rfl)⟩ runner

/-- A script without a file to run. -/
theorem readFile_aborted (silent : serving.transcript = [])
    (executable : handler.isExecutable serving.file = true)
    (noFile : ¬ system.programs.Launches serving.file) :
    Aborted (serving.readFile system handler) := by
  have empty : ∀ env, (Executor.make system.programs serving.file env []).args = [] := fun env =>
    not_not.mp fun some => noFile ((args_ne_nil_iff _ _ _).mp some)
  unfold readFile runCgi
  rw [if_pos executable]
  unfold Serving.run spawn
  rw [if_pos (empty _)]
  refine ⟨rfl, ?_⟩
  show (Serving.pipe system _).transcript = []
  exact pipe_transcript ((act_transcript ..).trans (by rw [silent]; rfl))

/-- **`handle_on_stat`.** -/
theorem handleOnStat_progress (result : Int) (mode : Nat) (silent : serving.transcript = [])
    (pending : serving.pending = none) (runner : serving.runner = none)
    (launched : Launched system handler serving (.statDone result mode)) :
    Progress system (serving.handleOnStat system handler result mode) := by
  have responds : ∀ status metaText,
      Progress system (serving.respond (responseHeader status metaText)) :=
    respond_progress silent pending runner
  simp only [handleOnStat]
  split
  · exact responds resNotFound _
  split
  · split
    · exact responds resRedirectPerm _
    · exact .waits ((start_transcript ..).trans silent) ⟨_, .inr (.inl rfl)⟩ runner
  split
  · split
    · exact responds resRedirectPerm _
    · next succeeded noDir isRegular noSlash =>
      exact readFile_progress silent pending runner
        (launched ⟨not_not.mp succeeded, Bool.not_eq_true _ ▸ noDir, isRegular, noSlash⟩)
  · exact responds resNotFound _

theorem handleOnStat_aborted {result : Int} {mode : Nat} (silent : serving.transcript = [])
    (unlaunched : ¬ Launched system handler serving (.statDone result mode)) :
    Aborted (serving.handleOnStat system handler result mode) := by
  obtain ⟨⟨rfl, noDir, isRegular, noSlash⟩, executable, noFile⟩ :
      serving.Fetches result mode ∧ handler.isExecutable serving.file = true ∧
        ¬ system.programs.Launches serving.file := by
    simpa only [Launched, Classical.not_imp] using unlaunched
  have reads : serving.handleOnStat system handler 0 mode = serving.readFile system handler := by
    simp only [handleOnStat, noDir, isRegular, noSlash, ne_eq, not_true_eq_false,
      Bool.false_eq_true, if_false, if_true]
  rw [reads]
  exact readFile_aborted silent executable noFile

/-- The loop over the entries shows nothing. -/
theorem scan_hidden (file : Bytes) (entries : List Dirent) (folders children : List Bytes) :
    (scan handler file entries folders children).1.filter Action.visible = [] := by
  induction entries generalizing folders children with
  | nil => rfl
  | cons entry entries ih =>
    simp only [scan]
    split
    · split
      · rfl
      · exact ih _ _
    · exact ih _ _

theorem listDirectory_progress (folders children : List Bytes) (silent : serving.transcript = [])
    (pending : serving.pending = none) (runner : serving.runner = none) :
    Progress system (serving.listDirectory handler folders children) := by
  have ended : ∀ other ∈ serving.runner, Ended other := by simp [runner]
  unfold listDirectory
  split
  · refine .answered ?_ (.inl pending) ended
    rw [act_transcript, silent]
    exact ⟨resSuccess, text "text/gemini", [_], rfl, fun _ => rfl⟩
  · refine .answered ?_ (.inl pending) ended
    rw [act_transcript, silent]
    exact response_header resNotFound (text "File does not exist")

/-- **`dir_on_scan`.** -/
theorem dirOnScan_progress (result : Int) (entries : List Dirent) (silent : serving.transcript = [])
    (pending : serving.pending = none) (runner : serving.runner = none)
    (launched : Launched system handler serving (.scanDone result entries)) :
    Progress system (serving.dirOnScan system handler result entries) := by
  have scanned : (serving.act (scan handler serving.file entries [] []).1).transcript = [] := by
    rw [act_transcript, silent, scan_hidden, List.append_nil]
  unfold dirOnScan
  by_cases failed : result < 0
  · rw [if_pos failed]
    refine .answered ?_ (.inl pending) (by simp [show (serving.act _).runner = none from runner])
    rw [act_transcript, silent]
    exact response_header resGone (text "File could not be opened")
  · rw [if_neg failed]
    rcases scan_cases handler serving.file entries [] [] with
      ⟨entry, isFirst, ends, _⟩ | ⟨_, folders, children, ends⟩
    · simp only [ends]
      exact readFile_progress scanned pending runner (launched (Int.not_lt.mp failed) entry isFirst)
    · simp only [ends]
      exact listDirectory_progress _ _ scanned pending runner

theorem dirOnScan_aborted {result : Int} {entries : List Dirent} (silent : serving.transcript = [])
    (unlaunched : ¬ Launched system handler serving (.scanDone result entries)) :
    Aborted (serving.dirOnScan system handler result entries) := by
  have scanned : (serving.act (scan handler serving.file entries [] []).1).transcript = [] := by
    rw [act_transcript, silent, scan_hidden, List.append_nil]
  obtain ⟨succeeded, entry, isFirst, executable, noFile⟩ : 0 ≤ result ∧
      ∃ entry ∈ entries.find? (IsIndex handler serving.file ·),
        handler.isExecutable (Path.join serving.file entry.name.bytes) = true ∧
          ¬ system.programs.Launches (Path.join serving.file entry.name.bytes) := by
    simpa only [Launched, Classical.not_imp, not_forall, exists_prop] using unlaunched
  unfold dirOnScan
  rw [if_neg (Int.not_lt.mpr succeeded)]
  rcases scan_cases handler serving.file entries [] [] with ⟨first, found, ends, _⟩ | ⟨none, _⟩
  · obtain rfl := Option.some.inj (found.symm.trans isFirst)
    simp only [ends]
    exact readFile_aborted scanned executable noFile
  · rw [none] at isFirst
    cases isFirst

theorem fileOnOpen_progress (mimed : ∀ file, system.mimeType file ≠ none) (result : Int)
    (silent : serving.transcript = []) (pending : serving.pending = none)
    (runner : serving.runner = none) : Progress system (serving.fileOnOpen system result) := by
  simp only [fileOnOpen]
  split
  · exact respond_progress silent pending runner resGone _
  cases isMime : system.mimeType (cStr serving.file) with
  | none => exact absurd isMime (mimed _)
  | some mimeType =>
    refine .reads mimeType [] ?_ ⟨_, _, rfl⟩ runner
    simp only [start_transcript, act_transcript, List.map_nil]
    show List.filter _ (_ ++ _) ++ _ = _
    rw [List.filter_append]
    show serving.transcript ++ _ ++ _ = _
    rw [silent]
    rfl

/-- A piece that was read is shown behind the others; the end of the file is the end of the
response. -/
theorem fileOnRead_progress (result : Int) (data : Bytes) {metaText : Bytes} {body : List Bytes}
    (shown : serving.transcript =
      .send (responseHeader resSuccess metaText) :: body.map Action.send)
    (runner : serving.runner = none) : Progress system (serving.fileOnRead result data) := by
  simp only [fileOnRead]
  split
  · refine .answered ?_ (.inr ⟨_, rfl⟩) (by simp [start, act, runner])
    rw [start_transcript, act_transcript, shown]
    exact ⟨resSuccess, metaText, body, rfl, fun _ => rfl⟩
  · refine .reads metaText (body ++ [data.take result.toNat]) ?_ ⟨_, _, rfl⟩ runner
    rw [start_transcript]
    show (serving.act [_]).transcript = _
    rw [act_transcript, shown, List.map_append]
    rfl

/-! ### A whole run -/

/-- Nothing is shown behind a complete response. -/
theorem step_of_answered {event : ServingEvent} {next : Serving}
    (response : Response serving.transcript)
    (pending : serving.pending = none ∨ ∃ fd, serving.pending = some (.closeFile fd))
    (ended : ∀ runner ∈ serving.runner, Ended runner)
    (step : serving.step system handler event = some next) : Progress system next := by
  unfold Serving.step at step
  split at step
  · cases step
  split at step
  · next waits => simp [waits] at pending
  · next waits => simp [waits] at pending
  · next waits => simp [waits] at pending
  · next waits => simp [waits] at pending
  · obtain rfl := Option.some.inj step
    exact .answered ((finish_transcript serving).symm ▸ response) (.inl rfl) ended
  · next runner isRunner =>
    obtain ⟨⟨open_, notClosing⟩, _⟩ := Option.ite_none_right_eq_some.mp step
    exact absurd ((ended runner isRunner).2 open_) (by simp [notClosing])
  · next runner isRunner =>
    obtain ⟨alive, _⟩ := Option.ite_none_right_eq_some.mp step
    exact absurd (ended runner isRunner).1 (by simp [alive])
  · next runner isRunner =>
    obtain ⟨_, same⟩ := Option.ite_none_right_eq_some.mp step
    obtain rfl := Option.some.inj same
    refine .answered response pending fun other isOther => ?_
    obtain rfl := Option.some.inj isOther
    exact ⟨(ended runner isRunner).1, fun open_ => nomatch open_⟩
  · obtain ⟨_, same⟩ := Option.ite_none_right_eq_some.mp step
    obtain rfl := Option.some.inj same
    exact .answered response pending ended
  · cases step

/-- **One step.** -/
theorem Progress.step (mimed : ∀ file, system.mimeType file ≠ none) {event : ServingEvent}
    {next : Serving} (progress : Progress system serving)
    (launched : Launched system handler serving event)
    (step : serving.step system handler event = some next) : Progress system next := by
  cases progress with
  | waits silent pending runner =>
    have hidden : serving.finish.transcript = [] := (finish_transcript serving).trans silent
    cases stepped_of_step step with
    | statDone result mode waits =>
      exact handleOnStat_progress result mode hidden rfl runner launched
    | scanDone result entries waits =>
      exact dirOnScan_progress result entries hidden rfl runner launched
    | openDone result waits => exact fileOnOpen_progress mimed result hidden rfl runner
    | readDone result data waits => simp [waits] at pending
    | closeDone waits => simp [waits] at pending
    | running runs _ _ => exact absurd runner runs
    | connectionClosed => exact .waits silent pending runner
  | reads metaText body shown pending runner =>
    obtain ⟨fd, offset, isRead⟩ := pending
    cases stepped_of_step step with
    | readDone result data waits =>
      exact fileOnRead_progress result data ((finish_transcript serving).trans shown) runner
    | statDone _ _ waits | scanDone _ _ waits | openDone _ waits | closeDone waits =>
      simp [isRead] at waits
    | running runs _ _ => exact absurd runner runs
    | connectionClosed => exact .reads metaText body shown ⟨fd, offset, isRead⟩ runner
  | answered response pending ended => exact step_of_answered response pending ended step
  | spawned executor spawns succeeds =>
    exact .spawned executor ((step_extends step).subset spawns) succeeds

/-- A step that comes to a script without a file. -/
theorem Progress.aborts {event : ServingEvent} {next : Serving} (progress : Progress system serving)
    (unspawned : system.spawnResult = 0 → ∀ executor, Action.spawn executor ∉ serving.trace)
    (unlaunched : ¬ Launched system handler serving event)
    (step : serving.step system handler event = some next) : Aborted next := by
  have shows : (∃ path, serving.pending = some (.stat path) ∨ serving.pending = some (.scandir path)) →
      serving.finish.transcript = [] := by
    rintro ⟨path, looks⟩
    cases progress with
    | waits silent _ _ => exact (finish_transcript serving).trans silent
    | reads _ _ _ pending _ => rcases looks with looks | looks <;> simp [looks] at pending
    | answered _ pending _ => rcases looks with looks | looks <;> simp [looks] at pending
    | spawned executor spawns succeeds => exact absurd spawns (unspawned succeeds executor)
  cases stepped_of_step step with
  | statDone result mode waits => exact handleOnStat_aborted (shows ⟨_, .inl waits⟩) unlaunched
  | scanDone result entries waits => exact dirOnScan_aborted (shows ⟨_, .inr waits⟩) unlaunched
  | openDone _ _ | readDone _ _ _ | closeDone _ | connectionClosed => exact absurd trivial unlaunched
  | running _ _ other =>
    cases event with
    | statDone _ _ => exact absurd rfl (other.1 _ _)
    | scanDone _ _ => exact absurd rfl (other.2 _ _)
    | openDone _ | readDone _ _ | closeDone | pipeRead _ _ | processExit | pipeClosed
    | connectionClosed => exact absurd trivial unlaunched

theorem handle_progress (handler : FileHandler) (request : Request) :
    Progress system (handle handler request) := by
  by_cases admitted : Admitted handler request
  · rw [handle_of_admitted admitted]
    exact .waits rfl ⟨_, .inl rfl⟩ rfl
  · obtain ⟨trace, same, isTrace⟩ := handle_of_not_admitted admitted
    rw [same]
    refine .answered ?_ (.inl rfl) (by simp)
    rcases isTrace with rfl | rfl
    · exact response_header resRedirectPerm _
    · exact response_header resNotFound (text "Illegal File")

/-- The phase of a request in every state of a run that came to no script without a file. -/
theorem run_phase (mimed : ∀ file, system.mimeType file ≠ none) {request : Request}
    {events : List ServingEvent} {final : Serving}
    (ran : Transition.run (step system handler) (handle handler request) events = some final)
    (launched : Along (step system handler) (Launched system handler) (handle handler request) events) :
    Progress system final :=
  run_invariant (Progress system)
    (fun _ _ _ progress launched stepped => progress.step mimed launched stepped)
    (handle_progress handler request) launched ran

/-- A request at rest that has started no process is answered. -/
theorem Progress.response (progress : Progress system serving)
    (unspawned : system.spawnResult = 0 → ∀ executor, Action.spawn executor ∉ serving.trace)
    (rests : serving.pending = none) : Response serving.transcript := by
  cases progress with
  | waits _ pending _ => simp [rests] at pending
  | reads _ _ _ pending _ => simp [rests] at pending
  | answered response _ _ => exact response
  | spawned executor spawns succeeds => exact absurd spawns (unspawned succeeds executor)

/-- A script without a file to run leaves the client without any response. -/
theorem run_aborted (mimed : ∀ file, system.mimeType file ≠ none) {request : Request}
    {events : List ServingEvent} {final : Serving}
    (ran : Transition.run (step system handler) (handle handler request) events = some final)
    (unspawned : system.spawnResult = 0 → ∀ executor, Action.spawn executor ∉ final.trace)
    (unlaunched : ¬ Along (step system handler) (Launched system handler) (handle handler request)
      events) : Aborted final := by
  -- the last step of the run is the first one that comes to such a script
  induction events using List.reverseRecOn generalizing final with
  | nil => exact absurd trivial unlaunched
  | append_singleton past event ih =>
    obtain ⟨middle, before, stepped⟩ := (run_concat_eq_some _).mp ran
    have earlier : system.spawnResult = 0 → ∀ executor, Action.spawn executor ∉ middle.trace :=
      fun succeeds executor spawns =>
        unspawned succeeds executor ((step_extends stepped).subset spawns)
    by_cases launched : Along (step system handler) (Launched system handler)
      (handle handler request) past
    · have here : ¬ Launched system handler middle event := fun here =>
        unlaunched (along_concat _ launched before here)
      exact (run_phase mimed before launched).aborts earlier here stepped
    · rw [step_of_crashed (ih before earlier launched).crashed] at stepped
      cases stepped

/-- **The response of a request.** When no process was started and no callback is pending, the client
has seen one header, a body only behind the success header, and one close, if and only if every script
that the request came to had a file to run. -/
theorem run_response_iff (mimed : ∀ file, system.mimeType file ≠ none) {request : Request}
    {events : List ServingEvent} {final : Serving}
    (ran : Transition.run (step system handler) (handle handler request) events = some final)
    (unspawned : system.spawnResult = 0 → ∀ executor, Action.spawn executor ∉ final.trace)
    (rests : final.pending = none) :
    Response final.transcript ↔
      Along (step system handler) (Launched system handler) (handle handler request) events := by
  constructor
  · intro response
    by_contra unlaunched
    obtain ⟨status, metaText, body, shown, _⟩ := response
    rw [(run_aborted mimed ran unspawned unlaunched).silent] at shown
    cases shown
  · intro launched
    exact (run_phase mimed ran launched).response unspawned rests

/-- A regular file is read in two pieces. -/
def readEvents : List ServingEvent :=
  [.statDone 0 0o100000, .openDone 3, .readDone 2 (text "hi"), .readDone 1 (text "!i"),
    .readDone 0 [], .closeDone]

theorem run_response_file : ∃ final,
    Transition.run (step { plainSystem with spawnResult := -2 } listingHandler)
      (handle listingHandler { path := text "/a" }) readEvents = some final ∧
    Response final.transcript :=
  ⟨_, rfl, (run_response_iff (fun _ => Option.some_ne_none _)
    (show Transition.run (step { plainSystem with spawnResult := -2 } listingHandler)
      (handle listingHandler { path := text "/a" }) readEvents = some _ from rfl)
    (fun succeeds => absurd succeeds (by decide)) rfl).mpr (by decide)⟩

/-- Files that end in `.cgi` are scripts. -/
def scriptHandler : FileHandler := { listingHandler with cgiTypes := [text ".cgi"] }

/-- A path with a NUL in front of the type of a script: the file in front of the NUL is there. -/
def cutScript : Request :=
  ⟨text "gemini://h/a\x00.cgi\r\n", text "h", 1965, text "/a\x00.cgi", []⟩

/-- The script has no file to run, so the program aborts and the client is not answered. -/
theorem run_response_cutScript :
    parseHost { header := cutScript.header } = some cutScript ∧ ∃ final,
      Transition.run (step plainSystem scriptHandler) (handle scriptHandler cutScript)
        [.statDone 0 0o100000] = some final ∧
      (∀ executor, Action.spawn executor ∉ final.trace) ∧ final.pending = none ∧
      ¬ Response final.transcript := by
  refine ⟨by decide, _, rfl, fun executor spawns => ?_, rfl, ?_⟩
  · have others : ∀ action ∈ (handleOnStat plainSystem scriptHandler
        (handle scriptHandler cutScript).finish 0 0o100000).trace,
        (action matches Action.spawn _) = false := by decide
    exact absurd (others _ spawns) (by simp)
  · rintro ⟨status, metaText, body, shown, _⟩
    exact absurd (show ([] : List Action) = _ from shown) (List.cons_ne_nil _ _).symm

end Serving

end GemCaps
