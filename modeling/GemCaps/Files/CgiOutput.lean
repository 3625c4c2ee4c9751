/-
**What a CGI script writes, and when the connection is closed.**

The pipe of a script is read in pieces that are sent as they come, and two callbacks close the
connection: the end of the pipe, and the exit of the script. The exit does not wait for the pipe.
`run_output_iff`: everything the script has written was sent before each `close` if and only if libuv
reports the exit only after it has delivered all of it.
-/

import GemCaps.Files.Transcript
import GemCaps.Library.Trace

namespace GemCaps

open Transition

/-- The data that an action sends. -/
def Action.data : Action → Bytes
  | .send data => data
  | .validate _ _ | .close | .setClientCloseCallback _ | .acquire _ | .release _ | .start _
  | .finish | .spawn _ | .signal => []

/-- What has been sent. -/
def sentBytes (trace : List Action) : Bytes := trace.flatMap Action.data

/-- All the output is sent before each `close`. -/
def Complete (output : Bytes) (trace : List Action) : Prop :=
  Trace.Preceded (fun earlier action => action = .close → sentBytes earlier = output) trace

theorem sentBytes_append (trace new : List Action) :
    sentBytes (trace ++ new) = sentBytes trace ++ sentBytes new := List.flatMap_append ..

/-- Nothing is closed. -/
theorem complete_of_silent {output : Bytes} {trace : List Action} (silent : .close ∉ trace) :
    Complete output trace := by
  rintro before action after same rfl
  exact absurd (by simp [same]) silent

/-- **What is closed without sending more is complete exactly when everything was sent before.** -/
theorem complete_append_iff {output : Bytes} {trace new : List Action}
    (mute : ∀ action ∈ new, action.data = []) (closes : .close ∈ new) :
    Complete output (trace ++ new) ↔ Complete output trace ∧ sentBytes trace = output := by
  have earlier : ∀ before after action, new = before ++ action :: after →
      sentBytes (trace ++ before) = sentBytes trace := by
    intro before after action same
    have silent : sentBytes before = [] :=
      List.flatMap_eq_nil_iff.mpr fun other inside => mute other (by simp [same, inside])
    rw [sentBytes_append, silent, List.append_nil]
  refine (Trace.preceded_append_iff trace new).trans
    (and_congr_right fun _ => ⟨fun added => ?_, ?_⟩)
  · obtain ⟨before, after, same⟩ := List.append_of_mem closes
    exact (earlier before after .close same) ▸ added before .close after same rfl
  · rintro all before action after same rfl
    exact (earlier before after .close same).trans all

namespace Serving

variable {system : System} {handler : FileHandler} {serving next : Serving} {output : Bytes}
  {past : List ServingEvent}

/-- What libuv reads from the pipe in a callback. -/
def piece : ServingEvent → Bytes
  | .pipeRead nread data => data.take nread.toNat
  | .statDone _ _ | .scanDone _ _ | .openDone _ | .readDone _ _ | .closeDone | .processExit
  | .pipeClosed | .connectionClosed => []

/-- What libuv has delivered from the pipe. -/
def delivered (events : List ServingEvent) : Bytes := events.flatMap piece

/-- The pipe hands over the output of the script in order, in pieces of at most 1024 bytes, and ends
behind it. -/
def Hands (output : Bytes) (past : List ServingEvent) : ServingEvent → Prop
  | .pipeRead nread data =>
    if nread < 0 then delivered past = output
    else nread ≤ 1024 ∧ (data.take nread.toNat).length = nread.toNat ∧
      delivered past ++ data.take nread.toNat <+: output
  | .statDone _ _ | .scanDone _ _ | .openDone _ | .readDone _ _ | .closeDone | .processExit
  | .pipeClosed | .connectionClosed => True

/-- The exit of the script is reported after all its output was delivered. -/
def Exits (output : Bytes) (past : List ServingEvent) : ServingEvent → Prop
  | .processExit => delivered past = output
  | .statDone _ _ | .scanDone _ _ | .openDone _ | .readDone _ _ | .closeDone | .pipeRead _ _
  | .pipeClosed | .connectionClosed => True

instance (past : List ServingEvent) (event : ServingEvent) : Decidable (Hands output past event) := by
  cases event <;> unfold Hands <;> infer_instance

instance (past : List ServingEvent) (event : ServingEvent) : Decidable (Exits output past event) := by
  cases event <;> unfold Exits <;> infer_instance

/-- What the callbacks of a run deliver is the output of the script. -/
def Piped (output : Bytes) (events : List ServingEvent) : Prop := Trace.Preceded (Hands output) events

/-- No exit overtakes the output. -/
def ExitsLate (output : Bytes) (events : List ServingEvent) : Prop :=
  Trace.Preceded (Exits output) events

instance (events : List ServingEvent) : Decidable (Piped output events) :=
  inferInstanceAs (Decidable (Trace.Preceded _ _))

instance (events : List ServingEvent) : Decidable (ExitsLate output events) :=
  inferInstanceAs (Decidable (Trace.Preceded _ _))

/-- No script was started. -/
def Unspawned (serving : Serving) : Prop := ∀ executor, Action.spawn executor ∉ serving.trace

/-- The phases of a request on the way to a script, after these callbacks. -/
inductive Scripting (output : Bytes) (past : List ServingEvent) (serving : Serving) : Prop where
  | waits (silent : serving.transcript = []) (unspawned : Unspawned serving)
      (pending : ∃ path, serving.pending = some (.stat path) ∨
        serving.pending = some (.scandir path))
      (runner : serving.runner = none)
      (undelivered : delivered past = []) (late : ExitsLate output past)
  | elsewhere (unspawned : Unspawned serving)
      (pending : ∀ path, serving.pending ≠ some (.stat path) ∧
        serving.pending ≠ some (.scandir path))
      (runner : serving.runner = none ∨ serving.crashed = true)
  | scripted (sent : sentBytes serving.trace = delivered past)
      (complete : Complete output serving.trace ↔ ExitsLate output past)
      (spawned : ∃ executor, .spawn executor ∈ serving.trace) (pending : serving.pending = none)

theorem delivered_concat (past : List ServingEvent) (event : ServingEvent) :
    delivered (past ++ [event]) = delivered past ++ piece event := by
  rw [delivered, List.flatMap_append, List.flatMap_singleton]
  rfl

theorem exitsLate_concat_iff (past : List ServingEvent) (event : ServingEvent) :
    ExitsLate output (past ++ [event]) ↔ ExitsLate output past ∧ Exits output past event :=
  Trace.preceded_concat_iff past event

/-- Only an exit can come too early. -/
theorem exitsLate_concat_of_exits {event : ServingEvent} (exits : Exits output past event) :
    ExitsLate output past ↔ ExitsLate output (past ++ [event]) :=
  ((exitsLate_concat_iff past event).trans (and_iff_left exits)).symm

theorem Unspawned.act (unspawned : Unspawned serving) (new : List Action)
    (other : ∀ executor, Action.spawn executor ∉ new) : Unspawned (serving.act new) := by
  intro executor inside
  exact (List.mem_append.mp inside).elim (unspawned executor) (other executor)

theorem Unspawned.finish (unspawned : Unspawned serving) : Unspawned serving.finish :=
  unspawned.act [.finish] (by simp)

theorem Unspawned.start (unspawned : Unspawned serving) (operation : Operation) :
    Unspawned (serving.start operation) := unspawned.act [.start operation] (by simp)

theorem not_mem_close_of_transcript (silent : serving.transcript = []) :
    .close ∉ serving.trace := by
  intro inside
  have shown : .close ∈ serving.transcript := List.mem_filter.mpr ⟨inside, rfl⟩
  simp [silent] at shown

/-- A trace that shows nothing has sent nothing. -/
theorem sentBytes_of_transcript (silent : serving.transcript = []) : sentBytes serving.trace = [] := by
  refine List.flatMap_eq_nil_iff.mpr fun action inside => ?_
  have hidden : action.visible ≠ true := fun visible => by
    have shown : action ∈ serving.transcript := List.mem_filter.mpr ⟨inside, visible⟩
    simp [silent] at shown
  cases action with
  | send data => exact absurd rfl hidden
  | validate _ _ | close | setClientCloseCallback _ | acquire _ | release _ | start _ | finish
  | spawn _ | signal => rfl

/-- An answer without a script. -/
theorem elsewhere_act {new : List Action} (unspawned : Unspawned serving)
    (other : ∀ executor, Action.spawn executor ∉ new) (pending : serving.pending = none)
    (runner : serving.runner = none) : Scripting output past (serving.act new) :=
  .elsewhere (unspawned.act _ other) (fun _ => by simp [act, pending]) (.inl runner)

/-! ### The callbacks -/

/-- A request in a callback: nothing was shown, no script was started, and nothing was delivered. -/
structure Fresh (output : Bytes) (past : List ServingEvent) (serving : Serving) : Prop where
  silent : serving.transcript = []
  unspawned : Unspawned serving
  pending : serving.pending = none
  runner : serving.runner = none
  undelivered : delivered past = []
  late : ExitsLate output past

/-- **`CGIRunner::run`** starts the script, where there is a program to start. -/
theorem run_scripting (succeeds : system.spawnResult = 0) (runner : CGIRunner)
    (silent : serving.transcript = []) (unspawned : Unspawned serving)
    (pending : serving.pending = none) (undelivered : delivered past = [])
    (late : ExitsLate output past) : Scripting output past (serving.run system runner) := by
  have piped : (serving.pipe system).transcript = [] ∧ Unspawned (serving.pipe system) ∧
      (serving.pipe system).pending = none := by
    unfold pipe
    split
    · exact ⟨(act_transcript ..).trans (by rw [silent]; rfl), unspawned.act _ (by simp), pending⟩
    · exact ⟨silent, unspawned, pending⟩
  obtain ⟨silentStill, unspawnedStill, pendingStill⟩ := piped
  unfold Serving.run spawn
  by_cases noFile : runner.executor.args = []
  · rw [if_pos noFile]
    exact .elsewhere unspawnedStill (by simp [pendingStill]) (.inr rfl)
  · rw [if_neg noFile, if_neg (not_not.mpr succeeds)]
    have shown : ((serving.pipe system).act [.spawn runner.executor]).transcript = [] :=
      (act_transcript ..).trans (by rw [silentStill]; rfl)
    have spawned : Action.spawn runner.executor ∈
        ((serving.pipe system).act [.spawn runner.executor]).trace :=
      List.mem_append_right _ List.mem_cons_self
    refine .scripted ?_ (iff_of_true ?_ late) ⟨runner.executor, spawned⟩ pendingStill
    · exact (sentBytes_of_transcript shown).trans undelivered.symm
    · exact complete_of_silent (not_mem_close_of_transcript shown)

/-- **`read_file`** starts the script, or opens the file. -/
theorem readFile_scripting (succeeds : system.spawnResult = 0) (fresh : Fresh output past serving) :
    Scripting output past (serving.readFile system handler) := by
  unfold readFile runCgi
  by_cases executable : handler.isExecutable serving.file = true
  · rw [if_pos executable]
    refine run_scripting succeeds _ ?_ (fresh.unspawned.act _ (by simp)) fresh.pending
      fresh.undelivered fresh.late
    exact (act_transcript ..).trans (by rw [fresh.silent]; rfl)
  · rw [if_neg executable]
    exact .elsewhere (fresh.unspawned.start _) (fun _ => by simp [start]) (.inl fresh.runner)

/-- **`handle_on_stat`.** -/
theorem handleOnStat_scripting (succeeds : system.spawnResult = 0) (result : Int) (mode : Nat)
    (fresh : Fresh output past serving) :
    Scripting output past (serving.handleOnStat system handler result mode) := by
  rcases handleOnStat_cases system handler serving result mode with
    ⟨response, same⟩ | ⟨_, same⟩ | ⟨_, same⟩
  · rw [same]
    exact elsewhere_act fresh.unspawned (by simp) fresh.pending fresh.runner
  · rw [same]
    exact .waits ((start_transcript ..).trans fresh.silent) (fresh.unspawned.start _) ⟨_, .inr rfl⟩
      fresh.runner fresh.undelivered fresh.late
  · rw [same]
    exact readFile_scripting succeeds fresh

/-- **`dir_on_scan`.** -/
theorem dirOnScan_scripting (succeeds : system.spawnResult = 0) (result : Int)
    (entries : List Dirent) (fresh : Fresh output past serving) :
    Scripting output past (serving.dirOnScan system handler result entries) := by
  have scanned : (serving.act (scan handler serving.file entries [] []).1).transcript = [] := by
    rw [act_transcript, fresh.silent, scan_hidden, List.append_nil]
  have unspawnedStill : Unspawned (serving.act (scan handler serving.file entries [] []).1) := by
    refine fresh.unspawned.act _ fun executor inside => ?_
    cases scan_actions handler serving.file entries [] [] _ inside
  simp only [dirOnScan]
  split
  · exact elsewhere_act fresh.unspawned (by simp) fresh.pending fresh.runner
  split
  · exact readFile_scripting succeeds
      ⟨scanned, unspawnedStill, fresh.pending, fresh.runner, fresh.undelivered, fresh.late⟩
  · obtain ⟨said, same, spoken⟩ := listDirectory_releases handler
      (serving.act (scan handler serving.file entries [] []).1) _ _
    rw [same]
    refine elsewhere_act unspawnedStill (fun executor inside => ?_) fresh.pending fresh.runner
    rcases List.mem_append.mp inside with isSaid | isRelease
    · cases spoken _ isSaid
    · simp at isRelease

/-- **`file_on_open`.** -/
theorem fileOnOpen_scripting (result : Int) (unspawned : Unspawned serving)
    (pending : serving.pending = none) (runner : serving.runner = none) :
    Scripting output past (serving.fileOnOpen system result) := by
  simp only [fileOnOpen]
  split
  · exact elsewhere_act unspawned (by simp) pending runner
  · have opened : Unspawned (serving.act [.acquire .descriptor, .acquire .buffer]) :=
      unspawned.act _ (by simp)
    cases system.mimeType (cStr serving.file) with
    | none => exact .elsewhere opened (fun _ => by simp [act, pending]) (.inl runner)
    | some mimeType =>
      refine .elsewhere (Unspawned.start ?_ _) (fun _ => by simp [start]) (.inl runner)
      exact opened.act _ (by simp)

/-- **`file_on_read`.** -/
theorem fileOnRead_scripting (result : Int) (data : Bytes) (unspawned : Unspawned serving)
    (runner : serving.runner = none) :
    Scripting output past (serving.fileOnRead result data) := by
  simp only [fileOnRead]
  split
  · exact .elsewhere ((unspawned.act _ (by simp)).start _) (fun _ => by simp [start]) (.inl runner)
  · exact .elsewhere (Unspawned.start (unspawned.act [_] (by simp)) _) (fun _ => by simp [start])
      (.inl runner)

/-- `CGIRunner::close` closes the connection, and sends nothing. -/
theorem closeRunner_trace (serving : Serving) (runner : CGIRunner) :
    ∃ new, (serving.closeRunner runner).trace = serving.trace ++ new ∧ .close ∈ new ∧
      ∀ action ∈ new, action.data = [] := by
  have interrupted : ∃ signals, (serving.interrupt runner).trace = serving.trace ++ signals ∧
      ∀ action ∈ signals, action.data = [] := by
    unfold interrupt
    split
    · exact ⟨[.signal], rfl, by simp [Action.data]⟩
    · exact ⟨[], (List.append_nil _).symm, by simp⟩
  obtain ⟨signals, same, mute⟩ := interrupted
  unfold closeRunner
  split
  · refine ⟨signals ++ [.close, .release .pipeRead], ?_, by simp, ?_⟩
    · show (serving.interrupt runner).trace ++ _ = _
      rw [same, List.append_assoc]
    · exact List.forall_mem_append.mpr ⟨mute, by simp [Action.data]⟩
  · refine ⟨signals ++ [.close], ?_, by simp, ?_⟩
    · show (serving.interrupt runner).trace ++ _ = _
      rw [same, List.append_assoc]
    · exact List.forall_mem_append.mpr ⟨mute, by simp [Action.data]⟩

/-- **What `CGIRunner::close` does to a script**: the output is complete exactly when it was before, and
all of it was delivered. -/
theorem closeRunner_complete (runner : CGIRunner) (sent : sentBytes serving.trace = delivered past) :
    sentBytes (serving.closeRunner runner).trace = delivered past ∧
      (Complete output (serving.closeRunner runner).trace ↔
        Complete output serving.trace ∧ delivered past = output) := by
  obtain ⟨new, same, closes, mute⟩ := serving.closeRunner_trace runner
  have nothing : sentBytes new = [] := List.flatMap_eq_nil_iff.mpr mute
  rw [same, sentBytes_append, nothing, List.append_nil, complete_append_iff mute closes, sent]
  exact ⟨rfl, Iff.rfl⟩

theorem closeRunner_pending (runner : CGIRunner) :
    (serving.closeRunner runner).pending = serving.pending := (closeRunner_quietly runner).pending

/-- **`CGIRunner::__on_read`** sends what was delivered, and closes behind the end of the pipe. -/
theorem onPipeRead_complete (runner : CGIRunner) (nread : Int) (data : Bytes)
    (sent : sentBytes serving.trace = delivered past)
    (complete : Complete output serving.trace ↔ ExitsLate output past)
    (hands : Hands output past (.pipeRead nread data)) :
    sentBytes (serving.onPipeRead runner nread data).trace =
        delivered (past ++ [.pipeRead nread data]) ∧
      (Complete output (serving.onPipeRead runner nread data).trace ↔
        ExitsLate output (past ++ [.pipeRead nread data])) := by
  have late : ExitsLate output past ↔ ExitsLate output (past ++ [.pipeRead nread data]) :=
    exitsLate_concat_of_exits trivial
  rw [delivered_concat, ← late, ← complete, onPipeRead]
  by_cases ended : nread < 0
  · have nothing : piece (.pipeRead nread data) = [] := by
      rw [piece, Int.toNat_of_nonpos (by omega), List.take_zero]
    have all : delivered past = output := by simpa [Hands, ended] using hands
    obtain ⟨sentStill, closed⟩ := @closeRunner_complete _ output past runner sent
    rw [if_pos ended, nothing, List.append_nil, closed, and_iff_left all]
    exact ⟨sentStill, Iff.rfl⟩
  · rw [if_neg ended]
    refine ⟨?_, fun whole => ?_, fun whole => whole.append (by simp)⟩
    · show sentBytes (serving.trace ++ [_]) = _
      rw [sentBytes_append, sent]
      exact congrArg _ (List.append_nil _)
    · exact whole.of_isPrefix (List.prefix_append _ _)

/-- **`CGIRunner::onExit`** closes at once. -/
theorem onExit_complete (runner : CGIRunner) (sent : sentBytes serving.trace = delivered past)
    (complete : Complete output serving.trace ↔ ExitsLate output past) :
    sentBytes (serving.onExit runner).trace = delivered (past ++ [.processExit]) ∧
      (Complete output (serving.onExit runner).trace ↔ ExitsLate output (past ++ [.processExit])) := by
  obtain ⟨sentStill, closed⟩ :=
    @closeRunner_complete _ output past { runner with alive := false } sent
  rw [delivered_concat, exitsLate_concat_iff, ← complete]
  exact ⟨sentStill.trans (List.append_nil _).symm, closed⟩

/-! ### A whole run -/

/-- **The callbacks of a running script.** -/
theorem step_of_scripted {event : ServingEvent} (sent : sentBytes serving.trace = delivered past)
    (complete : Complete output serving.trace ↔ ExitsLate output past)
    (spawned : ∃ executor, .spawn executor ∈ serving.trace) (pending : serving.pending = none)
    (hands : Hands output past event)
    (stepped : serving.step system handler event = some next) :
    Scripting output (past ++ [event]) next := by
  have spawnedStill : ∃ executor, .spawn executor ∈ next.trace :=
    spawned.imp fun _ inside => (step_extends stepped).subset inside
  unfold Serving.step at stepped
  split at stepped
  · cases stepped
  split at stepped
  case h_1 waits | h_2 waits | h_3 waits | h_4 waits | h_5 waits => simp [pending] at waits
  case h_6 nread data runner _ =>
    obtain ⟨_, same⟩ := Option.ite_none_right_eq_some.mp stepped
    obtain rfl := Option.some.inj same
    obtain ⟨sentStill, completeStill⟩ := onPipeRead_complete runner nread data sent complete hands
    exact .scripted sentStill completeStill spawnedStill
      ((onPipeRead_quietly runner nread data).pending.trans pending)
  case h_7 runner _ =>
    obtain ⟨_, same⟩ := Option.ite_none_right_eq_some.mp stepped
    obtain rfl := Option.some.inj same
    obtain ⟨sentStill, completeStill⟩ := onExit_complete runner sent complete
    exact .scripted sentStill completeStill spawnedStill ((closeRunner_pending _).trans pending)
  case h_8 | h_9 =>
    -- the pipe has closed, or the connection has: nothing is sent or closed
    obtain ⟨_, same⟩ := Option.ite_none_right_eq_some.mp stepped
    obtain rfl := Option.some.inj same
    refine .scripted ?_ ?_ spawnedStill pending
    · rw [delivered_concat]
      exact sent.trans (List.append_nil _).symm
    · exact complete.trans (exitsLate_concat_of_exits trivial)
  case h_10 => cases stepped

/-- **One step.** -/
theorem Scripting.step (succeeds : system.spawnResult = 0) {event : ServingEvent}
    (scripting : Scripting output past serving) (hands : Hands output past event)
    (stepped : serving.step system handler event = some next) :
    Scripting output (past ++ [event]) next := by
  cases scripting with
  | waits silent unspawned pending runner undelivered late =>
    have fresh : piece event = [] → Exits output past event →
        Fresh output (past ++ [event]) serving.finish := fun none exits =>
      ⟨(finish_transcript serving).trans silent, unspawned.finish, rfl, runner, by
        rw [delivered_concat, undelivered, none, List.append_nil],
        (exitsLate_concat_of_exits exits).mp late⟩
    cases stepped_of_step stepped with
    | statDone result mode waits =>
      exact handleOnStat_scripting succeeds result mode (fresh rfl trivial)
    | scanDone result entries waits =>
      exact dirOnScan_scripting succeeds result entries (fresh rfl trivial)
    | openDone _ waits | readDone _ _ waits | closeDone waits => simp [waits] at pending
    | running runs _ _ => exact absurd runner runs
    | connectionClosed =>
      have still := fresh rfl trivial
      exact .waits silent unspawned pending runner still.undelivered still.late
  | elsewhere unspawned pending runner =>
    have alive : serving.crashed ≠ true := fun crashed => by
      simp [step_of_crashed crashed] at stepped
    have noRunner : serving.runner = none := runner.resolve_right alive
    cases stepped_of_step stepped with
    | statDone _ _ waits | scanDone _ _ waits => simp [waits] at pending
    | openDone result waits => exact fileOnOpen_scripting result unspawned.finish rfl noRunner
    | readDone result data waits => exact fileOnRead_scripting result data unspawned.finish noRunner
    | closeDone waits =>
      exact .elsewhere unspawned.finish (fun _ => by simp [finish]) (.inl noRunner)
    | running runs _ _ => exact absurd noRunner runs
    | connectionClosed => exact .elsewhere unspawned pending runner
  | scripted sent complete spawned pending =>
    exact step_of_scripted sent complete spawned pending hands stepped

theorem handle_scripting (handler : FileHandler) (request : Request) :
    Scripting output [] (handle handler request) := by
  by_cases admitted : Admitted handler request
  · rw [handle_of_admitted admitted]
    exact .waits rfl (by simp [Unspawned]) ⟨_, .inl rfl⟩ rfl rfl Trace.preceded_nil
  · obtain ⟨trace, same, isTrace⟩ := handle_of_not_admitted admitted
    rw [same]
    refine .elsewhere (fun executor inside => ?_) (by simp) (.inl rfl)
    rcases isTrace with rfl | rfl <;> simp at inside

/-- **The output of a script is complete exactly when its exit comes behind it.** Everything the
script has written was sent before each `close`, if and only if libuv reports the exit only after it
has delivered all of it from the pipe. -/
theorem run_output_iff (succeeds : system.spawnResult = 0) {request : Request}
    {events : List ServingEvent} {final : Serving}
    (ran : Transition.run (step system handler) (handle handler request) events = some final)
    (piped : Piped output events) (spawned : ∃ executor, .spawn executor ∈ final.trace) :
    Complete output final.trace ↔ ExitsLate output events := by
  have scripting : Scripting output events final := by
    refine run_history (fun past serving => Piped output past → Scripting output past serving)
      (fun _ => handle_scripting handler request) ?_ ran piped
    intro past serving event next holds stepped pipes
    obtain ⟨before, hands⟩ := (Trace.preceded_concat_iff past event).mp pipes
    exact (holds before).step succeeds hands stepped
  obtain ⟨executor, inside⟩ := spawned
  cases scripting with
  | waits _ unspawned _ _ _ _ => exact absurd inside (unspawned executor)
  | elsewhere unspawned _ _ => exact absurd inside (unspawned executor)
  | scripted _ complete _ _ => exact complete

/-- The output comes in two pieces, and the exit behind them. -/
def scriptEvents : List ServingEvent :=
  [.statDone 0 0o100000, .pipeRead 3 (text "20 "), .pipeRead 2 (text "ok"), .processExit]

theorem run_output_script : ∃ final,
    Transition.run (step plainSystem scriptHandler)
      (handle scriptHandler { path := text "/a.cgi" }) scriptEvents = some final ∧
    (Complete (text "20 ok") final.trace ↔ ExitsLate (text "20 ok") scriptEvents) :=
  ⟨_, rfl, run_output_iff rfl (show Transition.run (step plainSystem scriptHandler)
    (handle scriptHandler { path := text "/a.cgi" }) scriptEvents = some _ from rfl)
    (by decide) ⟨_, List.mem_of_getElem? (show (_ : List Action)[8]? = _ from rfl)⟩⟩

/-- The exit overtakes the second piece: the connection is closed behind the first. -/
theorem run_output_overtaken : ∃ final,
    Transition.run (step plainSystem scriptHandler) (handle scriptHandler { path := text "/a.cgi" })
      [.statDone 0 0o100000, .pipeRead 3 (text "20 "), .processExit] = some final ∧
    Piped (text "20 ok") [.statDone 0 0o100000, .pipeRead 3 (text "20 "), .processExit] ∧
    (∃ executor, .spawn executor ∈ final.trace) ∧ sentBytes final.trace = text "20 " ∧
    ¬ Complete (text "20 ok") final.trace := by
  refine ⟨_, rfl, by decide, ⟨_, List.mem_of_getElem? (show (_ : List Action)[8]? = _ from rfl)⟩,
    by decide, fun complete => ?_⟩
  have closed : Complete (text "20 ok") (_ ++ [.close, .release .pipeRead]) := complete
  have all := ((complete_append_iff (by simp [Action.data]) (by simp)).mp closed).2
  revert all
  decide

end Serving

end GemCaps
