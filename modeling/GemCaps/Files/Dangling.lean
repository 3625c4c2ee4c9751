/-
**Calls on a client that is gone.**

`__on_close` deletes the client, and the request keeps its address. Whatever a callback does to the
client after that is done to memory that was given back.

* `Fate`: a request that has not closed its client waits for a callback that can still come, and one
  that has closed it waits for nothing but the end of its file, its pipe and its process.
* `run_dangling_iff`: a request that comes to rest calls a client that is gone exactly when the
  connection ended before the request had closed it.
-/

import GemCaps.Files.Release

namespace GemCaps

open Transition

/-- A call on the client. -/
def Action.onClient : Action → Bool
  | .send _ | .close | .setClientCloseCallback _ => true
  | .validate _ _ | .acquire _ | .release _ | .start _ | .finish | .spawn _ | .signal => false

namespace Serving

variable {system : System} {handler : FileHandler} {request : Request} {serving next : Serving}
  {event : ServingEvent}

/-- One close, and no call on the client behind it. -/
def LastCall (trace : List Action) : Prop :=
  ∃ front back, trace = front ++ .close :: back ∧ .close ∉ front ∧
    ∀ action ∈ back, action.onClient = false

theorem LastCall.closes {trace : List Action} (last : LastCall trace) : .close ∈ trace := by
  obtain ⟨front, back, rfl, _⟩ := last
  exact List.mem_append_right _ List.mem_cons_self

theorem LastCall.append {trace new : List Action} (last : LastCall trace)
    (quiet : ∀ action ∈ new, action.onClient = false) : LastCall (trace ++ new) := by
  obtain ⟨front, back, rfl, silent, still⟩ := last
  refine ⟨front, back ++ new, by rw [List.append_assoc, List.cons_append], silent, ?_⟩
  exact List.forall_mem_append.mpr ⟨still, quiet⟩

/-- The close is the first one behind a trace without any. -/
theorem lastCall_of_silent {trace said back : List Action} (silent : .close ∉ trace)
    (spoken : .close ∉ said) (quiet : ∀ action ∈ back, action.onClient = false) :
    LastCall (trace ++ (said ++ .close :: back)) := by
  refine ⟨trace ++ said, back, (List.append_assoc ..).symm, ?_, quiet⟩
  exact fun inside => (List.mem_append.mp inside).elim silent spoken

/-- **Behind any close the client is not called.** -/
theorem LastCall.quiet {trace front back : List Action} (last : LastCall trace)
    (split : trace = front ++ .close :: back) : ∀ action ∈ back, action.onClient = false := by
  obtain ⟨first, rest, rfl, silent, quiet⟩ := last
  have single : Action.close ∉ rest := fun inside => absurd (quiet _ inside) (by decide)
  obtain ⟨_, _, rfl⟩ := (List.append_cons_inj_of_notMem silent single).mp split
  exact quiet

/-- The client was told to close; the pipe, if there is one, is closing or closed. -/
structure Told (serving : Serving) : Prop where
  last : LastCall serving.trace
  pending : serving.pending = none ∨ ∃ fd, serving.pending = some (.closeFile fd)
  ended : ∀ runner ∈ serving.runner, runner.response = true → runner.closing = true

/-- What a request that has not closed its client waits for. -/
def Awaits (serving : Serving) : Prop :=
  (serving.runner = none ∧ ∃ operation, serving.pending = some operation ∧
      ∀ fd, operation ≠ .closeFile fd) ∨
    serving.pending = none ∧ ∃ runner, serving.runner = some runner ∧ runner.response = true ∧
      runner.closing = false

/-- Where a request stands with its client. -/
inductive Fate (serving : Serving) : Prop where
  | untold (silent : .close ∉ serving.trace) (awaits : serving.Awaits)
  | told (told : serving.Told)
  | crashed (crashed : serving.crashed = true)

theorem told_of_none (last : LastCall serving.trace)
    (pending : serving.pending = none ∨ ∃ fd, serving.pending = some (.closeFile fd))
    (noRunner : serving.runner = none) : serving.Told :=
  ⟨last, pending, fun runner runs => by
    rw [noRunner] at runs
    cases runs⟩

/-! ### The callbacks -/

theorem respond_fate (response : Bytes) (silent : .close ∉ serving.trace)
    (idle : serving.pending = none) (noRunner : serving.runner = none) :
    (serving.respond response).Fate := by
  have last : LastCall (serving.trace ++ ([.send response] ++ [.close])) :=
    lastCall_of_silent silent (by simp) (by simp)
  exact .told (told_of_none last (.inl idle) noRunner)

/-- `CGIRunner::close` closes the client, or the program ends. -/
theorem closeRunner_fate (runner : CGIRunner) (silent : .close ∉ serving.trace)
    (idle : serving.pending = none) : (serving.closeRunner runner).Fate := by
  have isIdle : (serving.interrupt runner).pending = none := by
    unfold interrupt
    split <;> exact idle
  have hidden : .close ∉ (serving.interrupt runner).trace := by
    unfold interrupt
    split
    · simpa [act] using silent
    · exact silent
  unfold closeRunner
  split
  · have last : LastCall ((serving.interrupt runner).trace ++ ([] ++ [.close, .release .pipeRead])) :=
      lastCall_of_silent hidden List.not_mem_nil (by simp [Action.onClient])
    refine .told ⟨last, .inl isIdle, fun other isOther _ => ?_⟩
    obtain rfl := Option.some.inj isOther
    rfl
  · exact .crashed rfl

theorem spawn_fate (runner : CGIRunner) (isNew : runner.response = true ∧ runner.closing = false)
    (silent : .close ∉ serving.trace) (idle : serving.pending = none) :
    (serving.spawn system runner).Fate := by
  unfold spawn
  split
  · exact .crashed rfl
  · split
    · exact closeRunner_fate runner (by simpa [act] using silent) idle
    · refine .untold ?_ (.inr ⟨idle, _, rfl, isNew⟩)
      simpa [act] using silent

theorem readFile_fate (silent : .close ∉ serving.trace) (idle : serving.pending = none)
    (noRunner : serving.runner = none) : (serving.readFile system handler).Fate := by
  unfold readFile
  split
  · unfold runCgi run
    refine spawn_fate _ ⟨rfl, rfl⟩ ?_ ?_
    · unfold pipe
      split <;> simpa [act] using silent
    · unfold pipe
      split <;> exact idle
  · refine .untold ?_ (.inl ⟨noRunner, _, rfl, by simp⟩)
    simpa [start, act] using silent

theorem handleOnStat_fate (result : Int) (mode : Nat) (silent : .close ∉ serving.trace)
    (idle : serving.pending = none) (noRunner : serving.runner = none) :
    (serving.handleOnStat system handler result mode).Fate := by
  rcases handleOnStat_cases system handler serving result mode with
    ⟨response, same⟩ | ⟨_, same⟩ | ⟨_, same⟩
  · rw [same]
    exact respond_fate response silent idle noRunner
  · rw [same]
    refine .untold ?_ (.inl ⟨noRunner, _, rfl, by simp⟩)
    simpa [readDir, start, act] using silent
  · rw [same]
    exact readFile_fate silent idle noRunner

/-- Both ends of a listing close the client. -/
theorem listDirectory_fate (folders children : List Bytes) (silent : .close ∉ serving.trace)
    (idle : serving.pending = none) (noRunner : serving.runner = none) :
    (serving.listDirectory handler folders children).Fate := by
  unfold listDirectory
  split
  · have last : LastCall (serving.trace ++ ([.send (responseHeader resSuccess (text "text/gemini")),
        .send (listing serving.request.path folders children)] ++ [.close, .release .context])) :=
      lastCall_of_silent silent (by simp) (by simp [Action.onClient])
    exact .told (told_of_none last (.inl idle) noRunner)
  · have last : LastCall (serving.trace ++ ([.send doesNotExist] ++ [.close, .release .context])) :=
      lastCall_of_silent silent (by simp) (by simp [Action.onClient])
    exact .told (told_of_none last (.inl idle) noRunner)

theorem scan_silent (file : Bytes) (entries : List Dirent) (folders children : List Bytes) :
    .close ∉ (scan handler file entries folders children).1 := by
  induction entries generalizing folders children with
  | nil => exact List.not_mem_nil
  | cons entry entries ih =>
    simp only [scan]
    split
    · split
      · simp
      · exact List.not_mem_cons_of_ne_of_not_mem (by simp) (ih _ _)
    · exact ih _ _

theorem dirOnScan_fate (result : Int) (entries : List Dirent) (silent : .close ∉ serving.trace)
    (idle : serving.pending = none) (noRunner : serving.runner = none) :
    (serving.dirOnScan system handler result entries).Fate := by
  have scanned : .close ∉ (serving.act (scan handler serving.file entries [] []).1).trace :=
    fun inside => (List.mem_append.mp inside).elim silent (scan_silent _ _ _ _)
  unfold dirOnScan
  split
  · have last : LastCall (serving.trace ++ ([.send fileNotOpen] ++ [.close, .release .context])) :=
      lastCall_of_silent silent (by simp) (by simp [Action.onClient])
    exact .told (told_of_none last (.inl idle) noRunner)
  · cases ends : (scan handler serving.file entries [] []).2 with
    | accepted newFile =>
      simp only [ends]
      exact readFile_fate scanned idle noRunner
    | exhausted folders children =>
      simp only [ends]
      exact listDirectory_fate folders children scanned idle noRunner

theorem fileOnOpen_fate (result : Int) (silent : .close ∉ serving.trace)
    (idle : serving.pending = none) (noRunner : serving.runner = none) :
    (serving.fileOnOpen system result).Fate := by
  unfold fileOnOpen
  split
  · exact respond_fate fileNotOpen silent idle noRunner
  · dsimp only
    split
    · exact .crashed rfl
    · refine .untold ?_ (.inl ⟨noRunner, _, rfl, by simp⟩)
      simpa [start, act] using silent

theorem fileOnRead_fate (result : Int) (data : Bytes) (silent : .close ∉ serving.trace)
    (noRunner : serving.runner = none) : (serving.fileOnRead result data).Fate := by
  unfold fileOnRead
  split
  · have last : LastCall (serving.trace ++ ([] ++ [.close, .release .descriptor])) :=
      lastCall_of_silent silent List.not_mem_nil (by simp [Action.onClient])
    exact .told (told_of_none (last.append (by simp [Action.onClient])) (.inr ⟨_, rfl⟩) noRunner)
  · refine .untold ?_ (.inl ⟨noRunner, _, rfl, by simp⟩)
    simpa [start, act] using silent

/-! ### The steps -/

/-- **A request that has closed its client does not call it again**, or the program ends. -/
theorem Told.step (told : serving.Told)
    (stepped : serving.step system handler event = some next) :
    next.crashed = true ∨ next.Told ∧
      ∃ new, next.trace = serving.trace ++ new ∧ ∀ action ∈ new, action.onClient = false := by
  obtain ⟨last, pending, ended⟩ := told
  unfold Serving.step at stepped
  split at stepped
  · cases stepped
  split at stepped
  · next waits => simp [waits] at pending
  · next waits => simp [waits] at pending
  · next waits => simp [waits] at pending
  · next waits => simp [waits] at pending
  · obtain rfl := Option.some.inj stepped
    have quiet : ∀ action ∈ [Action.finish], action.onClient = false := by simp [Action.onClient]
    exact .inr ⟨⟨last.append quiet, .inl rfl, ended⟩, [.finish], rfl, quiet⟩
  · next runner isRunner =>
    obtain ⟨⟨isOpen, notClosing⟩, _⟩ := Option.ite_none_right_eq_some.mp stepped
    exact absurd (ended runner isRunner isOpen) (by simp [notClosing])
  · next runner isRunner =>
    -- The pipe is closed a second time.
    obtain ⟨_, same⟩ := Option.ite_none_right_eq_some.mp stepped
    obtain rfl := Option.some.inj same
    left
    unfold onExit closeRunner
    rw [if_neg]
    rintro ⟨isOpen, notClosing⟩
    exact absurd (ended runner isRunner isOpen) (by simpa using notClosing)
  · obtain ⟨_, same⟩ := Option.ite_none_right_eq_some.mp stepped
    obtain rfl := Option.some.inj same
    refine .inr ⟨⟨last, pending, fun other isOther isOpen => ?_⟩, [], by simp [onPipeClosed],
      fun _ inside => absurd inside List.not_mem_nil⟩
    obtain rfl := Option.some.inj isOther
    cases isOpen
  · obtain ⟨_, same⟩ := Option.ite_none_right_eq_some.mp stepped
    obtain rfl := Option.some.inj same
    exact .inr ⟨⟨last, pending, ended⟩, [], (List.append_nil _).symm,
      fun _ inside => absurd inside List.not_mem_nil⟩
  · cases stepped

theorem Fate.step (fate : serving.Fate)
    (stepped : serving.step system handler event = some next) : next.Fate := by
  rcases fate with ⟨silent, ⟨noRunner, operation, waits, notClose⟩ | ⟨idle, runner, isRunner, isNew⟩⟩ |
    told | crashed
  · have hidden : .close ∉ serving.finish.trace := by simpa [finish, act] using silent
    cases stepped_of_step stepped with
    | statDone result mode _ => exact handleOnStat_fate result mode hidden rfl noRunner
    | scanDone result entries _ => exact dirOnScan_fate result entries hidden rfl noRunner
    | openDone result _ => exact fileOnOpen_fate result hidden rfl noRunner
    | readDone result data _ => exact fileOnRead_fate result data hidden noRunner
    | closeDone isClose =>
      exact absurd (Option.some.inj (waits.symm.trans isClose)) (notClose _)
    | running runs _ _ => exact absurd noRunner runs
    | connectionClosed => exact .untold silent (.inl ⟨noRunner, operation, waits, notClose⟩)
  · unfold Serving.step at stepped
    rw [idle, isRunner] at stepped
    split at stepped
    · cases stepped
    cases event with
    | pipeRead nread data =>
      obtain ⟨_, same⟩ := Option.ite_none_right_eq_some.mp stepped
      obtain rfl := Option.some.inj same
      unfold onPipeRead
      split
      · exact closeRunner_fate runner silent idle
      · exact .untold (by simpa [act] using silent) (.inr ⟨idle, runner, isRunner, isNew⟩)
    | processExit =>
      obtain ⟨_, same⟩ := Option.ite_none_right_eq_some.mp stepped
      obtain rfl := Option.some.inj same
      exact closeRunner_fate _ silent idle
    | pipeClosed =>
      obtain ⟨closing, _⟩ := Option.ite_none_right_eq_some.mp stepped
      exact absurd (isNew.2.symm.trans closing) Bool.false_ne_true
    | connectionClosed =>
      obtain ⟨_, same⟩ := Option.ite_none_right_eq_some.mp stepped
      obtain rfl := Option.some.inj same
      exact .untold silent (.inr ⟨idle, runner, isRunner, isNew⟩)
    | statDone | scanDone | openDone | readDone | closeDone => cases stepped
  · rcases told.step stepped with crashed | ⟨stillTold, _⟩
    · exact .crashed crashed
    · exact .told stillTold
  · rw [step_of_crashed crashed] at stepped
    cases stepped

theorem handle_fate (handler : FileHandler) (request : Request) : (handle handler request).Fate := by
  by_cases admitted : Admitted handler request
  · rw [handle_of_admitted admitted]
    exact .untold (by simp) (.inl ⟨rfl, _, rfl, by simp⟩)
  · obtain ⟨trace, same, isTrace⟩ := handle_of_not_admitted admitted
    rw [same]
    refine .told (told_of_none ?_ (.inl rfl) rfl)
    rcases isTrace with rfl | rfl
    · exact ⟨[_], [], rfl, by simp, by simp⟩
    · exact ⟨[_, _], [], rfl, by simp, by simp⟩

/-! ### Whole runs -/

theorem run_fate {events : List ServingEvent}
    (ran : Transition.run (step system handler) (handle handler request) events = some serving) :
    serving.Fate :=
  run_always Fate (fun _ _ _ fate stepped => fate.step stepped) (handle_fate handler request) ran

/-- Behind a request that has closed its client nothing is done to the client. -/
theorem quiet_of_told (told : serving.Told) {events : List ServingEvent}
    (ran : Transition.run (step system handler) serving events = some next)
    (alive : next.crashed = false) :
    ∃ new, next.trace = serving.trace ++ new ∧ ∀ action ∈ new, action.onClient = false := by
  have kept : next.crashed = true ∨ next.Told ∧
      ∃ new, next.trace = serving.trace ++ new ∧ ∀ action ∈ new, action.onClient = false := by
    refine run_always (fun state : Serving => state.crashed = true ∨ state.Told ∧
      ∃ new, state.trace = serving.trace ++ new ∧ ∀ action ∈ new, action.onClient = false) ?_
      (.inr ⟨told, [], (List.append_nil _).symm, fun _ inside => absurd inside List.not_mem_nil⟩) ran
    rintro state event after (crashed | ⟨isTold, new, isNew, silent⟩) stepped
    · rw [step_of_crashed crashed] at stepped
      cases stepped
    · refine (isTold.step stepped).imp_right ?_
      rintro ⟨stillTold, newer, isNewer, quiet⟩
      refine ⟨stillTold, new ++ newer, by rw [isNewer, isNew, List.append_assoc], ?_⟩
      exact List.forall_mem_append.mpr ⟨silent, quiet⟩
  rcases kept with crashed | ⟨_, quiet⟩
  · rw [alive] at crashed
    cases crashed
  · exact quiet

/-- **When a client that is gone is called.** A request whose connection ends, and that then comes to
rest without a crash, calls its client after the end exactly when it had not closed it before; behind
a close it never calls it. -/
theorem run_dangling_iff {past rest : List ServingEvent} {middle final : Serving}
    (before : Transition.run (step system handler) (handle handler request) past = some middle)
    (after : Transition.run (step system handler) middle (.connectionClosed :: rest) = some final)
    (finished : Finished final) (alive : final.crashed = false) :
    ((∃ action ∈ final.trace.drop middle.trace.length, action.onClient = true) ↔
      .close ∉ middle.trace) ∧
    ∀ front back, final.trace = front ++ .close :: back → ∀ action ∈ back, action.onClient = false := by
  have ran : Transition.run (step system handler) (handle handler request)
      (past ++ .connectionClosed :: rest) = some final :=
    (run_append_eq_some _).mpr ⟨middle, before, after⟩
  obtain ⟨new, isNew⟩ : middle.trace <+: final.trace :=
    run_always (fun state : Serving => middle.trace <+: state.trace)
      (fun _ _ _ extends_ stepped => extends_.trans (step_extends stepped)) (List.prefix_refl _) after
  have isRest : final.trace.drop middle.trace.length = new := by rw [← isNew, List.drop_left]
  have isTold : final.Told := by
    cases run_fate ran with
    | told told => exact told
    | crashed crashed =>
      rw [alive] at crashed
      cases crashed
    | untold silent awaits =>
      rcases awaits with ⟨_, operation, waits, _⟩ | ⟨_, runner, runs, isOpen, _⟩
      · rw [finished.idle] at waits
        cases waits
      · rw [(finished.exited runner runs).2] at isOpen
        cases isOpen
  refine ⟨?_, fun front back split => isTold.last.quiet split⟩
  rw [isRest]
  constructor
  · rintro ⟨action, inside, calls⟩ closes
    cases run_fate before with
    | untold silent _ => exact silent closes
    | crashed crashed =>
      obtain ⟨_, stepped, _⟩ := (run_cons_eq_some _).mp after
      rw [step_of_crashed crashed] at stepped
      cases stepped
    | told told =>
      obtain ⟨other, isOther, quiet⟩ := quiet_of_told told after alive
      obtain rfl := List.append_cancel_left (isNew.trans isOther)
      rw [quiet action inside] at calls
      cases calls
  · intro silent
    have closes : Action.close ∈ middle.trace ++ new := isNew ▸ isTold.last.closes
    exact ⟨.close, (List.mem_append.mp closes).resolve_left silent, rfl⟩

/-- The client leaves while its file is looked up. -/
def leavingEvents : List ServingEvent := [.openDone 3, .readDone 0 [], .closeDone]

/-- The header and the close go to a client that is gone. -/
theorem run_dangling_leaving : ∃ middle final,
    Transition.run (step plainSystem listingHandler) (handle listingHandler { path := text "/a" })
      [.statDone 0 0o100000] = some middle ∧
    Transition.run (step plainSystem listingHandler) middle (.connectionClosed :: leavingEvents) =
      some final ∧
    ∃ action ∈ final.trace.drop middle.trace.length, action.onClient = true := by
  obtain ⟨middle, final, before, after, silent, idle, gone, noRunner, alive⟩ : ∃ middle final,
      Transition.run (step plainSystem listingHandler) (handle listingHandler { path := text "/a" })
        [.statDone 0 0o100000] = some middle ∧
      Transition.run (step plainSystem listingHandler) middle (.connectionClosed :: leavingEvents) =
        some final ∧ Action.close ∉ middle.trace ∧ final.pending = none ∧ final.connected = false ∧
      final.runner = none ∧ final.crashed = false :=
    ⟨_, _, rfl, rfl, by decide, rfl, rfl, rfl, rfl⟩
  have finished : Finished final := ⟨gone, idle, fun runner runs => by rw [noRunner] at runs; cases runs⟩
  exact ⟨middle, final, before, after, (run_dangling_iff before after finished alive).1.mpr silent⟩

end Serving

end GemCaps
