/-
**What a request acquires, and what it releases.**

The `RequestContext` of an admitted request is released at the end of `dir_on_scan`, and elsewhere
only by the callbacks registered for the end of the connection, which a connection accepted by the
`Manager` never runs. A request therefore either drops its context in `dir_on_scan`, with nothing
else acquired, or holds it for good. `releasedOnce_iff`: when everything has come to rest, all that
was acquired has been released exactly once if and only if the request was answered at once or its
directory was scanned without finding an index.
-/

import GemCaps.Files.Effects
import GemCaps.Library.Trace
import GemCaps.Library.Transition

namespace GemCaps

open Transition

/-- An operation is started. -/
def Action.starts : Action → Bool
  | .start _ => true
  | _ => false

/-- Whatever was acquired was released exactly once, and the context only between operations. -/
structure ReleasedOnce (trace : List Action) : Prop where
  once : ∀ resource, trace.count (.release resource) = trace.count (.acquire resource)
  idle : Trace.Preceded (fun earlier action => action = .release .context →
    earlier.countP Action.starts = earlier.count .finish) trace

/-- A scan of the file that releases the context is among the events. -/
def ScannedBarren (handler : FileHandler) (file : Bytes) (events : List ServingEvent) : Prop :=
  ∃ result entries, .scanDone result entries ∈ events ∧ Serving.Barren handler file result entries

namespace Serving

variable {system : System} {handler : FileHandler} {request : Request}
  {serving before after : Serving}

/-- The connection has closed, and no callback can come any more. -/
structure Finished (serving : Serving) : Prop where
  disconnected : serving.connected = false
  idle : serving.pending = none
  exited : ∀ runner ∈ serving.runner, runner.alive = false ∧ runner.response = false

/-! ### The three phases of an admitted request -/

/-- The context is acquired and not released. -/
structure Held (serving : Serving) : Prop where
  acquired : serving.trace.count (.acquire .context) = 1
  released : serving.trace.count (.release .context) = 0

/-- The `stat` or the scan of the mapped file is pending, and only the context is acquired. -/
structure Waiting (handler : FileHandler) (request : Request) (serving : Serving) : Prop where
  held : Held serving
  others : ∀ resource ≠ .context, serving.trace.count (.acquire resource) = 0 ∧
    serving.trace.count (.release resource) = 0
  busy : serving.trace.countP Action.starts = serving.trace.count .finish + 1
  pending : ∃ path, serving.pending = some (.stat path) ∨ serving.pending = some (.scandir path)
  file : serving.file = handler.mapped request.path
  runner : serving.runner = none

/-- The context is held, and nothing is left that would release it. -/
structure Leaked (serving : Serving) : Prop where
  held : Held serving
  pending : ∀ path, serving.pending ≠ some (.stat path) ∧ serving.pending ≠ some (.scandir path)

/-- The context was released, and nothing can come any more. -/
structure Dropped (serving : Serving) : Prop where
  released : ReleasedOnce serving.trace
  pending : serving.pending = none
  runner : serving.runner = none

/-! ### Counting -/

theorem count_append_of_notMem {trace new : List Action} {action : Action} (other : action ∉ new) :
    (trace ++ new).count action = trace.count action := by
  rw [List.count_append, List.count_eq_zero_of_not_mem other, Nat.add_zero]

theorem notMem_of_spoken {said : List Action} (spoken : ∀ action ∈ said, action.spoken = true)
    {action : Action} (other : action.spoken = false) : action ∉ said := fun inside =>
  Bool.false_ne_true (other.symm.trans (spoken action inside))

theorem countP_starts_of_spoken {said : List Action}
    (spoken : ∀ action ∈ said, action.spoken = true) : said.countP Action.starts = 0 := by
  refine List.countP_eq_zero.mpr fun action inside starts => ?_
  have isSpoken := spoken action inside
  cases action with
  | start operation => cases isSpoken
  | _ => cases starts

/-- Actions that leave the context alone. -/
theorem held_of_append {new : List Action} (held : Held before)
    (isNew : after.trace = before.trace ++ new) (acquires : .acquire .context ∉ new)
    (releases : .release .context ∉ new) : Held after := by
  refine ⟨?_, ?_⟩
  · rw [isNew, count_append_of_notMem acquires, held.acquired]
  · rw [isNew, count_append_of_notMem releases, held.released]

theorem Quietly.held (quietly : Quietly before after) (held : Held before) : Held after := by
  obtain ⟨new, isNew, quiet⟩ := quietly.trace
  exact held_of_append held isNew (fun inside => absurd (quiet _ inside) (by decide))
    fun inside => absurd (quiet _ inside) (by decide)

theorem Quietly.leaked (quietly : Quietly before after) (leaked : Leaked before) : Leaked after :=
  ⟨quietly.held leaked.held, fun path => quietly.pending ▸ leaked.pending path⟩

theorem Held.start (held : Held serving) (operation : Operation) :
    Held (serving.start operation) :=
  held_of_append held rfl (by simp) (by simp)

theorem Held.finish (held : Held serving) : Leaked serving.finish :=
  ⟨held_of_append held rfl (by simp) (by simp), fun _ => ⟨nofun, nofun⟩⟩

/-! ### The callbacks -/

/-- Reading a file never gives the context back. -/
theorem readFile_leaked (leaked : Leaked serving) :
    Leaked (serving.readFile system handler) := by
  have reading := readFile_reading system handler serving
  generalize serving.readFile system handler = after at reading ⊢
  cases reading with
  | quiet quietly => exact quietly.leaked leaked
  | opens plain => exact ⟨leaked.held.start _, fun path => ⟨nofun, nofun⟩⟩
  | spawns executable env prepared quietly =>
    have ready := prepared.leaked leaked
    exact quietly.leaked ⟨held_of_append ready.held rfl (by simp) (by simp), ready.pending⟩

/-- After `stat` the context is still held. -/
theorem handleOnStat_waiting_or_leaked {result : Int} {mode : Nat}
    (waiting : Waiting handler request serving) :
    Waiting handler request (serving.finish.handleOnStat system handler result mode) ∨
      Leaked (serving.finish.handleOnStat system handler result mode) := by
  have leaked : Leaked serving.finish := waiting.held.finish
  rcases handleOnStat_cases system handler serving.finish result mode with
    ⟨response, answers⟩ | ⟨_, scans⟩ | ⟨_, reads⟩
  · rw [answers]
    exact Or.inr ((quietly_act (by simp [Action.quiet])).leaked leaked)
  · rw [scans]
    refine Or.inl ⟨leaked.held.start _, fun resource other => ?_, ?_, ⟨_, Or.inr rfl⟩,
      waiting.file, waiting.runner⟩
    · obtain ⟨acquired, released⟩ := waiting.others resource other
      simp [readDir, Serving.start, finish, act, acquired, released]
    · simp [readDir, Serving.start, finish, act, waiting.busy, Action.starts]
  · rw [reads]
    exact Or.inr (readFile_leaked leaked)

/-- After a scan that was waited for the context can be released. -/
theorem dropped_of_waiting {said : List Action} (waiting : Waiting handler request serving)
    (spoken : ∀ action ∈ said, action.spoken = true) :
    Dropped (serving.finish.act (said ++ [.release .context])) := by
  obtain ⟨earlier, isEarlier⟩ :
    ∃ earlier, earlier = serving.trace ++ Action.finish :: said := ⟨_, rfl⟩
  have shape : (serving.finish.act (said ++ [.release .context])).trace =
      earlier ++ [.release .context] := by
    simp [act, finish, isEarlier]
  have acquired : ∀ resource,
      earlier.count (.acquire resource) = serving.trace.count (.acquire resource) := fun resource =>
    isEarlier ▸ count_append_of_notMem (List.not_mem_cons_of_ne_of_not_mem (by simp)
      (notMem_of_spoken spoken rfl))
  have released : ∀ resource,
      earlier.count (.release resource) = serving.trace.count (.release resource) := fun resource =>
    isEarlier ▸ count_append_of_notMem (List.not_mem_cons_of_ne_of_not_mem (by simp)
      (notMem_of_spoken spoken rfl))
  have idle : earlier.countP Action.starts = earlier.count .finish := by
    have silent : Action.finish ∉ said := notMem_of_spoken spoken rfl
    rw [isEarlier, List.countP_append, List.count_append, waiting.busy,
      List.countP_cons_of_neg (by decide), countP_starts_of_spoken spoken, List.count_cons_self,
      List.count_eq_zero_of_not_mem silent]
  refine ⟨⟨fun resource => ?_, ?_⟩, rfl, waiting.runner⟩
  · rw [shape, List.count_append, List.count_append, acquired, released]
    by_cases isContext : resource = .context
    · subst isContext
      rw [waiting.held.acquired, waiting.held.released]
      rfl
    · obtain ⟨noAcquire, noRelease⟩ := waiting.others resource isContext
      rw [noAcquire, noRelease]
      simp [Ne.symm isContext]
  · have held : Action.release .context ∉ earlier := by
      rw [← List.count_eq_zero, released, waiting.held.released]
    rw [shape]
    refine (Trace.preceded_concat_iff _ _).mpr ⟨?_, fun _ => idle⟩
    exact Trace.preceded_nil.append fun action inside _ isRelease =>
      absurd (isRelease ▸ inside) held

/-- `dir_on_scan` releases the context exactly after a barren scan. -/
theorem dirOnScan_dropped_or_leaked (system : System) (result : Int) (entries : List Dirent)
    (waiting : Waiting handler request serving) :
    (Dropped (serving.finish.dirOnScan system handler result entries) ∧
      Barren handler (handler.mapped request.path) result entries) ∨
    (Leaked (serving.finish.dirOnScan system handler result entries) ∧
      ¬ Barren handler (handler.mapped request.path) result entries) := by
  have leaked : Leaked serving.finish := waiting.held.finish
  rw [← waiting.file]
  rcases dirOnScan_cases system handler serving.finish result entries with
    ⟨barren, said, releases, spoken⟩ | ⟨scanned, entry, isFirst, verdicts, reads, _, spoken⟩
  · exact Or.inl ⟨releases ▸ dropped_of_waiting waiting spoken, barren⟩
  · refine Or.inr ⟨?_, ?_⟩
    · have scans : Leaked (serving.finish.act verdicts) :=
        (quietly_act fun action inside => Action.quiet_of_spoken (spoken action inside)).leaked leaked
      rw [reads]
      exact readFile_leaked ⟨⟨scans.held.acquired, scans.held.released⟩, scans.pending⟩
    · rintro (failed | none)
      · omega
      · exact Option.some_ne_none entry (isFirst.symm.trans none)

/-- What the other callbacks of a file do. -/
theorem fileOnOpen_leaked {result : Int} (leaked : Leaked serving) :
    Leaked (serving.fileOnOpen system result) := by
  rcases fileOnOpen_cases system serving result with
    quietly | ⟨ready, offset, quietly, reads⟩
  · exact quietly.leaked leaked
  · rw [reads]
    exact ⟨(quietly.held leaked.held).start _, fun _ => ⟨nofun, nofun⟩⟩

theorem fileOnRead_leaked {result : Int} {data : Bytes} (leaked : Leaked serving) :
    Leaked (serving.fileOnRead result data) := by
  obtain ⟨ready, operation, quietly, starts, kind⟩ :=
    fileOnRead_cases serving result data
  rw [starts]
  refine ⟨(quietly.held leaked.held).start _, fun path => ?_⟩
  rcases kind with ⟨fd, offset, rfl⟩ | ⟨fd, rfl⟩
  · exact ⟨nofun, nofun⟩
  · exact ⟨nofun, nofun⟩

/-! ### A whole run -/

/-- Where an admitted request stands after these events. -/
def Phase (handler : FileHandler) (request : Request) (past : List ServingEvent)
    (serving : Serving) : Prop :=
  ((Waiting handler request serving ∨ Leaked serving) ∧
    ¬ ScannedBarren handler (handler.mapped request.path) past) ∨
  (Dropped serving ∧ ScannedBarren handler (handler.mapped request.path) past)

theorem scannedBarren_concat_iff {file : Bytes} {past : List ServingEvent} {event : ServingEvent} :
    ScannedBarren handler file (past ++ [event]) ↔ ScannedBarren handler file past ∨
      ∃ result entries, event = .scanDone result entries ∧ Barren handler file result entries := by
  constructor
  · rintro ⟨result, entries, inside, barren⟩
    rcases List.mem_append.mp inside with earlier | last
    · exact Or.inl ⟨result, entries, earlier, barren⟩
    · exact Or.inr ⟨result, entries, (List.mem_singleton.mp last).symm, barren⟩
  · rintro (⟨result, entries, inside, barren⟩ | ⟨result, entries, rfl, barren⟩)
    · exact ⟨result, entries, List.mem_append_left _ inside, barren⟩
    · exact ⟨result, entries, List.mem_append_right _ List.mem_cons_self, barren⟩

theorem waiting_handle (admitted : Admitted handler request) :
    Waiting handler request (handle handler request) := by
  rw [handle_of_admitted admitted]
  refine ⟨⟨by simp, by simp⟩, fun resource other => ?_, by simp [Action.starts],
    ⟨_, Or.inl rfl⟩, rfl, rfl⟩
  simp [Ne.symm other]

theorem Waiting.disconnect (waiting : Waiting handler request serving) :
    Waiting handler request { serving with connected := false } :=
  ⟨⟨waiting.held.acquired, waiting.held.released⟩, waiting.others, waiting.busy, waiting.pending,
    waiting.file, waiting.runner⟩

/-- **One step** from a waiting request. -/
theorem step_of_waiting {past : List ServingEvent} {event : ServingEvent} {next : Serving}
    (waiting : Waiting handler request serving)
    (fruitful : ¬ ScannedBarren handler (handler.mapped request.path) past)
    (step : serving.step system handler event = some next) :
    Phase handler request (past ++ [event]) next := by
  have fruitfulStill : (∀ result entries, event ≠ .scanDone result entries) →
      ¬ ScannedBarren handler (handler.mapped request.path) (past ++ [event]) := by
    rw [scannedBarren_concat_iff]
    rintro other (earlier | ⟨result, entries, same, _⟩)
    · exact fruitful earlier
    · exact other result entries same
  obtain ⟨path, waits⟩ := waiting.pending
  cases stepped_of_step step with
  | statDone result mode _ =>
    exact Or.inl ⟨handleOnStat_waiting_or_leaked waiting, fruitfulStill nofun⟩
  | scanDone result entries _ =>
    rcases dirOnScan_dropped_or_leaked system result entries waiting with
      ⟨dropped, barren⟩ | ⟨leaked, notBarren⟩
    · exact Or.inr ⟨dropped, scannedBarren_concat_iff.mpr (Or.inr ⟨result, entries, rfl, barren⟩)⟩
    · refine Or.inl ⟨Or.inr leaked, ?_⟩
      rw [scannedBarren_concat_iff]
      rintro (earlier | ⟨result', entries', same, barren⟩)
      · exact fruitful earlier
      · cases same
        exact notBarren barren
  | openDone result isOpen => simp [isOpen] at waits
  | readDone result data isRead => simp [isRead] at waits
  | closeDone isClose => simp [isClose] at waits
  | running runs _ _ => exact absurd waiting.runner runs
  | connectionClosed => exact Or.inl ⟨Or.inl waiting.disconnect, fruitfulStill nofun⟩

/-- **One step** from a request that has leaked its context: it stays leaked. -/
theorem step_of_leaked {event : ServingEvent} {next : Serving} (leaked : Leaked serving)
    (step : serving.step system handler event = some next) :
    Leaked next ∧ ∀ result entries, event ≠ .scanDone result entries := by
  cases stepped_of_step step with
  | statDone result mode waits => exact absurd waits (leaked.pending _).1
  | scanDone result entries waits => exact absurd waits (leaked.pending _).2
  | openDone result waits => exact ⟨fileOnOpen_leaked leaked.held.finish, nofun⟩
  | readDone result data waits => exact ⟨fileOnRead_leaked leaked.held.finish, nofun⟩
  | closeDone waits => exact ⟨leaked.held.finish, nofun⟩
  | running runs quietly other => exact ⟨quietly.leaked leaked, other.2⟩
  | connectionClosed =>
    exact ⟨⟨⟨leaked.held.acquired, leaked.held.released⟩, leaked.pending⟩, nofun⟩

/-- Only the end of the connection is left for a request at rest. -/
theorem step_of_idle {event : ServingEvent} {next : Serving} (pending : serving.pending = none)
    (runner : serving.runner = none) (step : serving.step system handler event = some next) :
    next = { serving with connected := false } := by
  cases stepped_of_step step with
  | connectionClosed => rfl
  | running runs _ _ => exact absurd runner runs
  | statDone _ _ waits | scanDone _ _ waits | openDone _ waits | readDone _ _ waits
  | closeDone waits => simp [pending] at waits

theorem phase_step {past : List ServingEvent} {event : ServingEvent} {next : Serving}
    (phase : Phase handler request past serving)
    (step : serving.step system handler event = some next) :
    Phase handler request (past ++ [event]) next := by
  rcases phase with ⟨waiting | leaked, fruitful⟩ | ⟨dropped, barren⟩
  · exact step_of_waiting waiting fruitful step
  · obtain ⟨leaks, other⟩ := step_of_leaked leaked step
    refine Or.inl ⟨Or.inr leaks, ?_⟩
    rw [scannedBarren_concat_iff]
    rintro (earlier | ⟨result, entries, same, _⟩)
    · exact fruitful earlier
    · exact other result entries same
  · refine Or.inr ⟨?_, scannedBarren_concat_iff.mpr (Or.inl barren)⟩
    rw [step_of_idle dropped.pending dropped.runner step]
    exact ⟨dropped.released, dropped.pending, dropped.runner⟩

/-- A request that is answered at once has nothing to release. -/
theorem releasedOnce_of_not_admitted {events : List ServingEvent} {final : Serving}
    (refused : ¬ Admitted handler request)
    (ran : Transition.run (step system handler) (handle handler request) events = some final) :
    ReleasedOnce final.trace := by
  obtain ⟨trace, same, isTrace⟩ := handle_of_not_admitted refused
  rw [same] at ran
  have rests : final.trace = trace ∧ final.pending = none ∧ final.runner = none := by
    refine run_always (fun serving : Serving =>
      serving.trace = trace ∧ serving.pending = none ∧ serving.runner = none) ?_ ⟨rfl, rfl, rfl⟩ ran
    rintro state event next ⟨isTrace, pending, runner⟩ stepped
    rw [step_of_idle pending runner stepped]
    exact ⟨isTrace, pending, runner⟩
  rw [rests.1]
  refine ⟨fun resource => ?_, Trace.preceded_nil.append fun action inside _ isRelease => ?_⟩
  · rcases isTrace with rfl | rfl <;> simp
  · subst isRelease
    rcases isTrace with rfl | rfl <;> simp at inside

/-- **When everything is released exactly once**: the request was answered at once, or its directory
was scanned without finding an index. It is so in every state of a run, the finished ones among
them. -/
theorem releasedOnce_iff {events : List ServingEvent} {final : Serving}
    (ran : Transition.run (step system handler) (handle handler request) events = some final) :
    ReleasedOnce final.trace ↔
      ¬ Admitted handler request ∨ ScannedBarren handler (handler.mapped request.path) events := by
  by_cases admitted : Admitted handler request
  · have phase : Phase handler request events final :=
      run_history (Phase handler request)
        (Or.inl ⟨Or.inl (waiting_handle admitted), fun ⟨_, _, inside, _⟩ => nomatch inside⟩)
        (fun _ _ _ _ phase stepped => phase_step phase stepped) ran
    have leaks : Held final → ¬ ReleasedOnce final.trace := fun held once => by
      have balanced := once.once .context
      rw [held.acquired, held.released] at balanced
      cases balanced
    rcases phase with ⟨waiting | leaked, fruitful⟩ | ⟨dropped, barren⟩
    · exact iff_of_false (leaks waiting.held) (by simp [admitted, fruitful])
    · exact iff_of_false (leaks leaked.held) (by simp [admitted, fruitful])
    · exact iff_of_true dropped.released (Or.inr barren)
  · exact iff_of_true (releasedOnce_of_not_admitted admitted ran) (Or.inl admitted)

/-- A handler for `/srv` that shows its directories. -/
def listingHandler : FileHandler := ⟨[], text "/srv", [], true, [], [], text "en_US.UTF-8", ∅⟩

/-- A directory without an index is listed, and the connection closes. -/
def listingEvents : List ServingEvent :=
  [.statDone 0 0o040000, .scanDone 0 [⟨⟨text "a.gmi", by decide⟩, false⟩], .connectionClosed]

theorem releasedOnce_listing : ∃ final,
    Transition.run (step plainSystem listingHandler) (handle listingHandler { path := text "/d/" })
      listingEvents = some final ∧ Finished final ∧ ReleasedOnce final.trace := by
  obtain ⟨final, ran⟩ : ∃ final, Transition.run (step plainSystem listingHandler)
    (handle listingHandler { path := text "/d/" }) listingEvents = some final := ⟨_, rfl⟩
  have barren : ScannedBarren listingHandler (listingHandler.mapped (text "/d/")) listingEvents :=
    ⟨0, [⟨⟨text "a.gmi", by decide⟩, false⟩], by simp [listingEvents], Or.inr (by decide)⟩
  refine ⟨final, ran, ?_, (releasedOnce_iff ran).mpr (Or.inr barren)⟩
  obtain rfl := Option.some.inj ran
  exact ⟨rfl, rfl, nofun⟩

/-- The file of a request does not exist, and the connection closes: the context is never
released. -/
theorem releasedOnce_missing : ∃ final,
    Transition.run (step plainSystem listingHandler) (handle listingHandler { path := text "/a" })
      [.statDone (-2) 0, .connectionClosed] = some final ∧ Finished final ∧
    final.trace.count (.acquire .context) = 1 ∧ final.trace.count (.release .context) = 0 ∧
    ¬ ReleasedOnce final.trace := by
  refine ⟨_, rfl, ⟨rfl, rfl, nofun⟩, by decide, by decide, fun once => ?_⟩
  have balanced := once.once .context
  revert balanced
  decide

end Serving

end GemCaps
