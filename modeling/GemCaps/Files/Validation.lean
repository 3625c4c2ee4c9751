/-
**Which paths are touched, and which were validated** (`validateFile` and the callbacks).

The rules are asked about a `std::string`. A directory is scanned and a file opened under that string
up to its first NUL, and the path of a script goes through the argument array of the `Executor`,
where it ends at a CR or a NUL as well. `run_validated`: in every run in which the strings that are
handed over survive this, whatever is touched was validated before, under the very name that the
operating system receives.
-/

import GemCaps.Files.Effects
import GemCaps.Files.Environment
import GemCaps.Library.Trace
import GemCaps.Library.Transition

namespace GemCaps

/-- The path that the operating system receives: of a script, the argument in its place. -/
def Action.touched (programs : Programs) : Action → Option Bytes
  | .start (.scandir path) | .start (.openFile path) => some path.bytes
  | .spawn executor => executor.args[(programs.launcher executor.path).length]?
  | _ => none

/-- Every path that is touched was validated before. -/
def Validated (programs : Programs) : List Action → Prop :=
  Trace.Preceded fun earlier action =>
    ∀ path ∈ action.touched programs, .validate path true ∈ earlier

/-- The operating system receives the whole name of a file that is read. -/
structure Whole (programs : Programs) (handler : FileHandler) (file : Bytes) : Prop where
  opened : handler.isExecutable file = false → nul ∉ file
  executed : handler.isExecutable file = true →
    ∀ word ∈ programs.launcher file ++ [file], Clean word

instance (programs : Programs) (handler : FileHandler) (file : Bytes) :
    Decidable (Whole programs handler file) :=
  decidable_of_iff
    ((handler.isExecutable file = false → nul ∉ file) ∧
      (handler.isExecutable file = true → ∀ word ∈ programs.launcher file ++ [file], Clean word))
    ⟨fun both => ⟨both.1, both.2⟩, fun whole => ⟨whole.opened, whole.executed⟩⟩

theorem Action.touched_of_quiet {programs : Programs} {action : Action}
    (quiet : action.quiet = true) : action.touched programs = none := by
  cases action <;> first | rfl | cases quiet

namespace Serving

variable {system : System} {handler : FileHandler} {serving before after : Serving}

/-- The step hands over whole names. -/
def HandsWhole (system : System) (handler : FileHandler) (serving : Serving) :
    ServingEvent → Prop
  | .statDone result mode =>
    (serving.Descends result mode → nul ∉ serving.file) ∧
      (serving.Fetches result mode → Whole system.programs handler serving.file)
  | .scanDone result entries =>
    0 ≤ result → ∀ entry ∈ entries.find? (IsIndex handler serving.file ·),
      Whole system.programs handler (Path.join serving.file entry.name.bytes)
  | _ => True

instance (serving : Serving) : DecidablePred (HandsWhole system handler serving)
  | .statDone _ _ => inferInstanceAs (Decidable (_ ∧ _))
  | .scanDone _ _ => inferInstanceAs (Decidable (_ → _))
  | .openDone _ | .readDone _ _ | .closeDone | .pipeRead _ _ | .processExit | .pipeClosed
  | .connectionClosed => .isTrue trivial

/-! ### What is vouched for -/

/-- All touched paths were validated, and the file was. -/
structure Vouched (programs : Programs) (serving : Serving) : Prop where
  validated : Validated programs serving.trace
  known : .validate serving.file true ∈ serving.trace

/-- All touched paths were validated, and the file was when an operation is pending. -/
structure Checked (programs : Programs) (serving : Serving) : Prop where
  validated : Validated programs serving.trace
  known : serving.pending ≠ none → .validate serving.file true ∈ serving.trace

theorem Vouched.checked (vouched : Vouched system.programs serving) :
    Checked system.programs serving := ⟨vouched.validated, fun _ => vouched.known⟩

/-- Actions that touch nothing demand nothing. -/
theorem validated_append {trace new : List Action} (validated : Validated system.programs trace)
    (untouching : ∀ action ∈ new, action.touched system.programs = none) :
    Validated system.programs (trace ++ new) := by
  refine Trace.Preceded.append validated fun action inside earlier path isTouched => ?_
  rw [untouching action inside] at isTouched
  cases isTouched

theorem Quietly.checked (quietly : Quietly before after)
    (checked : Checked system.programs before) : Checked system.programs after := by
  obtain ⟨new, isNew, quiet⟩ := quietly.trace
  refine ⟨?_, fun pending => ?_⟩
  · rw [isNew]
    exact validated_append checked.validated fun action inside =>
      Action.touched_of_quiet (quiet action inside)
  · rw [quietly.file, isNew]
    exact List.mem_append_left _ (checked.known (quietly.pending ▸ pending))

theorem Quietly.vouched (quietly : Quietly before after)
    (vouched : Vouched system.programs before) : Vouched system.programs after := by
  refine ⟨(quietly.checked vouched.checked).validated, ?_⟩
  obtain ⟨new, isNew, _⟩ := quietly.trace
  rw [quietly.file, isNew]
  exact List.mem_append_left _ vouched.known

theorem handed_bytes {file : Bytes} (noNul : nul ∉ file) : (handed file).bytes = file :=
  cStr_of_noNul noNul

/-- One more action, whose path was validated. -/
theorem vouched_act (vouched : Vouched system.programs serving) {action : Action}
    (met : ∀ path ∈ action.touched system.programs, .validate path true ∈ serving.trace) :
    Vouched system.programs (serving.act [action]) :=
  ⟨(Trace.preceded_concat_iff _ _).mpr ⟨vouched.validated, met⟩,
    List.mem_append_left _ vouched.known⟩

theorem vouched_start (vouched : Vouched system.programs serving) {operation : Operation}
    (met : ∀ path ∈ (Action.start operation).touched system.programs,
      .validate path true ∈ serving.trace) :
    Vouched system.programs (serving.start operation) :=
  ⟨(vouched_act vouched met).validated, (vouched_act vouched met).known⟩

theorem vouched_finish (checked : Checked system.programs serving)
    (pending : serving.pending ≠ none) : Vouched system.programs serving.finish :=
  have vouched : Vouched system.programs serving := ⟨checked.validated, checked.known pending⟩
  have finished : Vouched system.programs (serving.act [.finish]) :=
    vouched_act vouched (by simp [Action.touched])
  ⟨finished.validated, finished.known⟩

/-! ### The callbacks -/

/-- A script that is handed over whole is executed under its own name. -/
theorem touched_spawn {programs : Programs} {file : Bytes} (env : List (Bytes × Bytes))
    (clean : ∀ word ∈ programs.launcher file ++ [file], Clean word) :
    (Action.spawn (.make programs file env [])).touched programs = some file := by
  show (processArray (programs.launcher file ++ [file]))[(programs.launcher file).length]? = _
  rw [processArray_of_clean clean, List.getElem?_append_right le_rfl, Nat.sub_self]
  rfl

/-- A whole name that was validated is touched under that name. -/
theorem readFile_vouched (whole : Whole system.programs handler serving.file)
    (vouched : Vouched system.programs serving) :
    Vouched system.programs (serving.readFile system handler) := by
  have reading := readFile_reading system handler serving
  generalize serving.readFile system handler = after at reading ⊢
  cases reading with
  | quiet quietly => exact quietly.vouched vouched
  | opens plain =>
    refine vouched_start vouched fun path isTouched => ?_
    cases isTouched
    rw [handed_bytes (whole.opened plain)]
    exact vouched.known
  | spawns executable env prepared quietly =>
    refine quietly.vouched (vouched_act (prepared.vouched vouched) fun path isTouched => ?_)
    rw [touched_spawn env (whole.executed executable)] at isTouched
    cases isTouched
    exact prepared.file ▸ (prepared.vouched vouched).known

theorem handleOnStat_checked {result : Int} {mode : Nat}
    (vouched : Vouched system.programs serving)
    (hands : HandsWhole system handler serving (.statDone result mode)) :
    Checked system.programs (serving.handleOnStat system handler result mode) := by
  rcases handleOnStat_cases system handler serving result mode with
    ⟨response, answers⟩ | ⟨descends, scans⟩ | ⟨fetches, reads⟩
  · rw [answers]
    exact ((quietly_act (by simp [Action.quiet])).vouched vouched).checked
  · rw [scans]
    refine (vouched_start vouched fun path isTouched => ?_).checked
    cases isTouched
    rw [handed_bytes (hands.1 descends)]
    exact vouched.known
  · rw [reads]
    exact (readFile_vouched (hands.2 fetches) vouched).checked

theorem dirOnScan_checked {result : Int} {entries : List Dirent}
    (vouched : Vouched system.programs serving)
    (hands : HandsWhole system handler serving (.scanDone result entries)) :
    Checked system.programs (serving.dirOnScan system handler result entries) := by
  rcases dirOnScan_cases system handler serving result entries with
    ⟨_, said, releases, spoken⟩ | ⟨scanned, entry, isFirst, verdicts, reads, accepted, spoken⟩
  · rw [releases]
    have untouching : ∀ action ∈ said ++ [.release .context],
        action.touched system.programs = none :=
      List.forall_mem_append.mpr ⟨fun action inside =>
        Action.touched_of_quiet (Action.quiet_of_spoken (spoken action inside)), by
        simp [Action.touched]⟩
    exact ⟨validated_append vouched.validated untouching,
      fun _ => List.mem_append_left _ vouched.known⟩
  · rw [reads]
    refine (readFile_vouched (hands scanned entry isFirst) ⟨?_, ?_⟩).checked
    · exact validated_append vouched.validated fun action inside =>
        Action.touched_of_quiet (Action.quiet_of_spoken (spoken action inside))
    · exact List.mem_append_right _ accepted

/-- **One step.** -/
theorem step_checked {event : ServingEvent} {next : Serving}
    (checked : Checked system.programs serving) (hands : HandsWhole system handler serving event)
    (step : serving.step system handler event = some next) : Checked system.programs next := by
  cases stepped_of_step step with
  | statDone result mode waits =>
    exact handleOnStat_checked (vouched_finish checked (by simp [waits])) hands
  | scanDone result entries waits =>
    exact dirOnScan_checked (vouched_finish checked (by simp [waits])) hands
  | openDone result waits =>
    have vouched := vouched_finish checked (by simp [waits])
    rcases fileOnOpen_cases system serving.finish result with
      quietly | ⟨ready, offset, quietly, reads⟩
    · exact quietly.checked vouched.checked
    · rw [reads]
      exact (vouched_start (quietly.vouched vouched) (by simp [Action.touched])).checked
  | readDone result data waits =>
    have vouched := vouched_finish checked (by simp [waits])
    obtain ⟨ready, operation, quietly, starts, kind⟩ :=
      fileOnRead_cases serving.finish result data
    rw [starts]
    rcases kind with ⟨fd, offset, rfl⟩ | ⟨fd, rfl⟩
    · exact (vouched_start (quietly.vouched vouched) (by simp [Action.touched])).checked
    · exact (vouched_start (quietly.vouched vouched) (by simp [Action.touched])).checked
  | closeDone waits => exact (vouched_finish checked (by simp [waits])).checked
  | running runs quietly other => exact quietly.checked checked
  | connectionClosed => exact ⟨checked.validated, checked.known⟩

theorem handle_checked (request : Request) :
    Checked system.programs (handle handler request) := by
  by_cases admitted : Admitted handler request
  · rw [handle_of_admitted admitted]
    refine ⟨?_, fun _ => List.mem_cons_self⟩
    exact validated_append Trace.preceded_nil (by simp [Action.touched])
  · obtain ⟨trace, same, isTrace⟩ := handle_of_not_admitted admitted
    rw [same]
    refine ⟨validated_append Trace.preceded_nil ?_, fun pending => absurd rfl pending⟩
    rcases isTrace with rfl | rfl <;> simp [Action.touched]

/-- **Whatever is touched was validated**, in every run that hands over whole names. -/
theorem run_validated {request : Request} {events : List ServingEvent} {final : Serving}
    (hands : Transition.Along (step system handler) (HandsWhole system handler)
      (handle handler request) events)
    (ran : Transition.run (step system handler) (handle handler request) events = some final) :
    Validated system.programs final.trace :=
  (Transition.run_invariant (Checked system.programs)
    (fun _ _ _ checked hands step => step_checked checked hands step) (handle_checked request)
    hands ran).validated

/-- A handler whose rule hides the files that end in `.key`. -/
def keyHandler : FileHandler :=
  ⟨[], text "/srv", [], true, [fun file => !(text ".key").isSuffixOf file], [],
    text "en_US.UTF-8", ∅⟩

/-- The index of a directory is opened under the name that was validated. -/
def indexEvents : List ServingEvent :=
  [.statDone 0 0o040000, .scanDone 0 [⟨⟨text "index.gmi", by decide⟩, false⟩]]

theorem run_validated_index : ∃ final,
    Transition.run (step plainSystem keyHandler) (handle keyHandler { path := text "/d/" })
      indexEvents = some final ∧
    .start (.openFile ⟨text "/srv/d/index.gmi", by decide⟩) ∈ final.trace ∧
    Validated plainSystem.programs final.trace :=
  ⟨_, rfl, by decide,
    run_validated (show Transition.Along (step plainSystem keyHandler)
      (HandsWhole plainSystem keyHandler) (handle keyHandler { path := text "/d/" }) indexEvents by
        decide) rfl⟩

/-- A request for a file that the rule hides, with a NUL behind its name. -/
def keyRequest : Request :=
  ⟨text "gemini://h/a.key\x00\r\n", text "h", 1965, text "/a.key\x00", []⟩

/-- The hidden file is opened: what was validated is another name. -/
theorem run_openedKey :
    parseHost { header := keyRequest.header } = some keyRequest ∧ ∃ final,
      Transition.run (step plainSystem keyHandler) (handle keyHandler keyRequest)
        [.statDone 0 0o100000] = some final ∧
      .start (.openFile ⟨text "/srv/a.key", by decide⟩) ∈ final.trace ∧
      keyHandler.validateFile (text "/srv/a.key") = false ∧
      ¬ Validated plainSystem.programs final.trace := by
  refine ⟨by decide, _, rfl, by decide, by decide, fun validated => ?_⟩
  have earlier := validated ((handle keyHandler keyRequest).trace ++ [.finish])
    (.start (.openFile ⟨text "/srv/a.key", by decide⟩)) [] (by decide) (text "/srv/a.key") rfl
  exact absurd earlier (by decide)

end Serving

end GemCaps
