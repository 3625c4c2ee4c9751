/-
**What a server publishes**, from the files of its configuration to the bytes that a client gets.

`Exchange.run_published`: a request whose path continues the base of a handler by ordinary names is
answered with the file that continues the folder of that handler by the same names, whole and behind
its header, in every run of the connection that nothing disturbs (`Undisturbed`); and the handler is
that of the first file of the configuration whose handler accepts the request.
-/

import GemCaps.Config.Routes
import GemCaps.Files.Mapping
import GemCaps.Files.StaticFile

set_option linter.unusedSectionVars false

namespace GemCaps

open Transition GemCaps.Path

/-! ### The file behind a path -/

/-- The path continues the base of the handler by these names. -/
structure Addresses (handler : FileHandler) (path : Bytes) (names : List Bytes) : Prop where
  folder : PlainFolder handler.folder
  filled : names ≠ []
  path : ∃ base, (handler.base = absolute base ∨ handler.base = [] ∧ base = []) ∧
    (∀ name ∈ base ++ names, Ordinary name) ∧ path = absolute (base ++ names)

section Mapped

variable {handler : FileHandler} {path : Bytes} {names : List Bytes}

/-- **The path is canonical, and its file continues the folder by the names.** -/
theorem mapped_of_addresses (addresses : Addresses handler path names) :
    FileHandler.canonical path = path ∧ path.getLast? ≠ some slash ∧
      handler.mapped path = joinAll (split handler.folder ++ names) ∧
      (handed (handler.mapped path)).bytes = handler.mapped path := by
  obtain ⟨folder, filled, base, isBase, ordinary, rfl⟩ := addresses
  have names' : base ++ names ≠ [] := by simp [filled]
  have kept := canonical_absolute ordinary (.inl rfl)
  have restOrdinary : ∀ name ∈ names, Ordinary name := fun name inside =>
    ordinary name (List.mem_append_right base inside)
  have splitPath : split (absolute (base ++ names)) = [] :: (base ++ names) := split_absolute ordinary
  have isPlace : handler.place (absolute (base ++ names)) = names := by
    unfold FileHandler.place FileHandler.belowBase
    rcases isBase with isBase | ⟨isBase, rfl⟩
    · have splitBase : split handler.base = [] :: base :=
        isBase ▸ split_absolute fun name inside => ordinary name (List.mem_append_left names inside)
      have based : handler.base.isEmpty = false := by
        cases same : handler.base with
        | nil =>
          rw [same] at splitBase
          cases splitBase
        | cons letter rest => rfl
      rw [based, if_neg Bool.false_ne_true, splitPath, splitBase, ← List.cons_append,
        dropCommon_append, Option.getD_some]
      exact names_of_filled fun name inside => (restOrdinary name inside).filled
    · rw [isBase, splitPath]
      rfl
  obtain ⟨parts, _, partsFilled, noNul, isSplit, isJoined⟩ := folder.exists_parts
  have isFile : handler.mapped (absolute (base ++ names)) = joinAll (parts ++ names) := by
    rw [FileHandler.mapped_eq_place (canonical_of_eq kept), isPlace, isJoined, List.append_assoc,
      List.singleton_append, joinAll_append partsFilled filled]
  refine ⟨kept, fun last => ?_, by rw [isFile, isSplit], cStr_of_noNul ?_⟩
  · have plain := getLast?_joinAll (normal_rooted ordinary)
    rw [← absolute_eq_joinAll names', last] at plain
    exact absurd plain (by decide)
  · rw [isFile]
    exact noNul_joinAll (List.forall_mem_append.mpr
      ⟨noNul, fun name isName => (restOrdinary name isName).noNul⟩)

end Mapped

/-! ### An exchange that nothing disturbs -/

namespace Serving

variable {system : System} {handler : FileHandler} {serving next : Serving} {event : ServingEvent}
  {path : Bytes}

/-- The context stays with one file: its `stat` is awaited, or it was opened. -/
inductive Pursues (path : Bytes) (serving : Serving) : Prop where
  | looking (file : serving.file = path) (plain : serving.request.path.getLast? ≠ some slash)
      (runner : serving.runner = none)
      (pending : ∃ place, serving.pending = some (.stat place))
  | opened (file : serving.file = path)
      (inside : ∃ place, Action.start (.openFile place) ∈ serving.trace)

theorem Pursues.file (pursues : serving.Pursues path) : serving.file = path := by
  cases pursues with
  | looking file | opened file => exact file

/-- An admitted request looks for its file. -/
theorem handle_pursues {request : Request} (admitted : Admitted handler request)
    (plain : request.path.getLast? ≠ some slash) :
    (handle handler request).Pursues (handler.mapped request.path) := by
  rw [handle_of_admitted admitted]
  exact .looking rfl plain rfl ⟨_, rfl⟩

/-- Only a scan gives the context another file. -/
theorem step_file (stepped : serving.step system handler event = some next)
    (plain : handler.isExecutable serving.file = false)
    (other : ∀ result entries, event ≠ .scanDone result entries) : next.file = serving.file := by
  have reads : (serving.finish.readFile system handler).file = serving.file := by
    have reading := readFile_reading system handler serving.finish
    generalize serving.finish.readFile system handler = after at reading
    cases reading with
    | quiet quietly => exact quietly.file
    | opens _ => rfl
    | spawns executable => exact absurd (plain.symm.trans executable) (by decide)
  cases stepped_of_step stepped with
  | statDone result mode waits =>
    rcases handleOnStat_cases system handler serving.finish result mode with
      ⟨response, same⟩ | ⟨_, same⟩ | ⟨_, same⟩
    · rw [same]
      rfl
    · rw [same]
      rfl
    · rw [same]
      exact reads
  | scanDone result entries waits => exact absurd rfl (other result entries)
  | openDone result waits =>
    rcases fileOnOpen_cases system serving.finish result with quietly | ⟨ready, offset, quietly, same⟩
    · exact quietly.file
    · rw [same]
      exact quietly.file
  | readDone result data waits =>
    obtain ⟨ready, operation, quietly, same, _⟩ := fileOnRead_cases serving.finish result data
    rw [same]
    exact quietly.file
  | closeDone waits => rfl
  | running runs quietly other => exact quietly.file
  | connectionClosed => rfl

/-- **A step that finds a regular file opens it**, if it is no script. -/
theorem Pursues.step (pursues : serving.Pursues path) (script : handler.isExecutable path = false)
    (regular : ∀ result mode, event = .statDone result mode →
      result = 0 ∧ isDir mode = false ∧ isFile mode = true)
    (unscanned : ∀ place, serving.pending ≠ some (.scandir place))
    (stepped : serving.step system handler event = some next) : next.Pursues path := by
  have other : ∀ result entries, event ≠ .scanDone result entries := by
    rintro result entries rfl
    cases stepped_of_step stepped with
    | scanDone _ _ waits => exact unscanned _ waits
    | running _ _ other => exact other.2 _ _ rfl
  have file := (step_file stepped (pursues.file.symm ▸ script) other).trans pursues.file
  cases pursues with
  | opened _ inside =>
    obtain ⟨place, inside⟩ := inside
    exact .opened file ⟨place, (step_extends stepped).subset inside⟩
  | looking isFile plain runner pending =>
    cases stepped_of_step stepped with
    | statDone result mode waits =>
      obtain ⟨rfl, noDir, isRegular⟩ := regular result mode rfl
      have opens : serving.finish.handleOnStat system handler 0 mode =
          serving.finish.start (.openFile (handed serving.file)) := by
        have plainFile : handler.isExecutable serving.finish.file = false := isFile.symm ▸ script
        have plainPath : serving.finish.request.path.getLast? ≠ some slash := plain
        simp only [handleOnStat, noDir, isRegular, plainPath, readFile, plainFile, ne_eq,
          not_true_eq_false, Bool.false_eq_true, if_false, if_true]
        rfl
      refine .opened file ⟨handed serving.file, ?_⟩
      rw [opens]
      exact List.mem_append_right _ List.mem_cons_self
    | scanDone _ _ waits | openDone _ waits | readDone _ _ waits | closeDone waits =>
      simp [waits] at pending
    | running runs _ _ => exact absurd runner runs
    | connectionClosed => exact .looking file plain runner pending

end Serving

/-- A request for a plain file that the handler allows. -/
def Publishes (handler : FileHandler) (request : Request) : Prop :=
  Serving.Admitted handler request ∧ request.path.getLast? ≠ some slash ∧
    handler.isExecutable (handler.mapped request.path) = false

namespace Exchange

variable {system : System} {registered : Option (List FileHandler)} {exchange next : Exchange}
  {event : ExchangeEvent} {content : Bytes}

/-- Any `stat` finds a regular file. -/
def finds : ExchangeEvent → Bool
  | .callback _ (.statDone result mode) =>
    result == 0 && !Serving.isDir mode && Serving.isFile mode
  | .callback _ _ | .network _ => true

/-- The file is there and has this content throughout, and the connection is steady. -/
def Undisturbed (content : Bytes) (exchange : Exchange) (event : ExchangeEvent) : Prop :=
  finds event = true ∧ Given content exchange event ∧ Steady exchange event

instance (content : Bytes) (exchange : Exchange) (event : ExchangeEvent) :
    Decidable (Undisturbed content exchange event) := inferInstanceAs (Decidable (_ ∧ _))

/-- The requests for plain files stay with them. -/
def Pursuing (exchange : Exchange) : Prop :=
  ∀ served ∈ exchange.servings, Publishes served.1 served.2.request →
    served.2.Pursues (served.1.mapped served.2.request.path)

/-- While the `stat` is awaited or after an open, no directory is scanned. -/
theorem unscanned_of_pursues {serving : Serving} {connection : Connection} {path : Bytes}
    (pursues : serving.Pursues path) (delivering : Delivering system content serving connection)
    (running : serving.crashed = false) : ∀ place, serving.pending ≠ some (.scandir place) := by
  intro place scans
  cases pursues with
  | looking _ _ _ pending => simp [scans] at pending
  | opened _ inside =>
    obtain ⟨other, inside⟩ := inside
    cases delivering with
    | looking _ _ unopened _ => exact unopened other inside
    | opening pending _ _ => simp [scans] at pending
    | reading _ pending _ _ _ _ _ => simp [scans] at pending
    | delivered _ pending _ _ _ => simp [scans] at pending
    | mimeless crashed _ => simp [running] at crashed
    | elsewhere pending _ => simp [scans] at pending

/-- **One step.** -/
theorem Pursuing.step (pursuing : Pursuing exchange) (standing : Standing system content exchange)
    (found : finds event = true) (step : exchange.step system registered event = some next) :
    Pursuing next := by
  obtain ⟨stepped, running⟩ := stepped_of_step step
  cases stepped with
  | @callback index event handler serving after connection served other stepped followed =>
    cases standing with
    | waiting unserved _ => simp [unserved] at served
    | @answering answers answered isServed stopped delivering =>
      unfold Pursuing at pursuing ⊢
      rw [isServed] at served pursuing running ⊢
      cases index with
      | succ index => simp at served
      | zero =>
        obtain ⟨rfl, rfl⟩ := Prod.mk.inj (Option.some.inj served)
        intro one inside publishes
        obtain rfl := List.mem_singleton.mp inside
        have sameRequest := Serving.step_request stepped
        rw [sameRequest] at publishes ⊢
        have pursues := pursuing _ (List.mem_singleton_self _) publishes
        refine pursues.step publishes.2.2 ?_ (unscanned_of_pursues pursues delivering
          (running _ (List.mem_singleton_self _))) stepped
        rintro result mode rfl
        simpa [finds, and_assoc] using found
  | network _ _ _ _ => exact pursuing
  | @dispatched event connection after index request handler uncalled stepped entry isHandler
      followed =>
    intro one inside publishes
    rcases List.mem_append.mp inside with old | new
    · exact pursuing one old publishes
    · obtain rfl := List.mem_singleton.mp new
      rw [Serving.handle_request] at publishes ⊢
      exact Serving.handle_pursues publishes.1 publishes.2.1
  | closed stepped =>
    intro one inside publishes
    obtain ⟨before, old, rfl⟩ := List.mem_map.mp inside
    cases pursuing before old publishes with
    | looking file plain runner pending => exact .looking file plain runner pending
    | opened file opens => exact .opened file opens

/-- **What a server publishes.** Every request that is served has gone to the handler of the first file
of the configuration that accepts it; and where its path continues the base of that handler by
ordinary names, the file that continues the folder by the same names is what the client gets. -/
theorem run_published {yaml : YamlCpp} {regex : Bytes → Option (Bytes → Bool)} {files : Files}
    {dir : Bytes} {servers : Servers} {scan : Scan} {table : ServerHandlers} {server : Bytes}
    {timeoutTime : Nat} {events : List ExchangeEvent} {final : Exchange} {handler : FileHandler}
    {serving : Serving} (loaded : loadHandlers yaml regex files dir servers scan = .ok table)
    (ran : run (step system (table server)) (accepted timeoutTime) events = some final)
    (served : (handler, serving) ∈ final.servings) :
    ∃ before file after, configFiles dir scan = before ++ file :: after ∧
      handlerOf yaml regex files dir servers server file = some handler ∧
      handler.shouldHandle serving.request.host serving.request.path = true ∧
      (∀ earlier ∈ before, ∀ other,
        handlerOf yaml regex files dir servers server earlier = some other →
          other.shouldHandle serving.request.host serving.request.path = false) ∧
      ∀ names, Addresses handler serving.request.path names →
        ∃ place : CString, place.bytes = joinAll (split handler.folder ++ names) ∧
          ∀ mimeType content, handler.validateFile place.bytes = true →
            handler.isExecutable place.bytes = false →
            system.mimeType place.bytes = some mimeType →
            (responseHeader resSuccess mimeType).length ≤ 1024 →
            Along (step system (table server)) (Undisturbed content) (accepted timeoutTime) events →
            serving.pending = none →
            final.connection.written = responseHeader resSuccess mimeType ++ content := by
  obtain ⟨entry, dispatched, same⟩ : ∃ entry ∈ final.connection.dispatched,
      (((table server).getD [])[entry.1]?, entry.2) = (some handler, serving.request) :=
    List.mem_map.mp (run_matched ran ▸ List.mem_map_of_mem served)
  obtain ⟨isHandler', isRequest⟩ := Prod.mk.inj same
  obtain ⟨past, isRun⟩ := run_connection ran
  obtain ⟨before, file, after, first, listed, isHandler, accepts, others, position⟩ :=
    Connection.allRouted_of_run loaded isRun _ dispatched
  have isFirst : ((table server).getD [])[entry.1]? = some first := by
    have position : entry.1 = (before.filterMap _).length := position
    rw [getD_table loaded, listed, List.filterMap_append, List.filterMap_cons_some isHandler, position]
    exact List.getElem?_append_right (Nat.le_refl _) |>.trans (by rw [Nat.sub_self]; rfl)
  obtain rfl : first = handler := Option.some.inj (isFirst.symm.trans isHandler')
  rw [isRequest] at accepts others
  refine ⟨before, file, after, listed, isHandler, accepts, others, fun names addresses => ?_⟩
  obtain ⟨kept, plain, joined, same⟩ := mapped_of_addresses addresses
  refine ⟨handed (first.mapped serving.request.path), same.symm ▸ joined, ?_⟩
  rw [same]
  intro mimeType content valid script isMime fits undisturbed rests
  have publishes : Publishes first serving.request := ⟨⟨kept, valid⟩, plain, script⟩
  have ended : (final.connection.Managed ∧ Standing system content final) ∧ Pursuing final :=
    run_invariant (fun exchange =>
        (exchange.connection.Managed ∧ Standing system content exchange) ∧ Pursuing exchange)
      (fun _ _ _ both meets step => ⟨⟨step_managed both.1.1 step,
        both.1.2.step both.1.1 meets.2.1 meets.2.2 step⟩, both.2.step both.1.2 meets.1 step⟩)
      ⟨accepted_standing timeoutTime, fun _ => nofun⟩ undisturbed ran
  have pursues := ended.2 _ served publishes
  have isMime : system.mimeType (cStr serving.file) = some mimeType := by
    rw [pursues.file]
    exact (congrArg system.mimeType same).trans isMime
  cases pursues with
  | looking _ _ _ pending => simp [rests] at pending
  | opened _ inside => exact ended.1.2.written served inside rests isMime fits

/-- A request below the base of the first handler, and the reading of its file. -/
def docsEvents : List ExchangeEvent :=
  [.network (.received (some [1])), .network (.onRead ⟨.ok (text "gemini://h/docs/x\r\n"), 1, true⟩),
    .network .loopTest, .callback 0 (.statDone 0 0o100000), .callback 0 (.openDone 3),
    .network (.record (text "a") .queued), .callback 0 (.readDone 2 (text "hi")),
    .callback 0 (.readDone 1 (text "!i")), .network (.sent 0), .network .onWriteReturns,
    .callback 0 (.readDone 0 []), .callback 0 .closeDone, .network .closed]

/-- The file of `/docs/x` is read in two pieces. -/
theorem run_published_docs : ∃ table final handler serving,
    loadHandlers plainYaml (fun _ => none) Connection.basedFiles (text "/") mainServers twoFiles =
        .ok table ∧
      run (step plainSystem (table (text "/a.yml"))) (accepted 0) docsEvents = some final ∧
      (handler, serving) ∈ final.servings ∧
      final.connection.written = responseHeader resSuccess (text "text/plain") ++ text "hi!" := by
  obtain ⟨table, loaded, final, ran, handler, serving, served, isFolder, isBase, valid, script, isPath,
      undisturbed, rests⟩ :
      ∃ table, loadHandlers plainYaml (fun _ => none) Connection.basedFiles (text "/") mainServers
          twoFiles = .ok table ∧
        ∃ final, run (step plainSystem (table (text "/a.yml"))) (accepted 0) docsEvents = some final ∧
          ∃ handler serving, (handler, serving) ∈ final.servings ∧
            handler.folder = text "/f" ∧ handler.base = text "/docs" ∧
            handler.validateFile (text "/f/x") = true ∧
            handler.isExecutable (text "/f/x") = false ∧ serving.request.path = text "/docs/x" ∧
            Along (step plainSystem (table (text "/a.yml"))) (Undisturbed (text "hi!")) (accepted 0)
              docsEvents ∧ serving.pending = none :=
    ⟨_, rfl, _, rfl, _, _, List.mem_singleton_self _, rfl, rfl, rfl, rfl, rfl, by decide, rfl⟩
  obtain ⟨_, _, _, _, _, _, _, delivers⟩ := run_published loaded ran served
  have addresses : Addresses handler serving.request.path [text "x"] := by
    refine ⟨⟨[text "f"], by decide, .inl (isFolder.trans (by decide))⟩, by decide, [text "docs"],
      .inl (isBase.trans (by decide)), by decide, isPath.trans (by decide)⟩
  obtain ⟨place, joined, delivered⟩ := delivers _ addresses
  have isPlace : place.bytes = text "/f/x" := by
    rw [joined, isFolder]
    decide
  rw [isPlace] at delivered
  exact ⟨table, final, handler, serving, loaded, ran, served,
    delivered (text "text/plain") (text "hi!") valid script rfl (by decide) undisturbed rests⟩

end Exchange

end GemCaps
