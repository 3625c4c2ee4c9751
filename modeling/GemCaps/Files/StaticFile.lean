/-
**Static files are delivered as they are.**

A file that is opened is read piece by piece, each piece from the offset that was asked for; what the
connection has been given is always the success header and the part of the file before that offset
(`Delivering`, one case for each phase). No piece is longer than the 1024 bytes that one `send` passes
on, so nothing waits in the queue of the connection when it is closed.

`run_staticFile`: in a run in which the connection finds no data behind the request line, and neither a
failed read nor a timeout ends it (`Steady`), the file reaches `SSLClient::write` behind the success
header. Data behind the request line is taken for a second request, and the pieces of the two responses
are mixed (`run_staticFile_twice`).
-/

import GemCaps.Connection.Awaiting
import GemCaps.Files.Exchange
import GemCaps.Files.Release

set_option linter.unusedSectionVars false

namespace GemCaps

open Transition

namespace Exchange

variable {system : System} {registered : Option (List FileHandler)} {handler : FileHandler}
  {exchange next : Exchange} {serving after : Serving} {connection final : Connection}
  {content : Bytes}

/-! ### A file that is read -/

/-- What `uv_fs_read` puts into 1024 bytes of buffer from this offset of the file. -/
def ReadsFrom (content : Bytes) (offset : Nat) (result : Int) (data : Bytes) : Prop :=
  content.length ≤ offset ∧ result = 0 ∨
    0 < result ∧ result ≤ 1024 ∧ offset + result.toNat ≤ content.length ∧
      data.take result.toNat = (content.drop offset).take result.toNat

instance (content : Bytes) (offset : Nat) (result : Int) (data : Bytes) :
    Decidable (ReadsFrom content offset result data) :=
  inferInstanceAs (Decidable (_ ∧ _ ∨ _))

/-- The offset the pending read starts from. -/
def readOffset (serving : Serving) : Option Nat :=
  match serving.pending with
  | some (.read _ offset) => some offset
  | _ => none

/-- The file opens, and has this content. -/
def Returns (content : Bytes) (serving : Serving) : ServingEvent → Prop
  | .openDone result => 0 ≤ result
  | .readDone result data => ∀ offset ∈ readOffset serving, ReadsFrom content offset result data
  | .statDone _ _ | .scanDone _ _ | .closeDone | .pipeRead _ _ | .processExit | .pipeClosed
  | .connectionClosed => True

/-- Every file that is asked for opens, and has this content throughout. -/
def Given (content : Bytes) (exchange : Exchange) : ExchangeEvent → Prop
  | .callback index event => ∀ served ∈ exchange.servings[index]?, Returns content served.2 event
  | .network _ => True

/-- Data is read only while the request line is awaited on an open connection; and while a request is
answered, no read fails and no timeout fires. -/
def Steady (exchange : Exchange) : ExchangeEvent → Prop
  | .network (.onRead outcome) =>
    match outcome.result with
    | .ok _ => exchange.connection.client.reading = true ∧ exchange.connection.client.Unclosed
    | .error .failed => exchange.servings = [] ∨ ¬ exchange.connection.client.Unclosed
    | .error .wantRead | .error .wantWrite => True
  | .network .timeout => exchange.servings = [] ∨ ¬ exchange.connection.client.Unclosed
  | .callback _ _ | .network _ => True

instance (client : SSLClient) : Decidable client.Unclosed := inferInstanceAs (Decidable (_ ∧ _))

instance (exchange : Exchange) : Decidable (exchange.servings = []) :=
  decidable_of_iff (exchange.servings.isEmpty = true) List.isEmpty_iff

instance (content : Bytes) (serving : Serving) :
    (event : ServingEvent) → Decidable (Returns content serving event)
  | .openDone result => inferInstanceAs (Decidable (0 ≤ result))
  | .readDone _ _ => inferInstanceAs (Decidable (∀ _ ∈ readOffset serving, _))
  | .statDone _ _ | .scanDone _ _ | .closeDone | .pipeRead _ _ | .processExit | .pipeClosed
  | .connectionClosed => .isTrue trivial

instance (content : Bytes) (exchange : Exchange) :
    (event : ExchangeEvent) → Decidable (Given content exchange event)
  | .callback index _ => inferInstanceAs (Decidable (∀ _ ∈ exchange.servings[index]?, _))
  | .network _ => .isTrue trivial

instance (exchange : Exchange) : (event : ExchangeEvent) → Decidable (Steady exchange event)
  | .network (.onRead ⟨.ok _, _, _⟩) => inferInstanceAs (Decidable (_ ∧ _))
  | .network (.onRead ⟨.error .failed, _, _⟩) | .network .timeout =>
    inferInstanceAs (Decidable (_ ∨ _))
  | .network (.onRead ⟨.error .wantRead, _, _⟩) | .network (.onRead ⟨.error .wantWrite, _, _⟩)
  | .callback _ _ | .network (.received _) | .network .loopTest | .network (.send _)
  | .network .close | .network (.setClientCloseCallback _) | .network (.record _ _)
  | .network .onWriteReturns | .network (.sent _) | .network .closed => .isTrue trivial

/-- No file was opened so far. -/
def Unopened (serving : Serving) : Prop := ∀ path, Action.start (.openFile path) ∉ serving.trace

/-- The phases of a request on its connection. -/
inductive Delivering (system : System) (content : Bytes) (serving : Serving)
    (connection : Connection) : Prop where
  | looking (pending : ∃ path, serving.pending = some (.stat path) ∨
        serving.pending = some (.scandir path))
      (runner : serving.runner = none) (unopened : Unopened serving)
      (flowing : connection.Flowing [])
  | opening {path : CString} (pending : serving.pending = some (.openFile path))
      (runner : serving.runner = none) (flowing : connection.Flowing [])
  | reading {mimeType : Bytes} {body : List Bytes} {fd : Int} {offset : Nat}
      (isMime : system.mimeType (cStr serving.file) = some mimeType)
      (pending : serving.pending = some (.read fd offset))
      (runner : serving.runner = none) (position : serving.offset = offset)
      (flowing : connection.Flowing (responseHeader resSuccess mimeType :: body))
      (soFar : body.flatten = content.take offset)
      (small : ∀ piece ∈ body, piece.length ≤ 1024)
  | delivered {mimeType : Bytes}
      (isMime : system.mimeType (cStr serving.file) = some mimeType)
      (pending : serving.pending = none ∨ ∃ fd, serving.pending = some (.closeFile fd))
      (runner : serving.runner = none) (managed : connection.Managed)
      (written : (responseHeader resSuccess mimeType).length ≤ 1024 →
        connection.written = responseHeader resSuccess mimeType ++ content)
  /-- The type of the file is the null pointer. -/
  | mimeless (crashed : serving.crashed = true)
      (isMime : system.mimeType (cStr serving.file) = none)
  | elsewhere (pending : serving.pending = none) (unopened : Unopened serving)

theorem Unopened.append {before after : Serving} {new : List Action} (unopened : Unopened before)
    (grown : after.trace = before.trace ++ new) (other : ∀ path, Action.start (.openFile path) ∉ new) :
    Unopened after := by
  intro path inside
  rw [grown] at inside
  exact (List.mem_append.mp inside).elim (unopened path) (other path)

theorem Unopened.quietly {before after : Serving} (unopened : Unopened before)
    (quietly : Serving.Quietly before after) : Unopened after := by
  obtain ⟨new, grown, quiet⟩ := quietly.trace
  exact unopened.append grown fun path inside => absurd (quiet _ inside) (by simp [Action.quiet])

/-- **`read_file`** opens the file, or runs it. -/
theorem readFile_delivering (before : Serving) (new : List Action)
    (grown : serving.trace = before.trace ++ new) (quiet : new.filterMap Action.call = [])
    (pending : serving.pending = none) (runner : serving.runner = none) (unopened : Unopened serving)
    (flowing : connection.Flowing [])
    (followed : follow registered connection before (serving.readFile system handler) = some final) :
    Delivering system content (serving.readFile system handler) final := by
  have reading := Serving.readFile_reading system handler serving
  generalize serving.readFile system handler = after at reading followed
  cases reading with
  | quiet quietly => exact .elsewhere (quietly.pending.trans pending) (unopened.quietly quietly)
  | opens plain =>
    have opened : (serving.start (.openFile (handed serving.file))).trace =
        before.trace ++ (new ++ [.start (.openFile (handed serving.file))]) := by
      rw [← List.append_assoc, ← grown]
      rfl
    have silent : (new ++ [Action.start (.openFile (handed serving.file))]).filterMap Action.call =
        [] := by
      rw [List.filterMap_append, quiet]
      rfl
    rw [follow_of_quiet opened silent followed]
    exact .opening rfl runner flowing
  | spawns executable env prepared quietly =>
    refine .elsewhere (quietly.pending.trans (prepared.pending.trans pending)) ?_
    refine Unopened.quietly ?_ quietly
    exact (unopened.quietly prepared).append rfl (by simp)

/-- The loop over the entries calls nothing. -/
theorem scan_uncalled (file : Bytes) (entries : List Dirent) (folders children : List Bytes) :
    (Serving.scan handler file entries folders children).1.filterMap Action.call = [] := by
  induction entries generalizing folders children with
  | nil => rfl
  | cons entry entries ih =>
    simp only [Serving.scan]
    split
    · split
      · rfl
      · exact ih _ _
    · exact ih _ _

/-- **`handle_on_stat`** answers, or goes on to the entries of the directory or to the file. -/
theorem handleOnStat_delivering (result : Int) (mode : Nat) (runner : serving.runner = none)
    (entered : Unopened serving.finish) (flowing : connection.Flowing [])
    (followed : follow registered connection serving
      (serving.finish.handleOnStat system handler result mode) = some final) :
    Delivering system content (serving.finish.handleOnStat system handler result mode) final := by
  rcases Serving.handleOnStat_cases system handler serving.finish result mode with
    ⟨response, same⟩ | ⟨_, same⟩ | ⟨_, same⟩
  · rw [same]
    exact .elsewhere rfl (entered.append rfl (by simp))
  · rw [same] at followed ⊢
    have grown : serving.finish.readDir.trace = serving.trace ++
        [.finish, .start (.scandir (handed serving.file))] := List.append_assoc _ [_] [_]
    rw [follow_of_quiet grown rfl followed]
    exact .looking ⟨_, .inr rfl⟩ runner (entered.append rfl (by simp)) flowing
  · rw [same] at followed ⊢
    exact readFile_delivering serving [.finish] rfl rfl rfl runner entered flowing followed

/-- **`dir_on_scan`** answers, or goes on to an entry. -/
theorem dirOnScan_delivering (result : Int) (entries : List Dirent) (runner : serving.runner = none)
    (entered : Unopened serving.finish) (flowing : connection.Flowing [])
    (followed : follow registered connection serving
      (serving.finish.dirOnScan system handler result entries) = some final) :
    Delivering system content (serving.finish.dirOnScan system handler result entries) final := by
  simp only [Serving.dirOnScan] at followed ⊢
  by_cases failed : result < 0
  · rw [if_pos failed]
    exact .elsewhere rfl (entered.append rfl (by simp))
  rw [if_neg failed] at followed ⊢
  have validates := Serving.scan_actions handler serving.finish.file entries [] []
  have scanned : Unopened (serving.finish.act
      (Serving.scan handler serving.finish.file entries [] []).1) :=
    entered.append rfl fun path inside => absurd (validates _ inside) (by simp [Action.spoken])
  cases ends : (Serving.scan handler serving.finish.file entries [] []).2 with
  | accepted newFile =>
    simp only [ends] at followed ⊢
    exact readFile_delivering serving
      (.finish :: (Serving.scan handler serving.finish.file entries [] []).1)
      (List.append_assoc _ [_] _) (scan_uncalled _ _ _ _) rfl runner scanned flowing followed
  | exhausted folders children =>
    obtain ⟨said, listed, spoken⟩ := Serving.listDirectory_releases handler (serving.finish.act
      (Serving.scan handler serving.finish.file entries [] []).1) folders children
    simp only [listed]
    refine .elsewhere rfl (scanned.append rfl fun path inside => ?_)
    rcases List.mem_append.mp inside with isSaid | isRelease
    · exact absurd (spoken _ isSaid) (by simp [Action.spoken])
    · simp at isRelease

/-- **The callbacks that look for the file.** -/
theorem Delivering.step_of_looking {event : ServingEvent}
    (pending : ∃ path, serving.pending = some (.stat path) ∨ serving.pending = some (.scandir path))
    (runner : serving.runner = none) (unopened : Unopened serving) (flowing : connection.Flowing [])
    (stepped : serving.step system handler event = some after) (other : event ≠ .connectionClosed)
    (followed : follow registered connection serving after = some final) :
    Delivering system content after final := by
  have entered : Unopened serving.finish := unopened.append rfl (by simp)
  cases Serving.stepped_of_step stepped with
  | statDone result mode waits =>
    exact handleOnStat_delivering result mode runner entered flowing followed
  | scanDone result entries waits =>
    exact dirOnScan_delivering result entries runner entered flowing followed
  | openDone result waits => simp [waits] at pending
  | readDone result data waits => simp [waits] at pending
  | closeDone waits => simp [waits] at pending
  | running runs _ _ => exact absurd runner runs
  | connectionClosed => exact absurd rfl other

/-- **`file_on_open`** sends the header. -/
theorem Delivering.step_of_opening {event : ServingEvent} {path : CString}
    (pending : serving.pending = some (.openFile path)) (runner : serving.runner = none)
    (flowing : connection.Flowing []) (returns : Returns content serving event)
    (stepped : serving.step system handler event = some after) (other : event ≠ .connectionClosed)
    (followed : follow registered connection serving after = some final) :
    Delivering system content after final := by
  cases Serving.stepped_of_step stepped with
  | openDone result waits =>
    have succeeds : ¬ result < 0 := Int.not_lt.mpr returns
    simp only [Serving.fileOnOpen, if_neg succeeds] at followed ⊢
    cases isMime : system.mimeType (cStr serving.finish.file) with
    | none =>
      exact .mimeless rfl isMime
    | some mimeType =>
      simp only [isMime] at followed ⊢
      have sent := follow_of_call
        [.finish, .acquire .descriptor, .acquire .buffer,
          .send (responseHeader resSuccess mimeType), .start (.read result 0)]
        (.send (responseHeader resSuccess mimeType))
        (by simp [Serving.act, Serving.start, Serving.finish]) rfl followed
      have sending : final.Flowing [responseHeader resSuccess mimeType] := flowing.after rfl sent
      exact .reading isMime rfl runner rfl sending rfl (by simp)
  | statDone _ _ waits | scanDone _ _ waits | readDone _ _ waits | closeDone waits =>
    simp [pending] at waits
  | running runs _ _ => exact absurd runner runs
  | connectionClosed => exact absurd rfl other

/-- **`file_on_read`** sends the next piece of the file, or closes at its end. -/
theorem Delivering.step_of_reading {event : ServingEvent} {mimeType : Bytes} {body : List Bytes}
    {fd : Int} {offset : Nat} (isMime : system.mimeType (cStr serving.file) = some mimeType)
    (pending : serving.pending = some (.read fd offset)) (runner : serving.runner = none)
    (position : serving.offset = offset)
    (flowing : connection.Flowing (responseHeader resSuccess mimeType :: body))
    (soFar : body.flatten = content.take offset) (small : ∀ piece ∈ body, piece.length ≤ 1024)
    (returns : Returns content serving event)
    (stepped : serving.step system handler event = some after) (other : event ≠ .connectionClosed)
    (followed : follow registered connection serving after = some final) :
    Delivering system content after final := by
  cases Serving.stepped_of_step stepped with
  | readDone result data waits =>
    have reads : ReadsFrom content offset result data := returns offset (by simp [readOffset, pending])
    simp only [Serving.fileOnRead] at followed ⊢
    rcases reads with ⟨atEnd, rfl⟩ | ⟨positive, bound, room, piece⟩
    · rw [if_pos (Int.le_refl 0)] at followed ⊢
      have closed := follow_of_call
        [.finish, .close, .release .descriptor, .start (.closeFile serving.fd)] .close
        (by simp [Serving.act, Serving.start, Serving.finish]) rfl followed
      refine .delivered isMime (.inr ⟨_, rfl⟩) runner (flowing.managed.step closed) fun fits => ?_
      rw [Connection.step_written flowing.managed rfl closed,
        flowing.written (List.forall_mem_cons.mpr ⟨fits, small⟩), List.flatten_cons, soFar,
        List.take_of_length_le atEnd]
    · rw [if_neg (Int.not_le.mpr positive)] at followed ⊢
      have sent := follow_of_call
        [.finish, .send (data.take result.toNat),
          .start (.read serving.fd (serving.offset + result.toNat))]
        (.send (data.take result.toNat))
        (by simp [Serving.act, Serving.start, Serving.finish]) rfl followed
      have sending : final.Flowing
          (responseHeader resSuccess mimeType :: (body ++ [data.take result.toNat])) :=
        flowing.after rfl sent
      have grown : (body ++ [data.take result.toNat]).flatten =
          content.take (offset + result.toNat) := by
        rw [List.flatten_append, soFar, List.flatten_singleton, piece, ← List.take_add]
      refine .reading isMime rfl runner rfl sending (position ▸ grown) ?_
      refine List.forall_mem_append.mpr ⟨small, fun last isLast => ?_⟩
      rw [List.mem_singleton.mp isLast, List.length_take]
      omega
  | statDone _ _ waits | scanDone _ _ waits | openDone _ waits | closeDone waits =>
    simp [pending] at waits
  | running runs _ _ => exact absurd runner runs
  | connectionClosed => exact absurd rfl other

/-- **A callback of the request.** -/
theorem Delivering.step_of_callback {event : ServingEvent}
    (delivering : Delivering system content serving connection)
    (returns : Returns content serving event)
    (stepped : serving.step system handler event = some after) (other : event ≠ .connectionClosed)
    (followed : follow registered connection serving after = some final) :
    Delivering system content after final := by
  cases delivering with
  | looking pending runner unopened flowing =>
    exact step_of_looking pending runner unopened flowing stepped other followed
  | opening pending runner flowing =>
    exact step_of_opening pending runner flowing returns stepped other followed
  | reading isMime pending runner position flowing soFar small =>
    exact step_of_reading isMime pending runner position flowing soFar small returns stepped
      other followed
  | delivered isMime pending runner managed written =>
    cases Serving.stepped_of_step stepped with
    | closeDone waits =>
      rw [follow_of_quiet (show _ = _ ++ [Action.finish] from rfl) rfl followed]
      exact .delivered isMime (.inl rfl) runner managed written
    | statDone _ _ waits | scanDone _ _ waits | openDone _ waits | readDone _ _ waits =>
      simp [waits] at pending
    | running runs _ _ => exact absurd runner runs
    | connectionClosed => exact absurd rfl other
  | mimeless crashed isMime =>
    rw [Serving.step_of_crashed crashed] at stepped
    cases stepped
  | elsewhere pending unopened =>
    cases Serving.stepped_of_step stepped with
    | running runs quietly _ =>
      exact .elsewhere (quietly.pending.trans pending) (unopened.quietly quietly)
    | statDone _ _ waits | scanDone _ _ waits | openDone _ waits | readDone _ _ waits
    | closeDone waits => simp [pending] at waits
    | connectionClosed => exact absurd rfl other

/-- **A step of the network** that keeps the flow and writes nothing. -/
theorem Delivering.network (delivering : Delivering system content serving connection)
    (flows : ∀ arrived, connection.Flowing arrived → final.Flowing arrived)
    (managed : final.Managed) (unwritten : final.written = connection.written) :
    Delivering system content serving final := by
  cases delivering with
  | looking pending runner unopened flowing =>
    exact .looking pending runner unopened (flows _ flowing)
  | opening pending runner flowing => exact .opening pending runner (flows _ flowing)
  | reading isMime pending runner position flowing soFar small =>
    exact .reading isMime pending runner position (flows _ flowing) soFar small
  | delivered isMime pending runner _ written =>
    exact .delivered isMime pending runner managed fun fits => unwritten.trans (written fits)
  | mimeless crashed isMime => exact .mimeless crashed isMime
  | elsewhere pending unopened => exact .elsewhere pending unopened

/-- The close callback of the connection does not reach the request. -/
theorem Delivering.onClose (delivering : Delivering system content serving connection) :
    Delivering system content (serving.onClose .manager) connection := by
  cases delivering with
  | looking pending runner unopened flowing => exact .looking pending runner unopened flowing
  | opening pending runner flowing => exact .opening pending runner flowing
  | reading isMime pending runner position flowing soFar small =>
    exact .reading isMime pending runner position flowing soFar small
  | delivered isMime pending runner managed written =>
    exact .delivered isMime pending runner managed written
  | mimeless crashed isMime => exact .mimeless crashed isMime
  | elsewhere pending unopened => exact .elsewhere pending unopened

/-- **A step of the network while a request is answered.** -/
theorem Delivering.step_of_network {event : ConnectionEvent} (managed : exchange.connection.Managed)
    (stopped : exchange.connection.client.reading = false) (filled : exchange.servings ≠ [])
    (delivering : Delivering system content serving exchange.connection)
    (steady : Steady exchange (.network event)) (uncalled : event.isCall = false)
    (stepped : exchange.connection.step (handlers registered) event = some connection) :
    Delivering system content serving connection := by
  have flowsOn : event.flows = true → event.payload = none → event.sends = false →
      Delivering system content serving connection := fun flows unsent silent =>
    delivering.network (fun arrived flowing => by simpa [unsent] using flowing.after flows stepped)
      (managed.step stepped) (Connection.step_written managed silent stepped)
  have ended : ¬ exchange.connection.client.Unclosed →
      connection.written = exchange.connection.written →
        Delivering system content serving connection := fun closes unwritten =>
    delivering.network (fun _ flowing => absurd flowing.unclosed closes) (managed.step stepped)
      unwritten
  cases event with
  | loopTest | record _ _ | onWriteReturns | sent _ => exact flowsOn rfl rfl rfl
  | received nread =>
    obtain ⟨⟨_, listens, _⟩, _⟩ := Option.ite_none_right_eq_some.mp stepped
    exact absurd (stopped.symm.trans listens) (by decide)
  | onRead outcome =>
    obtain ⟨result, consumed, wantRead⟩ := outcome
    cases result with
    | ok data => exact absurd (stopped.symm.trans steady.1) (by decide)
    | error error =>
      have unwritten := Connection.written_of_failed rfl stepped
      cases error with
      | failed => exact ended (steady.resolve_left filled) unwritten
      | wantRead | wantWrite =>
        exact delivering.network (fun _ flowing => flowing.waits rfl (by decide) stepped)
          (managed.step stepped) unwritten
  | timeout =>
    exact ended (steady.resolve_left filled) (Connection.step_written managed rfl stepped)
  | closed =>
    exact delivering.network (fun _ flowing => absurd stepped flowing.not_closed)
      (managed.step stepped) (Connection.step_written managed rfl stepped)
  | send _ | close | setClientCloseCallback _ => cases uncalled

/-- `Handler::handle` looks for the file, or has answered. -/
theorem handle_delivering {request : Request} (flowing : connection.Flowing [])
    (followed : follow registered connection { request } (Serving.handle handler request) =
      some final) : Delivering system content (Serving.handle handler request) final := by
  by_cases admitted : Serving.Admitted handler request
  · rw [Serving.handle_of_admitted admitted] at followed ⊢
    have registers := follow_of_call _
      (.setClientCloseCallback CloseCallback.onClientClosed.registration)
      (List.nil_append _).symm rfl followed
    refine .looking ⟨_, .inl rfl⟩ rfl (fun path inside => ?_) (flowing.after rfl registers)
    simp at inside
  · obtain ⟨trace, same, isTrace⟩ := Serving.handle_of_not_admitted admitted
    rw [same]
    refine .elsewhere rfl fun path inside => ?_
    rcases isTrace with rfl | rfl <;> simp at inside

/-! ### The whole connection -/

/-- A connection waits for its request, or answers one. -/
inductive Standing (system : System) (content : Bytes) (exchange : Exchange) : Prop where
  | waiting (unserved : exchange.servings = [])
      (ready : exchange.connection.client.Unclosed → exchange.connection.Flowing [])
  | answering {handler : FileHandler} {serving : Serving}
      (served : exchange.servings = [(handler, serving)])
      (stopped : exchange.connection.client.reading = false)
      (delivering : Delivering system content serving exchange.connection)

/-- **One step.** -/
theorem Standing.step {event : ExchangeEvent} (managed : exchange.connection.Managed)
    (standing : Standing system content exchange) (given : Given content exchange event)
    (steady : Steady exchange event) (step : exchange.step system registered event = some next) :
    Standing system content next := by
  cases (stepped_of_step step).1 with
  | @callback index event handler serving after connection served other stepped followed =>
    cases standing with
    | waiting unserved _ => simp [unserved] at served
    | answering isServed stopped delivering =>
      have returns := given _ served
      rw [isServed] at served ⊢
      cases index with
      | succ index => simp at served
      | zero =>
        obtain ⟨rfl, rfl⟩ := Prod.mk.inj (Option.some.inj served)
        exact .answering rfl (Connection.run_stopped managed stopped followed)
          (delivering.step_of_callback returns stepped other followed)
  | @network event connection uncalled other stepped undispatched =>
    cases standing with
    | waiting unserved ready =>
      have silent : event.payload = none := by cases event <;> first | rfl | cases uncalled
      exact .waiting unserved fun unclosed =>
        (ready ((Connection.step_later managed stepped).unclosed unclosed)).awaits silent stepped
          unclosed
    | answering isServed stopped delivering =>
      exact .answering isServed (Connection.step_stopped managed stopped stepped)
        (delivering.step_of_network managed stopped (by simp [isServed]) steady uncalled stepped)
  | @dispatched event connection after index request handler uncalled stepped entry isHandler
      followed =>
    have grown : exchange.connection.dispatched.length < connection.dispatched.length :=
      (List.getElem?_eq_some_iff.mp entry).1
    obtain ⟨⟨outcome, data, rfl, isData⟩, stops, stays⟩ :=
      Connection.dispatched_of_step managed stepped grown
    have listens : exchange.connection.client.reading = true ∧
        exchange.connection.client.Unclosed := by
      simpa only [Steady, isData] using steady
    cases standing with
    | waiting unserved ready =>
      rw [unserved]
      have flowing := (ready listens.2).awaits rfl stepped (stays listens.2)
      exact .answering rfl (Connection.run_stopped (managed.step stepped) stops followed)
        (handle_delivering flowing followed)
    | answering _ stopped _ => exact absurd (stopped.symm.trans listens.1) (by decide)
  | @closed connection stepped =>
    cases standing with
    | waiting unserved ready =>
      rw [unserved]
      exact .waiting rfl fun unclosed => absurd stepped
        (ready ((Connection.step_later managed stepped).unclosed unclosed)).not_closed
    | answering isServed stopped delivering =>
      rw [isServed]
      exact .answering rfl (Connection.step_stopped managed stopped stepped)
        (delivering.step_of_network managed stopped (by simp [isServed]) steady rfl stepped).onClose

theorem accepted_standing (timeoutTime : Nat) : (accepted timeoutTime).connection.Managed ∧
    Standing system content (accepted timeoutTime) :=
  ⟨Connection.accept_managed timeoutTime, .waiting rfl fun _ =>
    (Connection.accept_unsent timeoutTime).flowing (Connection.accept_managed timeoutTime)⟩

/-- The assumptions and the condition, at every step. -/
theorem run_standing {timeoutTime : Nat} {events : List ExchangeEvent} {final : Exchange}
    (ran : run (step system registered) (accepted timeoutTime) events = some final)
    (given : Along (step system registered) (Given content) (accepted timeoutTime) events)
    (steady : Along (step system registered) Steady (accepted timeoutTime) events) :
    Standing system content final :=
  (run_invariant (fun exchange => exchange.connection.Managed ∧ Standing system content exchange)
    (fun _ _ _ both meets step => ⟨step_managed both.1 step,
      both.2.step both.1 meets.1 meets.2 step⟩)
    (accepted_standing timeoutTime) (along_and _ given steady) ran).2

/-- What a request that rests after opening a file has written. -/
theorem Standing.written {mimeType : Bytes} (standing : Standing system content exchange)
    (served : (handler, serving) ∈ exchange.servings)
    (opened : ∃ path, Action.start (.openFile path) ∈ serving.trace)
    (rests : serving.pending = none)
    (isMime : system.mimeType (cStr serving.file) = some mimeType)
    (fits : (responseHeader resSuccess mimeType).length ≤ 1024) :
    exchange.connection.written = responseHeader resSuccess mimeType ++ content := by
  cases standing with
  | waiting unserved _ => simp [unserved] at served
  | answering isServed _ delivering =>
    rw [isServed, List.mem_singleton] at served
    obtain ⟨rfl, rfl⟩ := Prod.mk.inj served
    cases delivering with
    | looking pending _ _ _ => simp [rests] at pending
    | opening pending _ _ => simp [rests] at pending
    | reading _ pending _ _ _ _ _ => simp [rests] at pending
    | delivered isType _ _ _ written =>
      obtain rfl := Option.some.inj (isType.symm.trans isMime)
      exact written fits
    | mimeless _ isNull => exact absurd (isNull.symm.trans isMime) (by simp)
    | elsewhere _ unopened =>
      obtain ⟨path, inside⟩ := opened
      exact absurd inside (unopened path)

/-- **A static file is delivered as it is**, when nothing is read behind the request line and nothing
else ends the connection. -/
theorem run_staticFile {timeoutTime : Nat} {events : List ExchangeEvent} {final : Exchange}
    {handler : FileHandler} {serving : Serving} {mimeType : Bytes}
    (ran : run (step system registered) (accepted timeoutTime) events = some final)
    (given : Along (step system registered) (Given content) (accepted timeoutTime) events)
    (steady : Along (step system registered) Steady (accepted timeoutTime) events)
    (served : (handler, serving) ∈ final.servings)
    (opened : ∃ path, Action.start (.openFile path) ∈ serving.trace)
    (rests : serving.pending = none)
    (isMime : system.mimeType (cStr serving.file) = some mimeType)
    (fits : (responseHeader resSuccess mimeType).length ≤ 1024) :
    final.connection.written = responseHeader resSuccess mimeType ++ content :=
  (run_standing ran given steady).written served opened rests isMime fits

/-- The handlers of a server with one folder. -/
def oneFolder : Option (List FileHandler) := some [Serving.listingHandler]

/-- The request line, and the beginning of a record behind it; the file is read in two pieces, with a
record of the TLS layer in between. -/
def readingEvents : List ExchangeEvent :=
  [.network (.received (some [1, 2])), .network (.onRead ⟨.ok (text "gemini://h/a\r\n"), 1, false⟩),
    .network .loopTest, .network (.onRead ⟨.error .wantRead, 1, true⟩), .network .loopTest,
    .callback 0 (.statDone 0 0o100000), .callback 0 (.openDone 3),
    .network (.record (text "a") .queued), .callback 0 (.readDone 2 (text "hi")),
    .callback 0 (.readDone 1 (text "!i")), .network (.sent 0), .network .onWriteReturns,
    .callback 0 (.readDone 0 []), .callback 0 .closeDone, .network .closed]

theorem run_staticFile_pieces : ∃ final,
    run (step plainSystem oneFolder) (accepted 0) readingEvents = some final ∧
    final.connection.written = responseHeader resSuccess (text "text/plain") ++ text "hi!" :=
  ⟨_, rfl, run_staticFile
    (show run (step plainSystem oneFolder) (accepted 0) readingEvents = some _ from rfl)
    (by decide) (by decide) (List.mem_singleton_self _) ⟨handed (text "/srv/a"), by decide⟩ rfl rfl
    (by decide)⟩

/-- The request line and another record in one reception: both requests open the file before either
of them closes the connection. -/
def twiceEvents : List ExchangeEvent :=
  [.network (.received (some [1, 2])), .network (.onRead ⟨.ok (text "gemini://h/a\r\n"), 1, false⟩),
    .network .loopTest, .network (.onRead ⟨.ok (text "x"), 1, true⟩), .network .loopTest,
    .callback 0 (.statDone 0 0o100000), .callback 1 (.statDone 0 0o100000), .callback 0 (.openDone 3),
    .callback 1 (.openDone 4), .callback 0 (.readDone 3 (text "hi!")),
    .callback 1 (.readDone 3 (text "hi!")), .callback 0 (.readDone 0 []),
    .callback 1 (.readDone 0 []), .callback 0 .closeDone, .callback 1 .closeDone, .network .closed]

/-- The header and the content are written twice. -/
theorem run_staticFile_twice : ∃ final,
    run (step plainSystem oneFolder) (accepted 0) twiceEvents = some final ∧
    Along (step plainSystem oneFolder) (Given (text "hi!")) (accepted 0) twiceEvents ∧
    final.servings ≠ [] ∧
    (∀ served ∈ final.servings,
      .start (.openFile (handed (text "/srv/a"))) ∈ served.2.trace ∧ served.2.pending = none) ∧
    final.connection.written = responseHeader resSuccess (text "text/plain") ++
      responseHeader resSuccess (text "text/plain") ++ text "hi!" ++ text "hi!" ∧
    final.connection.written ≠ responseHeader resSuccess (text "text/plain") ++ text "hi!" := by
  refine ⟨_, rfl, by decide, ?_, ?_, ?_, ?_⟩
  · decide
  · decide
  · decide
  · decide

end Exchange

end GemCaps
