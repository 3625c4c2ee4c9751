/-
**A connection that waits for its request line.**

* `step_later`: a connection that does not listen any more never listens again, and one that is being
  closed stays so.
* `Flowing.awaits`: what is read from a connection that stays open sends nothing.
* `dispatched_of_step`: a request is dispatched by a read that finds data; it ends the listening, and
  leaves an open connection open.
-/

import GemCaps.Connection.Delivery
import GemCaps.Connection.Dispatch

set_option linter.unusedSectionVars false

namespace GemCaps

open Transition

namespace SSLClient

variable {client next last : SSLClient}

/-! ### What is over stays over -/

/-- Whoever listens now has listened before, and whoever is open now was open before. -/
structure Later (client next : SSLClient) : Prop where
  reading : next.reading = true → client.reading = true
  unclosed : next.Unclosed → client.Unclosed

theorem Later.trans (first : client.Later next) (second : next.Later last) : client.Later last :=
  ⟨fun reading => first.reading (second.reading reading),
    fun unclosed => first.unclosed (second.unclosed unclosed)⟩

theorem later_of_same (reading : next.reading = client.reading)
    (closing : next.closing = client.closing) (queuedClose : next.queuedClose = client.queuedClose) :
    client.Later next := by
  refine ⟨fun listens => reading ▸ listens, fun unclosed => ⟨?_, ?_⟩⟩
  · exact closing ▸ unclosed.1
  · exact queuedClose ▸ unclosed.2

theorem not_unclosed_close : ¬ client.close.Unclosed := by
  rintro ⟨closing, queuedClose⟩
  unfold close at closing queuedClose
  split at queuedClose
  · cases queuedClose
  · next now =>
    rw [if_neg now] at closing
    cases closing

theorem not_unclosed_crash : ¬ client.crash.Unclosed := by
  rintro ⟨closing, _⟩
  cases closing

theorem close_later : client.Later client.close := by
  refine ⟨fun listens => ?_, fun unclosed => absurd unclosed not_unclosed_close⟩
  unfold close at listens
  split at listens <;> exact listens

theorem stopListening_later : client.Later client.stopListening := by
  refine ⟨fun listens => ?_, id⟩
  cases listens

theorem crash_later : client.Later client.crash :=
  ⟨id, fun unclosed => absurd unclosed not_unclosed_crash⟩

theorem resetTimeout_later : client.Later client.resetTimeout := by
  unfold SSLClient.resetTimeout
  split <;> exact later_of_same rfl rfl rfl

theorem onSendEnd_later : client.Later client.onSendEnd := by
  unfold onSendEnd
  split
  · exact close_later
  · exact later_of_same rfl rfl rfl

theorem notify_later : client.Later client.notify := by
  rcases client.notify_cases with ⟨_, same⟩ | ⟨_, _, same⟩ | ⟨_, _, same⟩
  · rw [same]
    exact later_of_same rfl rfl rfl
  · rw [same]
    exact later_of_same rfl rfl rfl
  · rw [same]
    exact onSendEnd_later

theorem send_later (data : Bytes) (outcome : Outcome) : client.Later (client.send data outcome) := by
  have registered : client.Later (client.resetTimeout.register data) :=
    resetTimeout_later.trans (later_of_same rfl rfl rfl)
  cases outcome with
  | wrote written =>
    have forgotten : (client.resetTimeout.register data).Later
        ((client.resetTimeout.register data).forget client.nextRequest) := later_of_same rfl rfl rfl
    exact registered.trans (forgotten.trans notify_later)
  | queued => exact registered.trans (later_of_same rfl rfl rfl)
  | refused => exact registered

/-- **One step of the client.** -/
theorem step_later {event : ClientEvent} (step : client.step event = some next) :
    client.Later next := by
  cases stepped_of_step step with
  | send data outcome isOpen => exact send_later data outcome
  | close => exact close_later
  | crash => exact crash_later
  | setTimeout time => exact later_of_same rfl rfl rfl
  | onWriteReturns running => exact onSendEnd_later.trans (later_of_same rfl rfl rfl)
  | sent request idle isOwed =>
    have forgotten : client.Later
        (({ client with owed := client.owed.erase request } : SSLClient).forget request) :=
      later_of_same rfl rfl rfl
    exact forgotten.trans notify_later
  | timeout idle armed =>
    have unarmed : client.Later { client with timer := none } := later_of_same rfl rfl rfl
    exact unarmed.trans crash_later
  | closed idle alive closing completed =>
    refine ⟨fun listens => ?_, id⟩
    cases listens

end SSLClient

namespace Connection

variable {connection next : Connection} {handlers : Handlers} {event : ConnectionEvent}

theorem dispatch_later {client : SSLClient} (same : connection.client = client)
    (gemini : GeminiConnection) : client.Later (connection.dispatch handlers gemini).client := by
  subst same
  unfold dispatch
  cases handlers with
  | none => exact SSLClient.crash_later
  | some handlers =>
    cases found : handlers.findIdx? fun shouldHandle =>
        shouldHandle gemini.request.host gemini.request.path with
    | some index =>
      simp only [found]
      exact SSLClient.later_of_same rfl rfl rfl
    | none =>
      simp only [found, send_client]
      exact SSLClient.close_later

theorem onRead_later (gemini : GeminiConnection) (outcome : ReadOutcome) :
    connection.client.Later (connection.onRead handlers gemini outcome).client := by
  have taken : connection.client.Later { connection.client with
      buffer := (connection.client.buffer.read outcome.consumed).1 } :=
    SSLClient.later_of_same rfl rfl rfl
  refine taken.trans ?_
  unfold onRead
  cases outcome.result with
  | error error => cases error <;> first | exact SSLClient.crash_later | exact ⟨id, id⟩
  | ok data =>
    simp only [onHeader]
    split
    · exact SSLClient.crash_later
    · split
      · exact ⟨id, id⟩
      · split
        · exact SSLClient.stopListening_later.trans SSLClient.crash_later
        · refine SSLClient.stopListening_later.trans (dispatch_later ?_ _)
          rfl

/-- **One step of the connection.** -/
theorem step_later (managed : connection.Managed) (step : connection.step handlers event = some next) :
    connection.client.Later next.client := by
  have ofClient : ∀ clientEvent, connection.clientStep clientEvent = some next →
      connection.client.Later next.client := by
    intro clientEvent same
    rw [managed.clientStep, Option.map_eq_some_iff] at same
    obtain ⟨client, isClient, rfl⟩ := same
    exact SSLClient.step_later isClient
  cases event with
  | received nread =>
    obtain ⟨_, same⟩ := Option.ite_none_right_eq_some.mp step
    cases nread with
    | none => exact Option.some.inj same ▸ SSLClient.close_later
    | some ciphertext =>
      have filled : connection.client.resetTimeout.Later { connection.client.resetTimeout with
          buffer := connection.client.resetTimeout.buffer.write ciphertext } :=
        SSLClient.later_of_same rfl rfl rfl
      exact Option.some.inj same ▸ SSLClient.resetTimeout_later.trans filled
  | onRead outcome =>
    simp only [Connection.step] at step
    split at step
    · cases step
    · obtain ⟨_, same⟩ := Option.ite_none_right_eq_some.mp step
      exact Option.some.inj same ▸ onRead_later _ outcome
  | loopTest =>
    obtain ⟨_, same⟩ := Option.ite_none_right_eq_some.mp step
    exact Option.some.inj same ▸ ⟨id, id⟩
  | send data =>
    obtain ⟨gemini, isOpen, rfl⟩ := Option.map_eq_some_iff.mp step
    rw [send_client]
    exact ⟨id, id⟩
  | close =>
    obtain ⟨_, _, rfl⟩ := Option.map_eq_some_iff.mp step
    exact SSLClient.close_later
  | setClientCloseCallback registration =>
    obtain ⟨gemini, isOpen, rfl⟩ := Option.map_eq_some_iff.mp step
    exact ⟨id, id⟩
  | record data outcome => exact ofClient _ step
  | onWriteReturns => exact ofClient _ step
  | sent request => exact ofClient _ (Option.ite_none_right_eq_some.mp step).2
  | timeout => exact ofClient _ (Option.ite_none_right_eq_some.mp step).2
  | closed =>
    obtain ⟨_, same⟩ := Option.ite_none_right_eq_some.mp step
    obtain ⟨client, isClient, rfl⟩ := Option.map_eq_some_iff.mp same
    exact SSLClient.step_later isClient

/-- **A connection that does not listen any more.** -/
theorem step_stopped (managed : connection.Managed) (stopped : connection.client.reading = false)
    (step : connection.step handlers event = some next) : next.client.reading = false := by
  cases listens : next.client.reading with
  | false => rfl
  | true => exact absurd (stopped.symm.trans ((step_later managed step).reading listens)) (by decide)

theorem run_stopped {events : List ConnectionEvent} (managed : connection.Managed)
    (stopped : connection.client.reading = false)
    (ran : run (step handlers) connection events = some next) : next.client.reading = false :=
  (run_always (fun connection => connection.Managed ∧ connection.client.reading = false)
    (fun _ _ _ both step => ⟨both.1.step step, step_stopped both.1 both.2 step⟩)
    ⟨managed, stopped⟩ ran).2

/-! ### Reading the request line -/

/-- Nothing of the flow has changed. -/
theorem Flowing.of_same {arrived : List Bytes} (flowing : connection.Flowing arrived)
    {gemini other : GeminiConnection} (isOpen : connection.gemini = some gemini)
    (isNext : next.gemini = some other) (buffer : other.buffer = gemini.buffer)
    (written : next.written = connection.written)
    (context : next.client.context = connection.client.context)
    (unclosed : next.client.Unclosed) : next.Flowing arrived := by
  obtain ⟨known, same, bufferOpen, queue⟩ := flowing.queue
  obtain rfl : gemini = known := Option.some.inj (isOpen.symm.trans same)
  exact ⟨context.trans flowing.managed, unclosed, other, isNext, buffer ▸ bufferOpen,
    buffer ▸ written ▸ queue⟩

theorem Flowing.dispatch (flowing : connection.Flowing []) {gemini other : GeminiConnection}
    (isOpen : connection.gemini = some gemini)
    (unclosed : (connection.dispatch handlers other).client.Unclosed) :
    (connection.dispatch handlers other).Flowing [] := by
  unfold Connection.dispatch at unclosed ⊢
  cases handlers with
  | none => exact absurd unclosed SSLClient.not_unclosed_crash
  | some handlers =>
    cases found : handlers.findIdx? fun shouldHandle =>
        shouldHandle other.request.host other.request.path with
    | some index =>
      simp only [found]
      exact flowing.of_same isOpen isOpen rfl rfl rfl flowing.unclosed
    | none =>
      simp only [found] at unclosed
      exact absurd unclosed SSLClient.not_unclosed_close

/-- What `on_read` makes of a connection on which nothing was sent. -/
theorem Flowing.onRead (flowing : connection.Flowing []) {gemini : GeminiConnection}
    (isOpen : connection.gemini = some gemini) (outcome : ReadOutcome)
    (unclosed : (connection.onRead handlers gemini outcome).client.Unclosed) :
    (connection.onRead handlers gemini outcome).Flowing [] := by
  unfold Connection.onRead at unclosed ⊢
  cases result : outcome.result with
  | error error =>
    simp only [result] at unclosed ⊢
    cases error with
    | failed => exact absurd unclosed SSLClient.not_unclosed_crash
    | wantRead | wantWrite => exact flowing.of_same isOpen isOpen rfl rfl rfl flowing.unclosed
  | ok data =>
    simp only [result, onHeader] at unclosed ⊢
    split at unclosed
    · exact absurd unclosed SSLClient.not_unclosed_crash
    next fits =>
    rw [if_neg fits]
    split at unclosed
    · exact flowing.of_same isOpen rfl rfl rfl rfl flowing.unclosed
    next pos isPos =>
    split at unclosed
    · exact absurd unclosed SSLClient.not_unclosed_crash
    next request parsed =>
    refine Flowing.dispatch ?_ rfl unclosed
    exact flowing.of_same isOpen rfl rfl rfl rfl flowing.unclosed

/-- **What is read from a connection that stays open sends nothing.** -/
theorem Flowing.awaits (flowing : connection.Flowing []) (silent : event.payload = none)
    (step : connection.step handlers event = some next) (unclosed : next.client.Unclosed) :
    next.Flowing [] := by
  have flows : event.flows = true → next.Flowing [] := by
    intro flows
    have kept := flowing.after flows step
    rwa [silent] at kept
  cases event with
  | loopTest | send _ | setClientCloseCallback _ | record _ _ | onWriteReturns | sent _ =>
    exact flows rfl
  | received nread =>
    obtain ⟨gemini, isOpen, _⟩ := flowing.queue
    obtain ⟨_, same⟩ := Option.ite_none_right_eq_some.mp step
    cases nread with
    | none =>
      obtain rfl := Option.some.inj same
      exact absurd unclosed SSLClient.not_unclosed_close
    | some ciphertext =>
      obtain rfl := Option.some.inj same
      exact flowing.of_same isOpen isOpen rfl rfl connection.client.resetTimeout_context unclosed
  | onRead outcome =>
    simp only [Connection.step] at step
    split at step
    · cases step
    · next gemini isOpen =>
      obtain ⟨_, same⟩ := Option.ite_none_right_eq_some.mp step
      obtain rfl := Option.some.inj same
      have read := flowing.onRead isOpen outcome unclosed
      exact ⟨read.managed, read.unclosed, read.queue⟩
  | close =>
    obtain ⟨_, _, rfl⟩ := Option.map_eq_some_iff.mp step
    exact absurd unclosed SSLClient.not_unclosed_close
  | timeout =>
    have crashes := (Option.ite_none_right_eq_some.mp step).2
    rw [flowing.managed.clientStep, Option.map_eq_some_iff] at crashes
    obtain ⟨client, isClient, rfl⟩ := crashes
    cases SSLClient.stepped_of_step isClient with
    | timeout _ _ => exact absurd unclosed SSLClient.not_unclosed_crash
  | closed => exact absurd step flowing.not_closed

/-! ### Reads of every outcome -/

theorem onHeader_grown {gemini : GeminiConnection}
    (grown : connection.dispatched.length <
      (connection.onHeader handlers gemini).dispatched.length) :
    (connection.onHeader handlers gemini).client = connection.client.stopListening := by
  simp only [onHeader] at grown ⊢
  split at grown
  · exact absurd grown (Nat.lt_irrefl _)
  next fits =>
  rw [if_neg fits]
  split at grown
  · exact absurd grown (Nat.lt_irrefl _)
  next pos isPos =>
  split at grown
  · exact absurd grown (Nat.lt_irrefl _)
  next request parsed =>
  unfold Connection.dispatch at grown ⊢
  cases handlers with
  | none => exact absurd grown (Nat.lt_irrefl _)
  | some handlers =>
    cases found : handlers.findIdx? fun shouldHandle => shouldHandle request.host request.path with
    | some index => simp only [found]
    | none =>
      simp only [found, send_dispatched] at grown
      exact absurd grown (Nat.lt_irrefl _)

/-- **A request is dispatched by a read that finds data**; it ends the listening, and leaves an open
connection open. -/
theorem dispatched_of_step (managed : connection.Managed)
    (step : connection.step handlers event = some next)
    (grown : connection.dispatched.length < next.dispatched.length) :
    (∃ outcome data, event = .onRead outcome ∧ outcome.result = .ok data) ∧
      next.client.reading = false ∧ (connection.client.Unclosed → next.client.Unclosed) := by
  rcases step_grows managed step with same | ⟨outcome, entry, rfl, _⟩
  · exact absurd grown (by simp [same])
  simp only [Connection.step] at step
  split at step
  · cases step
  next gemini isOpen =>
  obtain ⟨_, same⟩ := Option.ite_none_right_eq_some.mp step
  obtain rfl := Option.some.inj same
  cases result : outcome.result with
  | error error =>
    have kept : (connection.onRead handlers gemini outcome).dispatched = connection.dispatched :=
      (onRead_dispatched handlers gemini outcome).2 (by simp [Refused, result])
    exact absurd grown (by simp [kept])
  | ok data =>
    have stops : (connection.onRead handlers gemini outcome).client =
        ({ connection.client with
          buffer := (connection.client.buffer.read outcome.consumed).1 } : SSLClient).stopListening := by
      simp only [Connection.onRead, result] at grown ⊢
      exact onHeader_grown grown
    refine ⟨⟨outcome, data, rfl, result⟩, ?_, fun unclosed => ?_⟩
    · show (connection.onRead handlers gemini outcome).client.reading = false
      rw [stops]
      rfl
    · show (connection.onRead handlers gemini outcome).client.Unclosed
      rw [stops]
      exact unclosed

/-- A read that finds no data writes nothing. -/
theorem written_of_failed {outcome : ReadOutcome} {error : ReadError}
    (result : outcome.result = .error error)
    (step : connection.step handlers (.onRead outcome) = some next) :
    next.written = connection.written := by
  simp only [Connection.step] at step
  split at step
  · cases step
  next gemini isOpen =>
  obtain ⟨_, same⟩ := Option.ite_none_right_eq_some.mp step
  obtain rfl := Option.some.inj same
  show (connection.onRead handlers gemini outcome).written = _
  simp only [Connection.onRead, result]
  cases error <;> rfl

/-- One that has to wait changes nothing of the flow. -/
theorem Flowing.waits {arrived : List Bytes} (flowing : connection.Flowing arrived)
    {outcome : ReadOutcome} {error : ReadError} (result : outcome.result = .error error)
    (waits : error ≠ .failed) (step : connection.step handlers (.onRead outcome) = some next) :
    next.Flowing arrived := by
  simp only [Connection.step] at step
  split at step
  · cases step
  next gemini isOpen =>
  obtain ⟨_, same⟩ := Option.ite_none_right_eq_some.mp step
  obtain rfl := Option.some.inj same
  have blocked : connection.onRead handlers gemini outcome = { connection with
      client := { connection.client with
        buffer := (connection.client.buffer.read outcome.consumed).1 }
      wantRead := outcome.wantRead } := by
    simp only [Connection.onRead, result]
  rw [blocked]
  exact flowing.of_same isOpen isOpen rfl rfl rfl flowing.unclosed

end Connection

end GemCaps
