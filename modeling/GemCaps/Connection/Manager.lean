/-
**One connection of the `Manager`** (`manager.cpp`, and the callbacks of `server.cpp`).

A connection is an `SSLClient`, the `GeminiConnection` that `requests` holds for it, and the ciphertext
loop of `__on_recv`. One step is one call that a handler makes, one round of that loop, one record of
the TLS layer, or one callback of libuv. What wolfSSL makes of the ciphertext comes with the event
(`ReadOutcome`). `NO_TIMEOUTS` is defined in the build, so that no `setTimeout` is left.
-/

import GemCaps.Connection.Client
import GemCaps.Request.Response

namespace GemCaps

/-- A callback of `setClientCloseCallback` and its context. -/
structure Registration where
  callback : Nat
  context : Nat
deriving DecidableEq

/-- `GeminiConnection`. -/
structure GeminiConnection where
  request : Request := {}
  buffer : BufferPipe := BufferPipe.empty
  callback : Option Registration := none

/-- What happens to a `GeminiConnection` besides reading and writing. -/
inductive LifeEvent where
  | registered (registration : Registration)
  | invoked (registration : Registration)
  | destroyed
deriving DecidableEq

/-- What wolfSSL reports for a failed read. -/
inductive ReadError where
  | wantRead
  | wantWrite
  | failed
deriving DecidableEq

/-- The result of one `wolfSSL_read`: the plaintext of one record or an error, the number of bytes it
took from the ciphertext buffer, and `wolfSSL_want_read` afterwards. -/
structure ReadOutcome where
  result : Except ReadError Bytes
  consumed : Nat
  wantRead : Bool

/-- The number of bytes of plaintext. -/
def ReadOutcome.size (outcome : ReadOutcome) : Nat :=
  match outcome.result with
  | .error _ => 0
  | .ok data => data.length

/-- The loop of `__on_recv`: outside, before a call of `on_read`, or after one. -/
inductive Phase where
  | idle
  | reading
  | read
deriving DecidableEq

structure Connection where
  client : SSLClient
  /-- The entry of `requests`. -/
  gemini : Option GeminiConnection
  phase : Phase := .idle
  wantRead : Bool := false
  /-- The bytes passed to `SSLClient::write` before the TCP handle was closed. -/
  written : Bytes := []
  /-- The calls of `Handler::handle`: which handler, and the request. -/
  dispatched : List (Nat × Request) := []
  life : List LifeEvent := []

/-- `shouldHandle` of the handlers that are registered for the server; `none` if there are none. -/
abbrev Handlers := Option (List (Bytes → Bytes → Bool))

namespace Connection

variable (connection : Connection)

/-- `Manager::on_accept`. -/
def accept (timeoutTime : Nat) : Connection :=
  ⟨{ timeoutTime, context := some .manager, reading := true }, some {}, .idle, false, [], [], []⟩

/-- `SSLClient::write`: wolfSSL accepts all the bytes. -/
def clientWrite (data : Bytes) : Connection :=
  if connection.client.closing then connection
  else { connection with written := connection.written ++ data }

/-- `GeminiConnection::send`, without its log: on the first call it makes a string of `buf`, which need
not end with a NUL, and logs its first line. The bytes passed on do not depend on it. -/
def send (gemini : GeminiConnection) (data : Bytes) : Connection :=
  let filled := gemini.buffer.write data
  { connection with gemini := some { gemini with buffer := (filled.read 1024).1 } }.clientWrite
    (filled.read 1024).2

/-- `GeminiConnection::on_write`. -/
def geminiOnWrite (gemini : GeminiConnection) : Connection :=
  if 0 < gemini.buffer.ready then
    { connection with gemini := some { gemini with buffer := (gemini.buffer.read 1024).1 } }.clientWrite
      (gemini.buffer.read 1024).2
  else connection

/-- `on_write` of the registered context; that of `Manager` is empty. -/
def onWrite : Connection :=
  match connection.client.context, connection.gemini with
  | some .connection, some gemini => connection.geminiOnWrite gemini
  | _, _ => connection

/-- `Manager::on_close`: erasing the entry destroys the `GeminiConnection`. -/
def managerOnClose : Connection :=
  match connection.gemini with
  | none => connection
  | some _ => { connection with gemini := none, life := connection.life ++ [.destroyed] }

/-- `GeminiConnection::on_close`. -/
def geminiOnClose (gemini : GeminiConnection) : Connection :=
  let erased := connection.managerOnClose
  match gemini.callback with
  | none => erased
  | some registration => { erased with life := erased.life ++ [.invoked registration] }

/-- `on_close` of the registered context. -/
def onClose : Connection :=
  match connection.client.context, connection.gemini with
  | some .connection, some gemini => connection.geminiOnClose gemini
  | some _, _ => connection.managerOnClose
  | none, _ => connection

/-- The end of `Manager::on_read`, with a request that is parsed. -/
def dispatch (handlers : Handlers) (gemini : GeminiConnection) : Connection :=
  match handlers with
  | none => { connection with client := connection.client.crash }
  | some handlers =>
    match handlers.findIdx? fun shouldHandle =>
        shouldHandle gemini.request.host gemini.request.path with
    | some index =>
      { connection with dispatched := connection.dispatched ++ [(index, gemini.request)] }
    | none =>
      let sent := connection.send gemini (responseHeader resServerUnavail
        (text "There is no server available to take your request"))
      { sent with client := sent.client.close }

/-- `Manager::on_read` once the header has grown. -/
def onHeader (handlers : Handlers) (gemini : GeminiConnection) : Connection :=
  let connection := { connection with gemini := some gemini }
  if 1024 < gemini.request.header.length then
    { connection with client := connection.client.crash }
  else
    match find gemini.request.header lf 0 with
    | none => connection
    | some pos =>
      let line := { gemini.request with header := gemini.request.header.take (pos + 1) }
      let client := connection.client.stopListening
      match parseHost line with
      | none =>
        { connection with client := client.crash, gemini := some { gemini with request := line } }
      | some request =>
        { connection with client, gemini := some { gemini with request } }.dispatch handlers
          { gemini with request }

/-- `Manager::on_read`, with what `wolfSSL_read` returns. -/
def onRead (handlers : Handlers) (gemini : GeminiConnection) (outcome : ReadOutcome) : Connection :=
  let client := { connection.client with buffer := (connection.client.buffer.read outcome.consumed).1 }
  let connection := { connection with client, wantRead := outcome.wantRead }
  match outcome.result with
  | .error .failed => { connection with client := client.crash }
  | .error _ => connection
  | .ok data =>
    let request := { gemini.request with header := gemini.request.header ++ data }
    connection.onHeader handlers { gemini with request }

/-- The wolfSSL calls the source relies on: at most 1024 bytes of plaintext, and `want_read` only
when the buffered input is used up. -/
def Reads (outcome : ReadOutcome) : Prop :=
  outcome.size ≤ 1024 ∧ outcome.consumed ≤ connection.client.buffer.ready ∧
    (outcome.wantRead = true → outcome.consumed = connection.client.buffer.ready)

instance (outcome : ReadOutcome) : Decidable (connection.Reads outcome) :=
  inferInstanceAs (Decidable (_ ∧ _ ∧ _))

end Connection

/-- What can happen to a connection. -/
inductive ConnectionEvent where
  /-- `__on_recv`; `none` is a negative `nread`. -/
  | received (ciphertext : Option Bytes)
  /-- One call of `on_read` in the loop of `__on_recv`. -/
  | onRead (outcome : ReadOutcome)
  /-- The test at the end of that loop. -/
  | loopTest
  /-- A handler calls `send`, `close` or `setClientCloseCallback`. -/
  | send (data : Bytes)
  | close
  | setClientCloseCallback (registration : Registration)
  /-- The TLS layer sends a record. -/
  | record (data : Bytes) (outcome : Outcome)
  | onWriteReturns
  | sent (request : Nat)
  | timeout
  | closed

/-- The steps in which `send` may be called. -/
def ConnectionEvent.sends : ConnectionEvent → Bool
  | .send _ | .onRead _ => true
  | _ => false

namespace Connection

/-- A step of the `SSLClient`; it may call `on_write`. -/
def clientStep (connection : Connection) (event : ClientEvent) : Option Connection :=
  (connection.client.step event).map fun client =>
    if connection.client.onWrites < client.onWrites then { connection with client }.onWrite
    else { connection with client }

/-- No code runs: libuv may run a callback. -/
def Idle (connection : Connection) : Prop :=
  connection.phase = .idle ∧ connection.client.onWrites = 0

instance (connection : Connection) : Decidable connection.Idle :=
  inferInstanceAs (Decidable (_ ∧ _))

/-- One step; `none` where the event cannot happen or the source dereferences a null pointer. -/
def step (handlers : Handlers) (connection : Connection) : ConnectionEvent → Option Connection
  | .received nread =>
    if connection.Idle ∧ connection.client.reading ∧ connection.client.isOpen then
      match nread with
      | none => some { connection with client := connection.client.close }
      | some ciphertext =>
        let client := connection.client.resetTimeout
        some
          { connection with
            client := { client with buffer := client.buffer.write ciphertext }
            phase := if client.context.isSome then .reading else .idle }
    else none
  | .onRead outcome =>
    match connection.gemini with
    | none => none
    | some gemini =>
      if connection.phase = .reading ∧ connection.Reads outcome then
        some { connection.onRead handlers gemini outcome with phase := .read }
      else none
  | .loopTest =>
    if connection.phase = .read then
      some { connection with
        phase :=
          if connection.client.isOpen && connection.client.hasData && !connection.wantRead then .reading
          else .idle }
    else none
  | .send data => connection.gemini.map fun gemini => connection.send gemini data
  | .close => connection.gemini.map fun _ => { connection with client := connection.client.close }
  | .setClientCloseCallback registration => connection.gemini.map fun gemini =>
    { connection with
      gemini := some { gemini with callback := some registration }
      life := connection.life ++ [.registered registration] }
  | .record data outcome => connection.clientStep (.send data outcome)
  | .onWriteReturns => connection.clientStep .onWriteReturns
  | .sent request => if connection.Idle then connection.clientStep (.sent request) else none
  | .timeout => if connection.Idle then connection.clientStep .timeout else none
  | .closed =>
    if connection.Idle then
      (connection.client.step .closed).map fun client => { connection.onClose with client }
    else none

/-! ### The Manager is the context -/

variable {connection next : Connection} {handlers : Handlers}

/-- `on_accept` has registered the `Manager`. -/
def Managed (connection : Connection) : Prop := connection.client.context = some .manager

theorem accept_managed (timeoutTime : Nat) : (accept timeoutTime).Managed := rfl

/-- `on_write` of the `Manager` does nothing. -/
theorem Managed.onWrite (managed : connection.Managed) : connection.onWrite = connection := by
  unfold Connection.onWrite
  rw [managed]

/-- A step of the client changes nothing else. -/
theorem Managed.clientStep (managed : connection.Managed) (event : ClientEvent) :
    connection.clientStep event =
      (connection.client.step event).map fun client => { connection with client } := by
  unfold Connection.clientStep
  cases stepped : connection.client.step event with
  | none => rfl
  | some client =>
    have kept : client.context = some .manager :=
      (connection.client.step_context stepped).trans managed
    have still : ({ connection with client } : Connection).Managed := kept
    simp only [Option.map_some, Managed.onWrite still, ite_self]

theorem Managed.onClose (managed : connection.Managed) :
    connection.onClose = connection.managerOnClose := by
  unfold Connection.onClose
  rw [managed]

@[simp] theorem clientWrite_client (data : Bytes) :
    (connection.clientWrite data).client = connection.client := by
  unfold clientWrite
  split <;> rfl

@[simp] theorem send_client (gemini : GeminiConnection) (data : Bytes) :
    (connection.send gemini data).client = connection.client := by
  simp [Connection.send]

theorem dispatch_context (gemini : GeminiConnection) :
    (connection.dispatch handlers gemini).client.context = connection.client.context := by
  unfold dispatch
  cases handlers with
  | none => rfl
  | some handlers =>
    cases found : handlers.findIdx? fun shouldHandle =>
        shouldHandle gemini.request.host gemini.request.path with
    | some index => simp only [found]
    | none => simp only [found, SSLClient.close_context, send_client]

theorem onRead_context (gemini : GeminiConnection) (outcome : ReadOutcome) :
    (connection.onRead handlers gemini outcome).client.context = connection.client.context := by
  unfold onRead
  cases outcome.result with
  | error error => cases error <;> rfl
  | ok data =>
    simp only [onHeader]
    split
    · rfl
    · split
      · rfl
      · split
        · rfl
        · exact dispatch_context _

/-- What a step of a connection of the `Manager` can be. -/
inductive Stepped (handlers : Handlers) (connection : Connection) :
    ConnectionEvent → Connection → Prop where
  /-- Nothing but the client and the loop changes. -/
  | client {event : ConnectionEvent} (client : SSLClient) (phase : Phase)
      (context : client.context = connection.client.context) (silent : event.sends = false) :
      Stepped handlers connection event { connection with client, phase }
  | send {gemini : GeminiConnection} (isOpen : connection.gemini = some gemini) (data : Bytes) :
      Stepped handlers connection (.send data) (connection.send gemini data)
  | setClientCloseCallback {gemini : GeminiConnection} (isOpen : connection.gemini = some gemini)
      (registration : Registration) :
      Stepped handlers connection (.setClientCloseCallback registration)
        { connection with
          gemini := some { gemini with callback := some registration }
          life := connection.life ++ [.registered registration] }
  | onRead {gemini : GeminiConnection} (isOpen : connection.gemini = some gemini)
      (outcome : ReadOutcome) : Stepped handlers connection (.onRead outcome)
        { connection.onRead handlers gemini outcome with phase := .read }
  | closed (client : SSLClient) (context : client.context = connection.client.context) :
      Stepped handlers connection .closed { connection.managerOnClose with client }

/-- **Every step is one of these.** -/
theorem Managed.stepped (managed : connection.Managed) {event : ConnectionEvent}
    (step : connection.step handlers event = some next) :
    Stepped handlers connection event next := by
  have ofClient : ∀ clientEvent, event.sends = false →
      connection.clientStep clientEvent = some next → Stepped handlers connection event next := by
    intro clientEvent silent same
    rw [managed.clientStep, Option.map_eq_some_iff] at same
    obtain ⟨client, isClient, rfl⟩ := same
    exact .client client connection.phase (connection.client.step_context isClient) silent
  cases event with
  | received nread =>
    obtain ⟨_, same⟩ := Option.ite_none_right_eq_some.mp step
    cases nread with
    | none =>
      exact (Option.some.inj same) ▸ .client _ connection.phase connection.client.close_context rfl
    | some ciphertext =>
      exact (Option.some.inj same) ▸ .client _ _ connection.client.resetTimeout_context rfl
  | onRead outcome =>
    simp only [Connection.step] at step
    split at step
    · cases step
    · obtain ⟨_, same⟩ := Option.ite_none_right_eq_some.mp step
      exact (Option.some.inj same) ▸ .onRead ‹_› outcome
  | loopTest =>
    obtain ⟨_, same⟩ := Option.ite_none_right_eq_some.mp step
    exact (Option.some.inj same) ▸ .client connection.client _ rfl rfl
  | send data =>
    obtain ⟨gemini, isOpen, rfl⟩ := Option.map_eq_some_iff.mp step
    exact .send isOpen data
  | close =>
    obtain ⟨_, _, rfl⟩ := Option.map_eq_some_iff.mp step
    exact .client _ connection.phase connection.client.close_context rfl
  | setClientCloseCallback registration =>
    obtain ⟨gemini, isOpen, rfl⟩ := Option.map_eq_some_iff.mp step
    exact .setClientCloseCallback isOpen registration
  | record data outcome => exact ofClient _ rfl step
  | onWriteReturns => exact ofClient _ rfl step
  | sent request => exact ofClient _ rfl (Option.ite_none_right_eq_some.mp step).2
  | timeout => exact ofClient _ rfl (Option.ite_none_right_eq_some.mp step).2
  | closed =>
    obtain ⟨_, same⟩ := Option.ite_none_right_eq_some.mp step
    obtain ⟨client, isClient, rfl⟩ := Option.map_eq_some_iff.mp same
    rw [managed.onClose]
    exact .closed client (connection.client.step_context isClient)

/-- **Every step keeps the `Manager` as the context.** -/
theorem Managed.step (managed : connection.Managed) {event : ConnectionEvent}
    (step : connection.step handlers event = some next) : next.Managed := by
  cases managed.stepped step with
  | client client phase context silent => exact context.trans managed
  | send isOpen data => exact (congrArg SSLClient.context (send_client _ data)).trans managed
  | setClientCloseCallback isOpen registration => exact managed
  | onRead isOpen outcome => exact (onRead_context _ outcome).trans managed
  | closed client context => exact context.trans managed

/-- **In every run from `on_accept` the `Manager` is the context.** -/
theorem run_managed {timeoutTime : Nat} {events : List ConnectionEvent}
    (ran : Transition.run (step handlers) (accept timeoutTime) events = some connection) :
    connection.Managed :=
  Transition.run_always Managed (fun _ _ _ managed stepped => Managed.step managed stepped)
    (accept_managed timeoutTime) ran

end Connection

end GemCaps
