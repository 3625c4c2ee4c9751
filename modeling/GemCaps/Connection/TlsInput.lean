/-
**From libuv to the TLS layer** (`SSLServer::__recv`, `SSLClient::_recv`, `SSLClient::__on_recv`).

wolfSSL does not read from the socket. While one `wolfSSL_read` runs it calls `__recv` for ciphertext
and `__send` for its own records, as often as it needs; what it does next depends on what the callbacks
return, so that a call is a tree (`TlsCall`). Here a connection runs with these calls taken apart, for
whatever trees wolfSSL may come up with.

* `run_answers`: `__recv` is a reader of the byte stream that libuv delivers. It gives every byte once
  and in order, reports `WANT_READ` exactly when an open connection has none left, and when the loop of
  `__on_recv` returns to libuv on an open connection nothing is left waiting.
* `run_refines`: such a run is a run of `Connection`, in which a whole `wolfSSL_read` is one event.
-/

import GemCaps.Connection.Manager
import GemCaps.Connection.Wire
import GemCaps.Library.Simulation
import GemCaps.Library.Trace

namespace GemCaps

open Transition

/-- The negative results of `__recv`: `WOLFSSL_CBIO_ERR_WANT_READ` and
`WOLFSSL_CBIO_ERR_CONN_CLOSE`. -/
inductive RecvError where
  | wantRead
  | connClose
deriving DecidableEq

namespace SSLClient

variable (client : SSLClient)

/-- `_ready()`. -/
def ready : Nat := client.buffer.ready

/-- `_recv(size, buf)`, with the bytes copied to `buf`. -/
def recv (size : Nat) : SSLClient × Bytes :=
  ({ client with buffer := (client.buffer.read size).1 }, (client.buffer.read size).2)

/-- `SSLServer::__recv`, with the client behind `ctx`. -/
def ioRecv (size : Nat) : SSLClient × Except RecvError Bytes :=
  if client.ready = 0 then
    if client.isOpen = false then (client, .error .connClose) else (client, .error .wantRead)
  else ((client.recv size).1, .ok (client.recv size).2)

end SSLClient

/-- What is left to do of one `wolfSSL_read`. -/
inductive TlsCall where
  /-- It returns, and `wolfSSL_want_read` is this from then on. -/
  | returns (result : Except ReadError Bytes) (wantRead : Bool)
  /-- It calls `__recv`. -/
  | recv (size : Nat) (next : Except RecvError Bytes → TlsCall)
  /-- It calls `__send`. -/
  | send (data : Bytes) (next : Except CallbackError Nat → TlsCall)

/-- What wolfSSL promises of a read: it returns at most the 1024 bytes that were asked for, and
`wolfSSL_want_read` holds only if the last answer of `__recv` was `WANT_READ` (`blocked`). -/
inductive TlsCall.Documented : Bool → TlsCall → Prop
  | returns (blocked : Bool) (result : Except ReadError Bytes) (wantRead : Bool)
      (fits : (ReadOutcome.mk result 0 wantRead).size ≤ 1024)
      (honest : wantRead = true → blocked = true) : Documented blocked (.returns result wantRead)
  | recv (blocked : Bool) (size : Nat) (next : Except RecvError Bytes → TlsCall)
      (later : ∀ reply, Documented (decide (reply = .error .wantRead)) (next reply)) :
      Documented blocked (.recv size next)
  | send (blocked : Bool) (data : Bytes) (next : Except CallbackError Nat → TlsCall)
      (later : ∀ reply, Documented blocked (next reply)) : Documented blocked (.send data next)

/-- A `wolfSSL_read` from its start. -/
structure TlsRead where
  call : TlsCall
  documented : call.Documented false

/-- One call of `__recv`: the bytes asked for, what libuv had delivered by then, `is_open()`, and the
answer. -/
structure Answer where
  size : Nat
  received : Bytes
  isOpen : Bool
  reply : Except RecvError Bytes

/-- The bytes that the TLS layer gets. -/
def Answer.data (answer : Answer) : Bytes :=
  match answer.reply with
  | .ok data => data
  | .error _ => []

/-- All the bytes that the TLS layer got. -/
def taken (answers : List Answer) : Bytes := answers.flatMap Answer.data

/-- What a reader of the byte stream answers: the next bytes that have arrived, or why there are
none. -/
def Answer.Reads (before : List Answer) (answer : Answer) : Prop :=
  ∃ waiting, answer.received = taken before ++ waiting ∧
    answer.reply =
      if waiting = [] then .error (if answer.isOpen then .wantRead else .connClose)
      else .ok (waiting.take answer.size)

/-- A connection, the `wolfSSL_read` that runs in its `on_read`, and what went through `__recv`. -/
structure TlsConnection where
  connection : Connection
  call : Option TlsCall := none
  /-- The last answer of `__recv` in this call was `WANT_READ`. -/
  blocked : Bool := false
  received : Bytes := []
  answers : List Answer := []

/-- The bytes that an event delivers. -/
def ConnectionEvent.ciphertext : ConnectionEvent → Bytes
  | .received (some ciphertext) => ciphertext
  | _ => []

/-- What can happen to such a connection. -/
inductive TlsConnectionEvent where
  /-- Anything but a read. -/
  | connection (event : ConnectionEvent)
  /-- `on_read` calls `wolfSSL_read`. -/
  | onRead (read : TlsRead)
  /-- The call that runs calls `__recv`, or `__send` with this outcome, or returns. -/
  | recv
  | send (outcome : Outcome)
  | returns

namespace TlsConnection

variable (tls : TlsConnection)

/-- A connection that `on_accept` has set up. -/
def start (timeoutTime : Nat) : TlsConnection := { connection := Connection.accept timeoutTime }

/-- While wolfSSL runs, nothing else does; only an `on_write` that `__send` has called returns. -/
def permits : ConnectionEvent → Bool
  | .onRead _ => false
  | .onWriteReturns => true
  | .received _ | .loopTest | .send _ | .close | .setClientCloseCallback _ | .record _ _ | .sent _
  | .timeout | .closed => tls.call.isNone

/-- wolfSSL calls `__recv`. -/
def recv (size : Nat) (next : Except RecvError Bytes → TlsCall) : TlsConnection :=
  let client := tls.connection.client
  let reply := (client.ioRecv size).2
  { tls with
    connection := { tls.connection with client := (client.ioRecv size).1 }
    call := some (next reply)
    blocked := decide (reply = .error .wantRead)
    answers := tls.answers ++ [⟨size, tls.received, client.isOpen, reply⟩] }

/-- wolfSSL calls `__send`. -/
def send (data : Bytes) (next : Except CallbackError Nat → TlsCall) (outcome : Outcome) :
    Option TlsConnection :=
  if tls.connection.client.isOpen then
    (tls.connection.clientStep (.send data outcome)).map fun connection =>
      { tls with connection, call := some (next (.ok (SSLClient.sendCount data outcome))) }
  else some { tls with call := some (next (.error .connClose)) }

/-- One step; `none` where the event cannot happen. A callback has returned before wolfSSL goes on. -/
def step (handlers : Handlers) (tls : TlsConnection) : TlsConnectionEvent → Option TlsConnection
  | .connection event =>
    if tls.permits event then
      (tls.connection.step handlers event).map fun connection =>
        { tls with connection, received := tls.received ++ event.ciphertext }
    else none
  | .onRead read =>
    if tls.call.isNone ∧ tls.connection.phase = .reading ∧ tls.connection.gemini.isSome then
      some { tls with call := some read.call, blocked := false }
    else none
  | .recv =>
    match tls.call with
    | some (.recv size next) =>
      if tls.connection.client.onWrites = 0 then some (tls.recv size next) else none
    | _ => none
  | .send outcome =>
    match tls.call with
    | some (.send data next) =>
      if tls.connection.client.onWrites = 0 then tls.send data next outcome else none
    | _ => none
  | .returns =>
    match tls.call, tls.connection.gemini with
    | some (.returns result wantRead), some gemini =>
      if tls.connection.client.onWrites = 0 then
        some { tls with
          connection :=
            { tls.connection.onRead handlers gemini ⟨result, 0, wantRead⟩ with phase := .read }
          call := none }
      else none
    | _, _ => none

end TlsConnection

/-! ### The ciphertext buffer -/

namespace BufferPipe

variable (pipe : BufferPipe)

theorem read_zero : (pipe.read 0).1 = pipe := by
  simp [read]

/-- Two reads in a row are one. -/
theorem read_read (first second : Nat) : ((pipe.read first).1.read second).1 =
    (pipe.read (min pipe.length first + min (pipe.length - first) second)).1 := by
  simp only [read, BufferPipe.mk.injEq, true_and, and_true]
  omega

end BufferPipe

namespace SSLClient

variable (client : SSLClient) (buffer : BufferPipe)

theorem ioRecv_reply (size : Nat) : (client.ioRecv size).2 =
    if client.buffer.contents = [] then .error (if client.isOpen then .wantRead else .connClose)
    else .ok (client.buffer.contents.take size) := by
  have counted : client.ready = client.buffer.contents.length :=
    client.buffer.length_contents.symm
  unfold ioRecv
  by_cases empty : client.buffer.contents = []
  · rw [if_pos empty, if_pos (by rw [counted, empty]; rfl)]
    cases client.isOpen <;> rfl
  · have some : ¬ client.ready = 0 := fun none => empty (List.length_eq_zero_iff.mp (counted ▸ none))
    rw [if_neg empty, if_neg some]
    exact congrArg Except.ok (client.buffer.read_eq size).1

theorem ioRecv_contents (size : Nat) :
    (client.ioRecv size).1.buffer.contents = client.buffer.contents.drop size := by
  have counted : client.ready = client.buffer.contents.length :=
    client.buffer.length_contents.symm
  unfold ioRecv
  split
  · next none =>
    have empty : client.buffer.contents = [] := List.length_eq_zero_iff.mp (counted ▸ none)
    rw [empty, List.drop_nil]
    split <;> exact empty
  · exact (client.buffer.read_eq size).2

theorem ioRecv_context (size : Nat) : (client.ioRecv size).1.context = client.context := by
  unfold ioRecv
  split
  · split <;> rfl
  · rfl

theorem ioRecv_closed (size : Nat) :
    (client.ioRecv size).1.buffer.closed = client.buffer.closed := by
  unfold ioRecv
  split
  · split <;> rfl
  · rfl

/-- The client with another ciphertext buffer. -/
def withBuffer : SSLClient := { client with buffer }

theorem close_withBuffer : (client.withBuffer buffer).close = client.close.withBuffer buffer := by
  unfold close
  show (if 0 < client.queuedWrites ∧ client.queuedClose = false then _ else _) = _
  split <;> rfl

theorem onSendEnd_withBuffer :
    (client.withBuffer buffer).onSendEnd = client.onSendEnd.withBuffer buffer := by
  unfold onSendEnd
  rw [close_withBuffer]
  show (if client.queuedClose then _ else _) = _
  split <;> rfl

theorem notify_withBuffer :
    (client.withBuffer buffer).notify = client.notify.withBuffer buffer := by
  have ended := client.onSendEnd_withBuffer buffer
  rcases client.notify_cases with ⟨more, same⟩ | ⟨last, registered, same⟩ | ⟨last, none, same⟩
  · rw [same]
    exact if_neg more.ne'
  · obtain ⟨context, isContext⟩ := Option.ne_none_iff_exists'.mp registered
    rw [same]
    simp [notify, withBuffer, last, isContext]
  · rw [same, ← ended]
    simp [notify, withBuffer, last, none]

theorem onSend_withBuffer (request : Nat) :
    (client.withBuffer buffer).onSend request = (client.onSend request).withBuffer buffer :=
  (client.forget request).notify_withBuffer buffer

theorem resetTimeout_withBuffer :
    (client.withBuffer buffer).resetTimeout = client.resetTimeout.withBuffer buffer := by
  unfold resetTimeout
  show (if client.timeoutTime = 0 then _ else _) = _
  split <;> rfl

theorem send_withBuffer (data : Bytes) (outcome : Outcome) :
    (client.withBuffer buffer).send data outcome =
      (client.send data outcome).withBuffer buffer := by
  simp only [send, resetTimeout_withBuffer]
  cases outcome with
  | wrote written => exact (client.resetTimeout.register data).onSend_withBuffer buffer _
  | queued => rfl
  | refused => rfl

/-- A call that is made under a condition. -/
theorem guarded_withBuffer (guard : Prop) [Decidable guard] (next : SSLClient) :
    (if guard then some (next.withBuffer buffer) else none) =
      (if guard then some next else none).map fun next => next.withBuffer buffer := by
  split <;> rfl

/-- **No step of the client looks at the ciphertext.** -/
theorem step_withBuffer (event : ClientEvent) : (client.withBuffer buffer).step event =
    (client.step event).map fun next => next.withBuffer buffer := by
  cases event with
  | send data outcome =>
    rw [step, step, send_withBuffer]
    exact guarded_withBuffer buffer _ _
  | close => exact congrArg some (client.close_withBuffer buffer)
  | crash => rfl
  | setTimeout time => rfl
  | onWriteReturns =>
    rw [step, step, onSendEnd_withBuffer]
    exact guarded_withBuffer buffer (0 < client.onWrites)
      { client.onSendEnd with onWrites := client.onWrites - 1 }
  | sent request =>
    have same : ({ client.withBuffer buffer with
        owed := (client.withBuffer buffer).owed.erase request } : SSLClient).onSend request =
          (({ client with owed := client.owed.erase request } : SSLClient).onSend
            request).withBuffer buffer :=
      ({ client with owed := client.owed.erase request } : SSLClient).onSend_withBuffer buffer request
    rw [step, step, same]
    exact guarded_withBuffer buffer _ _
  | timeout =>
    exact guarded_withBuffer buffer (client.onWrites = 0 ∧ client.timer.isSome)
      ({ client with timer := none } : SSLClient).crash
  | closed =>
    exact guarded_withBuffer buffer
      (client.onWrites = 0 ∧ client.client ∧ client.closing ∧ client.owed = [])
      { client with client := false, reading := false }

variable {client} {next : SSLClient}

theorem step_buffer {event : ClientEvent} (stepped : client.step event = some next) :
    next.buffer = client.buffer := by
  have same : client.step event =
      (client.step event).map fun next => next.withBuffer client.buffer :=
    client.step_withBuffer client.buffer event
  rw [stepped, Option.map_some, Option.some.injEq] at same
  have kept : next.buffer = (next.withBuffer client.buffer).buffer := congrArg SSLClient.buffer same
  exact kept

end SSLClient

/-! ### One read is one event -/

namespace Connection

variable {connection next : Connection} {handlers : Handlers}

/-- The connection once this many bytes of ciphertext are taken. -/
def take (connection : Connection) (consumed : Nat) : Connection :=
  { connection with
    client := connection.client.withBuffer (connection.client.buffer.read consumed).1 }

theorem take_zero : connection.take 0 = connection := by
  rw [take, BufferPipe.read_zero]
  rfl

/-- A step of the client may be taken before the ciphertext or after it. -/
theorem clientStep_take (managed : connection.Managed) (event : ClientEvent) (consumed : Nat) :
    (connection.take consumed).clientStep event =
      (connection.clientStep event).map fun next => next.take consumed := by
  have still : (connection.take consumed).Managed := managed
  rw [managed.clientStep, still.clientStep]
  show ((connection.client.withBuffer _).step event).map _ = _
  rw [SSLClient.step_withBuffer, Option.map_map, Option.map_map]
  cases stepped : connection.client.step event with
  | none => rfl
  | some client =>
    rw [Option.map_some, Option.map_some, Option.some.injEq]
    simp only [Function.comp_apply, take, SSLClient.step_buffer stepped]

/-- `on_read` finds the ciphertext taken, or takes it. -/
theorem onRead_take (gemini : GeminiConnection) (result : Except ReadError Bytes) (wantRead : Bool)
    (consumed : Nat) : (connection.take consumed).onRead handlers gemini ⟨result, 0, wantRead⟩ =
      connection.onRead handlers gemini ⟨result, consumed, wantRead⟩ := by
  unfold onRead
  simp only [take, SSLClient.withBuffer, BufferPipe.read_zero]

end Connection

namespace TlsConnection

variable {tls next : TlsConnection} {handlers : Handlers} {timeoutTime : Nat}

/-- The connection in which the read that runs has not begun: `consumed` bytes are taken since. -/
structure Began (tls : TlsConnection) (connection : Connection) (consumed : Nat) : Prop where
  same : tls.connection = connection.take consumed
  managed : connection.Managed
  atMost : consumed ≤ connection.client.buffer.length
  rests : tls.call = none → consumed = 0
  reads : tls.call ≠ none → connection.phase = .reading
  blocked : tls.call ≠ none → tls.blocked = true → consumed = connection.client.buffer.length
  documented : ∀ call ∈ tls.call, call.Documented tls.blocked

/-- Some bytes are taken. -/
def Refines (tls : TlsConnection) (connection : Connection) : Prop :=
  ∃ consumed, tls.Began connection consumed

theorem Began.atRest {connection : Connection} {consumed : Nat} (began : tls.Began connection consumed)
    (resting : tls.call = none) : tls.connection = connection := by
  rw [began.same, began.rests resting, Connection.take_zero]

/-- A connection of the `Manager` in which no read runs. -/
theorem began_of_rest {connection : Connection} (managed : connection.Managed)
    (same : tls.connection = connection) (resting : tls.call = none) :
    tls.Began connection 0 where
  same := by rw [same, Connection.take_zero]
  managed := managed
  atMost := Nat.zero_le _
  rests _ := rfl
  reads running := absurd resting running
  blocked running := absurd resting running
  documented call isCall := by rw [resting] at isCall; cases isCall

/-- **`__recv`** takes more of the ciphertext; if it reports `WANT_READ`, all of it is taken. -/
theorem Began.recv {connection : Connection} {consumed size : Nat}
    {resume : Except RecvError Bytes → TlsCall} (began : tls.Began connection consumed)
    (running : tls.call = some (.recv size resume)) :
    ∃ more, (tls.recv size resume).Began connection more := by
  have goesOn : ∀ reply, (resume reply).Documented (decide (reply = .error .wantRead)) := by
    cases began.documented _ running with
    | recv blocked size next later => exact later
  have reading : connection.phase = .reading := began.reads (by simp [running])
  have left : tls.connection.client.ready = connection.client.buffer.length - consumed := by
    rw [began.same]
    show connection.client.buffer.length - min connection.client.buffer.length consumed = _
    rw [Nat.min_eq_right began.atMost]
  by_cases empty : tls.connection.client.ready = 0
  · have same : (tls.connection.client.ioRecv size).1 = tls.connection.client := by
      rw [SSLClient.ioRecv, if_pos empty]
      split <;> rfl
    refine ⟨consumed, ?_, began.managed, began.atMost, nofun, fun _ => reading, fun _ _ => ?_, ?_⟩
    · show { tls.connection with client := (tls.connection.client.ioRecv size).1 } = _
      rw [same]
      exact began.same
    · exact le_antisymm began.atMost (by omega)
    · intro call isCall
      exact Option.some.inj isCall ▸ goesOn _
  · have same : tls.connection.client.ioRecv size =
        ((tls.connection.client.recv size).1, .ok (tls.connection.client.recv size).2) := by
      rw [SSLClient.ioRecv, if_neg empty]
    refine ⟨consumed + min (connection.client.buffer.length - consumed) size, ?_, began.managed, ?_,
      nofun, fun _ => reading, fun _ isBlocked => ?_, ?_⟩
    · show { tls.connection with client := (tls.connection.client.ioRecv size).1 } = _
      rw [same, began.same]
      have twice := connection.client.buffer.read_read consumed size
      rw [Nat.min_eq_right began.atMost] at twice
      simp only [SSLClient.recv, Connection.take, SSLClient.withBuffer]
      rw [twice]
    · have atMost := began.atMost
      omega
    · simp [TlsConnection.recv, same] at isBlocked
    · intro call isCall
      exact Option.some.inj isCall ▸ goesOn _

/-- A step of the client while the read runs. -/
theorem Began.clientStep {connection taken : Connection} {consumed : Nat} {event : ClientEvent}
    (began : tls.Began connection consumed) (running : tls.call ≠ none)
    (stepped : tls.connection.clientStep event = some taken) :
    ∃ after, connection.clientStep event = some after ∧
      ∀ next : TlsConnection, next.connection = taken → next.call ≠ none →
        next.blocked = tls.blocked → (∀ call ∈ next.call, call.Documented tls.blocked) →
        next.Began after consumed := by
  rw [began.same, Connection.clientStep_take began.managed, Option.map_eq_some_iff] at stepped
  obtain ⟨after, isAfter, rfl⟩ := stepped
  refine ⟨after, isAfter, fun next isTaken nextRuns isBlocked documented => ?_⟩
  rw [began.managed.clientStep, Option.map_eq_some_iff] at isAfter
  obtain ⟨client, isClient, rfl⟩ := isAfter
  have buffer : client.buffer = connection.client.buffer := SSLClient.step_buffer isClient
  have context := connection.client.step_context isClient
  refine ⟨isTaken, context.trans began.managed, ?_, fun rests => absurd rests nextRuns,
    fun _ => began.reads running, fun _ blocks => ?_, ?_⟩
  · show consumed ≤ client.buffer.length
    rw [buffer]
    exact began.atMost
  · show consumed = client.buffer.length
    rw [buffer]
    exact began.blocked running (isBlocked ▸ blocks)
  · rw [isBlocked]
    exact documented

/-- **`__send`** is a record, or reports that the connection is closed. -/
theorem Began.send {connection : Connection} {consumed : Nat} {data : Bytes}
    {resume : Except CallbackError Nat → TlsCall} {outcome : Outcome}
    (began : tls.Began connection consumed) (running : tls.call = some (.send data resume))
    (sent : tls.send data resume outcome = some next) :
    next.Began connection consumed ∨ ∃ after,
      connection.step handlers (.record data outcome) = some after ∧ next.Began after consumed := by
  have goesOn : ∀ reply, (resume reply).Documented tls.blocked := by
    cases began.documented _ running with
    | send blocked data next later => exact later
  have isRunning : tls.call ≠ none := by simp [running]
  unfold TlsConnection.send at sent
  split at sent
  · right
    obtain ⟨taken, isTaken, rfl⟩ := Option.map_eq_some_iff.mp sent
    obtain ⟨after, isAfter, began⟩ := began.clientStep isRunning isTaken
    refine ⟨after, isAfter, began _ rfl nofun rfl fun call isCall => ?_⟩
    exact Option.some.inj isCall ▸ goesOn _
  · left
    obtain rfl := Option.some.inj sent
    refine ⟨began.same, began.managed, began.atMost, nofun, fun _ => began.reads isRunning,
      fun _ => began.blocked isRunning, fun call isCall => ?_⟩
    exact Option.some.inj isCall ▸ goesOn _

/-- **`on_read`** with the result of the read. -/
theorem Began.returns {connection : Connection} {consumed : Nat} {result : Except ReadError Bytes}
    {wantRead : Bool} (began : tls.Began connection consumed)
    (running : tls.call = some (.returns result wantRead)) {gemini : GeminiConnection}
    (isOpen : connection.gemini = some gemini) :
    connection.step handlers (.onRead ⟨result, consumed, wantRead⟩) =
      some { tls.connection.onRead handlers gemini ⟨result, 0, wantRead⟩ with phase := .read } := by
  have isRunning : tls.call ≠ none := by simp [running]
  have reads : connection.Reads ⟨result, consumed, wantRead⟩ := by
    cases began.documented _ running with
    | returns blocked result wantRead fits honest =>
      exact ⟨fits, began.atMost, fun wants => began.blocked isRunning (honest wants)⟩
  rw [began.same, Connection.onRead_take]
  simp only [Connection.step, isOpen]
  exact if_pos ⟨began.reads isRunning, reads⟩

/-- **One step** is no step or one step of the connection. -/
theorem simulates : Simulates (step handlers) (Connection.step handlers) Refines := by
  rintro tls connection ⟨consumed, began⟩ event next stepped
  cases event with
  | connection event =>
    obtain ⟨permitted, same⟩ := Option.ite_none_right_eq_some.mp stepped
    obtain ⟨taken, isTaken, rfl⟩ := Option.map_eq_some_iff.mp same
    by_cases resting : tls.call = none
    · rw [began.atRest resting] at isTaken
      exact answered_step isTaken ⟨0, began_of_rest (began.managed.step isTaken) rfl resting⟩
    · -- Only an `on_write` returns while a read runs.
      have isReturn : event = .onWriteReturns := by
        cases event <;> simp_all [permits]
      subst isReturn
      obtain ⟨after, isAfter, stillBegan⟩ := began.clientStep resting isTaken
      have isStep : connection.step handlers .onWriteReturns = some after := isAfter
      exact answered_step isStep ⟨consumed, stillBegan _ rfl resting rfl began.documented⟩
  | onRead read =>
    obtain ⟨⟨resting, reading, _⟩, same⟩ := Option.ite_none_right_eq_some.mp stepped
    obtain rfl := Option.some.inj same
    have isSame := began.atRest (Option.isNone_iff_eq_none.mp resting)
    refine answered_idle ⟨0, ?_, began.managed, Nat.zero_le _, ?_, ?_, ?_, ?_⟩
    · rw [Connection.take_zero]
      exact isSame
    · exact fun none => nomatch none
    · exact fun _ => isSame ▸ reading
    · exact fun _ isBlocked => nomatch isBlocked
    · intro call isCall
      obtain rfl := Option.some.inj isCall
      exact read.documented
  | recv =>
    simp only [step] at stepped
    split at stepped
    · obtain ⟨_, same⟩ := Option.ite_none_right_eq_some.mp stepped
      obtain rfl := Option.some.inj same
      exact answered_idle (began.recv ‹_›)
    · cases stepped
  | send outcome =>
    simp only [step] at stepped
    split at stepped
    · obtain ⟨_, sent⟩ := Option.ite_none_right_eq_some.mp stepped
      rcases began.send ‹_› sent with idle | ⟨after, isAfter, stillBegan⟩
      · exact answered_idle ⟨consumed, idle⟩
      · exact answered_step isAfter ⟨consumed, stillBegan⟩
    · cases stepped
  | returns =>
    simp only [step] at stepped
    split at stepped
    · next result wantRead gemini running isOpen =>
      obtain ⟨_, same⟩ := Option.ite_none_right_eq_some.mp stepped
      obtain rfl := Option.some.inj same
      have isOpen : connection.gemini = some gemini := by
        rw [began.same] at isOpen
        exact isOpen
      have isAfter : connection.step handlers (.onRead ⟨result, consumed, wantRead⟩) = some _ :=
        began.returns running isOpen
      exact answered_step isAfter ⟨0, began_of_rest (began.managed.step isAfter) rfl rfl⟩
    · cases stepped

/-- **A run with the calls of wolfSSL taken apart is a run of the connection.** -/
theorem run_refines {events : List TlsConnectionEvent} {final : TlsConnection}
    (ran : run (step handlers) (start timeoutTime) events = some final)
    (returned : final.call = none) :
    ∃ connectionEvents, run (Connection.step handlers) (Connection.accept timeoutTime)
      connectionEvents = some final.connection := by
  have related : Refines (start timeoutTime) (Connection.accept timeoutTime) :=
    ⟨0, began_of_rest (Connection.accept_managed timeoutTime) rfl rfl⟩
  obtain ⟨connectionEvents, connection, answered, _, began⟩ := run_simulates simulates related ran
  rw [← began.atRest returned] at answered
  exact ⟨connectionEvents, answered⟩

/-- A read that takes what there is and then finds nothing more. -/
def partialRead : TlsRead where
  call := .recv 5 fun _ => .recv 5 fun reply =>
    .returns (.error .wantRead) (decide (reply = .error .wantRead))
  documented := .recv _ _ _ fun _ => .recv _ _ _ fun _ => .returns _ _ _ (Nat.zero_le _) id

/-- A read that sends a record of its own and then finds the request line. -/
def lineRead : TlsRead where
  call := .send [9] fun _ => .recv 5 fun _ => .returns (.ok (text "gemini://h/\r\n")) false
  documented := .send _ _ _ fun _ => .recv _ _ _ fun _ => .returns _ _ _ (by decide) nofun

/-- A record that comes in two receptions. -/
def twoReceptions : List TlsConnectionEvent :=
  [.connection (.received (some [1, 2, 3])), .onRead partialRead, .recv, .recv, .returns,
    .connection .loopTest, .connection (.received (some [4])), .onRead lineRead, .send (.wrote 1),
    .connection .onWriteReturns, .recv, .returns, .connection .loopTest]

/-- Any request is taken. -/
def everyRequest : Handlers := some [fun _ _ => true]

theorem run_refines_twoReceptions : ∃ final : TlsConnection,
    run (step everyRequest) (start 0) twoReceptions = some final ∧
      final.connection.dispatched.length = 1 ∧
      ∃ connectionEvents, run (Connection.step everyRequest) (Connection.accept 0)
        connectionEvents = some final.connection :=
  ⟨_, rfl, rfl,
    run_refines (show run (step everyRequest) (start 0) twoReceptions = some _ from rfl) rfl⟩

end TlsConnection

/-! ### What leaves the ciphertext alone -/

namespace SSLClient

variable {client next : SSLClient}

theorem close_buffer : client.close.buffer = client.buffer := by
  have stepped : client.step .close = some client.close := rfl
  exact step_buffer stepped

theorem isOpen_of_close (still : client.close.isOpen = true) : client.isOpen = true := by
  unfold close at still
  split at still
  · exact still
  · simp [isOpen] at still

theorem isOpen_of_onSendEnd (still : client.onSendEnd.isOpen = true) : client.isOpen = true := by
  unfold onSendEnd at still
  split at still
  · exact isOpen_of_close still
  · exact still

theorem isOpen_of_notify (still : client.notify.isOpen = true) : client.isOpen = true := by
  rcases client.notify_cases with ⟨_, same⟩ | ⟨_, _, same⟩ | ⟨_, _, same⟩
  · exact same ▸ still
  · rw [same] at still
    exact still
  · exact isOpen_of_onSendEnd (same ▸ still)

theorem isOpen_of_onSend {request : Nat} (still : (client.onSend request).isOpen = true) :
    client.isOpen = true := by
  have opened : (client.forget request).isOpen = true := isOpen_of_notify still
  exact opened

/-- **What is open was open before.** -/
theorem isOpen_of_step {event : ClientEvent} (stepped : client.step event = some next)
    (still : next.isOpen = true) : client.isOpen = true := by
  cases stepped_of_step stepped with
  | send data outcome isOpen => exact isOpen
  | close => exact isOpen_of_close still
  | crash => simp [crash, isOpen] at still
  | setTimeout time => exact still
  | onWriteReturns running => exact isOpen_of_onSendEnd still
  | sent request idle isOwed =>
    have opened : ({ client with owed := client.owed.erase request } : SSLClient).isOpen = true :=
      isOpen_of_onSend still
    exact opened
  | timeout idle armed => simp [crash, isOpen] at still
  | closed idle alive closing completed => simp [isOpen] at still

end SSLClient

/-- The steps of `__on_recv`. -/
def ConnectionEvent.ofLoop : ConnectionEvent → Bool
  | .received _ | .onRead _ | .loopTest => true
  | _ => false

namespace Connection

variable {connection next : Connection} {handlers : Handlers}

/-- Nothing that the loop of `__on_recv` looks at has changed, but the connection may be closed. -/
structure Undisturbed (connection next : Connection) : Prop where
  buffer : next.client.buffer = connection.client.buffer
  phase : next.phase = connection.phase
  wantRead : next.wantRead = connection.wantRead
  isOpen : next.client.isOpen = true → connection.client.isOpen = true

theorem Managed.clientStep_undisturbed (managed : connection.Managed) {event : ClientEvent}
    (stepped : connection.clientStep event = some next) : Undisturbed connection next := by
  rw [managed.clientStep, Option.map_eq_some_iff] at stepped
  obtain ⟨client, isClient, rfl⟩ := stepped
  exact ⟨SSLClient.step_buffer isClient, rfl, rfl, SSLClient.isOpen_of_step isClient⟩

theorem clientWrite_undisturbed (data : Bytes) :
    Undisturbed connection (connection.clientWrite data) := by
  unfold clientWrite
  split
  · exact ⟨rfl, rfl, rfl, id⟩
  · exact ⟨rfl, rfl, rfl, id⟩

theorem send_undisturbed (gemini : GeminiConnection) (data : Bytes) :
    Undisturbed connection (connection.send gemini data) := by
  have written : Undisturbed
      { connection with
        gemini := some { gemini with buffer := ((gemini.buffer.write data).read 1024).1 } }
      (connection.send gemini data) := clientWrite_undisturbed _
  exact ⟨written.buffer, written.phase, written.wantRead, written.isOpen⟩

theorem managerOnClose_undisturbed (connection : Connection) :
    Undisturbed connection connection.managerOnClose := by
  unfold managerOnClose
  split
  · exact ⟨rfl, rfl, rfl, id⟩
  · exact ⟨rfl, rfl, rfl, id⟩

theorem dispatch_kept (gemini : GeminiConnection) :
    (connection.dispatch handlers gemini).client.buffer = connection.client.buffer ∧
      (connection.dispatch handlers gemini).wantRead = connection.wantRead := by
  unfold dispatch
  cases handlers with
  | none => exact ⟨rfl, rfl⟩
  | some handlers =>
    cases found : handlers.findIdx? fun shouldHandle =>
        shouldHandle gemini.request.host gemini.request.path with
    | some index => simp only [found, and_self]
    | none =>
      simp only [found, SSLClient.close_buffer, send_client, true_and]
      exact (send_undisturbed gemini _).wantRead

/-- `on_read` with nothing left to take. -/
theorem onRead_kept (handlers : Handlers) (connection : Connection) (gemini : GeminiConnection)
    (result : Except ReadError Bytes) (wantRead : Bool) :
    (connection.onRead handlers gemini ⟨result, 0, wantRead⟩).client.buffer =
        connection.client.buffer ∧
      (connection.onRead handlers gemini ⟨result, 0, wantRead⟩).wantRead = wantRead := by
  unfold onRead
  rw [BufferPipe.read_zero]
  cases result with
  | error error => cases error <;> exact ⟨rfl, rfl⟩
  | ok data =>
    simp only [onHeader]
    split
    · exact ⟨rfl, rfl⟩
    · split
      · exact ⟨rfl, rfl⟩
      · split
        · exact ⟨rfl, rfl⟩
        · exact dispatch_kept _

/-- **Every step but those of the loop** leaves it alone. -/
theorem Managed.undisturbed (managed : connection.Managed) {event : ConnectionEvent}
    (step : connection.step handlers event = some next) (apart : event.ofLoop = false) :
    Undisturbed connection next := by
  cases event with
  | received | onRead | loopTest => cases apart
  | send data =>
    obtain ⟨gemini, isOpen, rfl⟩ := Option.map_eq_some_iff.mp step
    exact send_undisturbed gemini data
  | close =>
    obtain ⟨_, _, rfl⟩ := Option.map_eq_some_iff.mp step
    exact ⟨SSLClient.close_buffer, rfl, rfl, SSLClient.isOpen_of_close⟩
  | setClientCloseCallback registration =>
    obtain ⟨gemini, isOpen, rfl⟩ := Option.map_eq_some_iff.mp step
    exact ⟨rfl, rfl, rfl, id⟩
  | record data outcome => exact managed.clientStep_undisturbed step
  | onWriteReturns => exact managed.clientStep_undisturbed step
  | sent request => exact managed.clientStep_undisturbed (Option.ite_none_right_eq_some.mp step).2
  | timeout => exact managed.clientStep_undisturbed (Option.ite_none_right_eq_some.mp step).2
  | closed =>
    obtain ⟨_, same⟩ := Option.ite_none_right_eq_some.mp step
    obtain ⟨client, isClient, rfl⟩ := Option.map_eq_some_iff.mp same
    rw [managed.onClose]
    obtain ⟨_, phase, wantRead, _⟩ := managerOnClose_undisturbed connection
    exact ⟨SSLClient.step_buffer isClient, phase, wantRead, SSLClient.isOpen_of_step isClient⟩

end Connection

/-! ### A reader of the byte stream -/

namespace TlsConnection

variable {tls next : TlsConnection} {handlers : Handlers} {timeoutTime : Nat}

/-- What holds between any two steps. -/
structure Right (tls : TlsConnection) : Prop where
  managed : tls.connection.Managed
  accepts : tls.connection.client.buffer.closed = false
  conserved : taken tls.answers ++ tls.connection.client.buffer.contents = tls.received
  answered : Trace.Preceded Answer.Reads tls.answers
  documented : ∀ call ∈ tls.call, call.Documented tls.blocked
  reads : tls.call ≠ none → tls.connection.phase = .reading
  blocked : tls.call ≠ none → tls.blocked = true → tls.connection.client.buffer.contents = []
  drained : tls.connection.phase = .read → tls.connection.wantRead = true →
    tls.connection.client.buffer.contents = []
  idle : tls.connection.phase = .idle → tls.connection.client.isOpen = true →
    tls.connection.client.buffer.contents = []

theorem start_right : (start timeoutTime).Right where
  managed := Connection.accept_managed timeoutTime
  accepts := rfl
  conserved := rfl
  answered := Trace.preceded_nil
  documented _ isCall := nomatch isCall
  reads running := absurd rfl running
  blocked running := absurd rfl running
  drained _ _ := rfl
  idle _ _ := rfl

/-- Anything that leaves the ciphertext and the loop alone. -/
theorem Right.undisturbed (right : tls.Right)
    (undisturbed : Connection.Undisturbed tls.connection next.connection)
    (managed : next.connection.Managed) (received : next.received = tls.received)
    (answers : next.answers = tls.answers) (call : next.call ≠ none → tls.call ≠ none)
    (blocked : next.blocked = tls.blocked)
    (documented : ∀ call ∈ next.call, call.Documented tls.blocked) : next.Right := by
  obtain ⟨buffer, phase, wantRead, isOpen⟩ := undisturbed
  refine ⟨managed, ?_, ?_, ?_, ?_, ?_, ?_, ?_, ?_⟩
  · rw [buffer]
    exact right.accepts
  · rw [buffer, received, answers]
    exact right.conserved
  · rw [answers]
    exact right.answered
  · rw [blocked]
    exact documented
  · rw [phase]
    exact fun running => right.reads (call running)
  · rw [buffer, blocked]
    exact fun running => right.blocked (call running)
  · rw [buffer, phase, wantRead]
    exact right.drained
  · rw [buffer, phase]
    exact fun rests still => right.idle rests (isOpen still)

/-- **`__recv` answers as a reader of the stream does.** -/
theorem Right.recv {size : Nat} {resume : Except RecvError Bytes → TlsCall} (right : tls.Right)
    (running : tls.call = some (.recv size resume)) : (tls.recv size resume).Right := by
  have goesOn : ∀ reply, (resume reply).Documented (decide (reply = .error .wantRead)) := by
    cases right.documented _ running with
    | recv blocked size next later => exact later
  have reading : tls.connection.phase = .reading := right.reads (by simp [running])
  have left := tls.connection.client.ioRecv_contents size
  have isReply := tls.connection.client.ioRecv_reply size
  have conserved := right.conserved
  generalize tls.connection.client.buffer.contents = waiting at left isReply conserved
  refine ⟨?_, ?_, ?_, ?_, ?_, fun _ => reading, ?_, ?_, ?_⟩
  · exact (tls.connection.client.ioRecv_context size).trans right.managed
  · exact (tls.connection.client.ioRecv_closed size).trans right.accepts
  · show taken (tls.answers ++ [_]) ++ (tls.connection.client.ioRecv size).1.buffer.contents =
      tls.received
    rw [left, taken, List.flatMap_append, ← conserved, List.append_assoc, isReply]
    refine congrArg (taken tls.answers ++ ·) ?_
    by_cases empty : waiting = []
    · simp [Answer.data, empty]
    · simp [Answer.data, empty]
  · exact (Trace.preceded_concat_iff _ _).mpr ⟨right.answered, waiting, conserved.symm, isReply⟩
  · exact fun call isCall => Option.some.inj isCall ▸ goesOn _
  · intro _ isBlocked
    have isBlocked : (tls.connection.client.ioRecv size).2 = .error .wantRead :=
      of_decide_eq_true isBlocked
    by_cases empty : waiting = []
    · rw [← List.drop_nil (i := size), ← empty]
      exact left
    · rw [isReply, if_neg empty] at isBlocked
      cases isBlocked
  · exact fun isRead => absurd (reading.symm.trans isRead) nofun
  · exact fun rests => absurd (reading.symm.trans rests) nofun

/-- `__on_recv` writes what has arrived behind what waits. -/
theorem Right.received {ciphertext : Bytes} (right : tls.Right) (resting : tls.call = none) :
    ({ tls with
      connection := { tls.connection with
        client := { tls.connection.client.resetTimeout with
          buffer := tls.connection.client.resetTimeout.buffer.write ciphertext }
        phase := if tls.connection.client.resetTimeout.context.isSome then .reading else .idle }
      received := tls.received ++ ciphertext } : TlsConnection).Right := by
  have buffer : tls.connection.client.resetTimeout.buffer = tls.connection.client.buffer := by
    unfold SSLClient.resetTimeout
    split <;> rfl
  have context : tls.connection.client.resetTimeout.context = some .manager :=
    tls.connection.client.resetTimeout_context.trans right.managed
  rw [buffer, context]
  refine ⟨context, ?_, ?_, right.answered, right.documented, fun running => absurd resting running,
    fun running => absurd resting running, fun isRead => (nomatch isRead),
    fun rests => (nomatch rests)⟩
  · exact (BufferPipe.closed_write _ _).trans right.accepts
  · show _ ++ (tls.connection.client.buffer.write ciphertext).contents = _
    rw [BufferPipe.contents_write _ right.accepts, ← List.append_assoc, right.conserved]

/-- The test at the end of the loop: it leaves the loop with an open connection only if nothing
waits. -/
theorem Right.loopTest (right : tls.Right) (resting : tls.call = none)
    (isRead : tls.connection.phase = .read) : ({ tls with
      connection := { tls.connection with
        phase := if tls.connection.client.isOpen && tls.connection.client.hasData &&
          !tls.connection.wantRead then .reading else .idle }
      received := tls.received ++ [] } : TlsConnection).Right := by
  refine ⟨right.managed, right.accepts, ?_, right.answered, right.documented,
    fun running => absurd resting running, fun running => absurd resting running, ?_, ?_⟩
  · rw [List.append_nil]
    exact right.conserved
  · intro stillRead
    split at stillRead <;> cases stillRead
  · intro rests isOpen
    have isOpen : tls.connection.client.isOpen = true := isOpen
    by_cases empty : tls.connection.client.buffer.contents = []
    · exact empty
    · have hasData : tls.connection.client.hasData = true := by
        refine decide_eq_true (Nat.pos_of_ne_zero fun none => empty ?_)
        exact List.length_eq_zero_iff.mp ((BufferPipe.length_contents _).trans none)
      cases wants : tls.connection.wantRead with
      | true => exact right.drained isRead wants
      | false => simp [isOpen, hasData, wants] at rests

/-- **`on_read`** with the result of the read. -/
theorem Right.returns {result : Except ReadError Bytes} {wantRead : Bool} (right : tls.Right)
    (running : tls.call = some (.returns result wantRead)) (gemini : GeminiConnection) : ({ tls with
      connection :=
        { tls.connection.onRead handlers gemini ⟨result, 0, wantRead⟩ with phase := .read }
      call := none } : TlsConnection).Right := by
  have isRunning : tls.call ≠ none := by simp [running]
  have honest : wantRead = true → tls.blocked = true := by
    cases right.documented _ running with
    | returns blocked result wantRead fits honest => exact honest
  obtain ⟨buffer, wants⟩ :=
    Connection.onRead_kept handlers tls.connection gemini result wantRead
  refine ⟨?_, ?_, ?_, right.answered, fun _ isCall => (nomatch isCall), fun none => absurd rfl none,
    fun none => absurd rfl none, ?_, fun rests => nomatch rests⟩
  · exact (Connection.onRead_context gemini _).trans right.managed
  · exact (congrArg BufferPipe.closed buffer).trans right.accepts
  · show taken tls.answers ++ (tls.connection.onRead handlers gemini _).client.buffer.contents = _
    rw [buffer]
    exact right.conserved
  · intro _ wanting
    have isWanting : wantRead = true := wants ▸ wanting
    exact (congrArg BufferPipe.contents buffer).trans (right.blocked isRunning (honest isWanting))

/-- Anything but a read. -/
theorem Right.connection {event : ConnectionEvent} {after : Connection} (right : tls.Right)
    (permitted : tls.permits event = true)
    (stepped : tls.connection.step handlers event = some after) :
    ({ tls with
      connection := after, received := tls.received ++ event.ciphertext } : TlsConnection).Right := by
  have managed : after.Managed := right.managed.step stepped
  cases apart : event.ofLoop with
  | false =>
    have silent : event.ciphertext = [] := by
      cases event <;> simp_all [ConnectionEvent.ofLoop, ConnectionEvent.ciphertext]
    refine right.undisturbed (right.managed.undisturbed stepped apart) managed ?_ rfl id rfl
      right.documented
    rw [silent, List.append_nil]
  | true =>
    cases event with
    | received nread =>
      obtain ⟨_, same⟩ := Option.ite_none_right_eq_some.mp stepped
      cases nread with
      | none =>
        obtain rfl := Option.some.inj same
        exact right.undisturbed ⟨SSLClient.close_buffer, rfl, rfl, SSLClient.isOpen_of_close⟩
          managed (List.append_nil _) rfl id rfl right.documented
      | some ciphertext =>
        obtain rfl := Option.some.inj same
        exact right.received (Option.isNone_iff_eq_none.mp permitted)
    | loopTest =>
      obtain ⟨isRead, same⟩ := Option.ite_none_right_eq_some.mp stepped
      obtain rfl := Option.some.inj same
      exact right.loopTest (Option.isNone_iff_eq_none.mp permitted) isRead
    | onRead | send | close | setClientCloseCallback | record | onWriteReturns | sent | timeout |
      closed => simp_all [ConnectionEvent.ofLoop, permits]

/-- **Every step keeps the answers right.** -/
theorem Right.step {event : TlsConnectionEvent} (right : tls.Right)
    (stepped : tls.step handlers event = some next) : next.Right := by
  cases event with
  | connection event =>
    obtain ⟨permitted, same⟩ := Option.ite_none_right_eq_some.mp stepped
    obtain ⟨after, isAfter, rfl⟩ := Option.map_eq_some_iff.mp same
    exact right.connection permitted isAfter
  | onRead read =>
    obtain ⟨⟨_, reading, _⟩, same⟩ := Option.ite_none_right_eq_some.mp stepped
    obtain rfl := Option.some.inj same
    refine ⟨right.managed, right.accepts, right.conserved, right.answered, ?_, fun _ => reading,
      fun _ isBlocked => (nomatch isBlocked), right.drained, right.idle⟩
    exact fun call isCall => Option.some.inj isCall ▸ read.documented
  | recv =>
    simp only [TlsConnection.step] at stepped
    split at stepped
    · obtain ⟨_, same⟩ := Option.ite_none_right_eq_some.mp stepped
      exact Option.some.inj same ▸ right.recv ‹_›
    · cases stepped
  | send outcome =>
    simp only [TlsConnection.step] at stepped
    split at stepped
    · next data resume running =>
      obtain ⟨_, sent⟩ := Option.ite_none_right_eq_some.mp stepped
      have goesOn : ∀ reply, (resume reply).Documented tls.blocked := by
        cases right.documented _ running with
        | send blocked data next later => exact later
      have isRunning : tls.call ≠ none := by simp [running]
      unfold TlsConnection.send at sent
      split at sent
      · obtain ⟨taken, isTaken, rfl⟩ := Option.map_eq_some_iff.mp sent
        have isStep : tls.connection.step handlers (.record data outcome) = some taken := isTaken
        exact right.undisturbed (right.managed.clientStep_undisturbed isTaken)
          (right.managed.step isStep) rfl rfl (fun _ => isRunning) rfl
          fun call isCall => Option.some.inj isCall ▸ goesOn _
      · obtain rfl := Option.some.inj sent
        exact right.undisturbed ⟨rfl, rfl, rfl, id⟩ right.managed rfl rfl (fun _ => isRunning) rfl
          fun call isCall => Option.some.inj isCall ▸ goesOn _
    · cases stepped
  | returns =>
    simp only [TlsConnection.step] at stepped
    split at stepped
    · obtain ⟨_, same⟩ := Option.ite_none_right_eq_some.mp stepped
      exact Option.some.inj same ▸ right.returns ‹_› _
    · cases stepped

/-- **`__recv` reads the stream that libuv delivers**: each of its answers is the next bytes, or that
there are none; and when libuv gets the control back, an open connection has handed on all it
received. -/
theorem run_answers {events : List TlsConnectionEvent} {final : TlsConnection}
    (ran : run (step handlers) (start timeoutTime) events = some final) :
    Trace.Preceded Answer.Reads final.answers ∧ taken final.answers <+: final.received ∧
      (final.connection.phase = .idle → final.connection.client.isOpen = true →
        taken final.answers = final.received) := by
  have right : final.Right :=
    run_always Right (fun _ _ _ right stepped => right.step stepped) start_right ran
  refine ⟨right.answered, ⟨_, right.conserved⟩, fun rests isOpen => ?_⟩
  rw [← right.conserved, right.idle rests isOpen, List.append_nil]

theorem run_answers_twoReceptions : ∃ final : TlsConnection,
    run (step everyRequest) (start 0) twoReceptions = some final ∧
      Trace.Preceded Answer.Reads final.answers ∧ taken final.answers <+: final.received ∧
      (final.connection.phase = .idle → final.connection.client.isOpen = true →
        taken final.answers = final.received) :=
  ⟨_, rfl, run_answers (show run (step everyRequest) (start 0) twoReceptions = some _ from rfl)⟩

end TlsConnection

end GemCaps
