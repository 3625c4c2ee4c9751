/-
**`SSLClient`, one TLS connection** (`server.cpp`).

The machine has one step for every call the context or the TLS layer makes and for every callback
libuv runs. `_send` and `__on_send` call the context's `on_write`, which may send and close in turn:
`__on_send` is therefore cut in two, before and after that call (`onWrites` counts the calls that
have not returned yet). Fewer than `2 ^ 64` writes are queued at any time, so that `queued_writes` is
a number that only wraps when it is decremented at 0.
-/

import GemCaps.Connection.Pipe
import GemCaps.Library.Transition

namespace GemCaps

/-- The two classes that implement `ClientContext`. -/
inductive ClientContext where
  | manager
  | connection
deriving DecidableEq

/-- A call that ends the TCP handle; `uv_close` with the value of `queued_writes` and the number of
writes that libuv has not completed. -/
inductive HandleCall where
  | uvClose (queuedWrites owed : Nat)
  | uvTcpCloseReset
deriving DecidableEq

/-- `SSLClient`, and what libuv knows of it. -/
structure SSLClient where
  /-- The pointer `client` is not null. -/
  client : Bool := true
  buffer : BufferPipe := BufferPipe.empty
  queuedWrites : Nat := 0
  queuedClose : Bool := false
  closing : Bool := false
  context : Option ClientContext := none
  /-- The constructor does not set it. -/
  timeoutTime : Nat
  /-- The `uv_write_t` that are in use, with their buffers. -/
  writeRequests : List (Nat × List Bytes) := []
  nextRequest : Nat := 0
  /-- The time the timer is armed with. -/
  timer : Option Nat := none
  reading : Bool := false
  /-- The writes for which libuv still owes `__on_send`. -/
  owed : List Nat := []
  /-- The calls of `on_write` that have not returned. -/
  onWrites : Nat := 0
  calls : List HandleCall := []

/-- What `uv_try_write` and `uv_write` do with the buffers of one `_send`. -/
inductive Outcome where
  /-- `uv_try_write` takes this many bytes at once. -/
  | wrote (written : Nat)
  /-- `uv_try_write` takes none, `uv_write` succeeds. -/
  | queued
  /-- Both fail. -/
  | refused
deriving DecidableEq

/-- `uv_try_write` takes at least one byte and no more than there are. -/
def Outcome.fits (data : Bytes) : Outcome → Bool
  | .wrote written => decide (0 < written ∧ written ≤ data.length)
  | _ => true

/-- The buffers that `_send` fills; one round uses up at least one byte. -/
def chunks : Nat → Bytes → List Bytes
  | 0, _ => []
  | rounds + 1, data => if data = [] then [] else data.take 1024 :: chunks rounds (data.drop 1024)

namespace SSLClient

variable (client : SSLClient)

/-- `is_open()`. -/
def isOpen : Bool := client.client && !client.closing

/-- `hasData()`. -/
def hasData : Bool := decide (0 < client.buffer.ready)

/-- `setTimeout(time)`. -/
def setTimeout (time : Nat) : SSLClient :=
  { client with timeoutTime := time, timer := if time = 0 then none else some time }

/-- `resetTimeout()`. -/
def resetTimeout : SSLClient :=
  if client.timeoutTime = 0 then client else { client with timer := some client.timeoutTime }

/-- `listen()` and `stop_listening()`. -/
def listen : SSLClient := { client with reading := true }

def stopListening : SSLClient := { client with reading := false }

/-- `close()`. -/
def close : SSLClient :=
  if 0 < client.queuedWrites ∧ client.queuedClose = false then { client with queuedClose := true }
  else
    { client with
      closing := true
      queuedClose := false
      timer := none
      calls := if client.client then
          client.calls ++ [.uvClose client.queuedWrites client.owed.length]
        else client.calls }

/-- `crash()`. -/
def crash : SSLClient :=
  { client with
    closing := true
    queuedClose := false
    timer := none
    calls := if client.client then client.calls ++ [.uvTcpCloseReset] else client.calls }

/-- The end of `__on_send`, after `on_write` has returned. -/
def onSendEnd : SSLClient := if client.queuedClose then client.close else client

/-- The first half of `__on_send`: the buffers go back and the write is no longer counted. -/
def forget (request : Nat) : SSLClient :=
  { client with
    writeRequests := client.writeRequests.filter fun entry => entry.1 != request
    queuedWrites := if client.queuedWrites = 0 then 2 ^ 64 - 1 else client.queuedWrites - 1 }

/-- The second half up to the call of `on_write`; without a context it runs to its end. -/
def notify : SSLClient :=
  if client.queuedWrites = 0 then
    match client.context with
    | some _ => { client with onWrites := client.onWrites + 1 }
    | none => client.onSendEnd
  else client

/-- `__on_send` up to the call of `on_write`. -/
def onSend (request : Nat) : SSLClient := (client.forget request).notify

/-- `_send` up to `uv_try_write`. -/
def register (data : Bytes) : SSLClient :=
  { client with
    writeRequests := client.writeRequests ++ [(client.nextRequest, chunks data.length data)]
    nextRequest := client.nextRequest + 1
    queuedWrites := client.queuedWrites + 1 }

/-- `_send(buf, size)`. -/
def send (data : Bytes) (outcome : Outcome) : SSLClient :=
  let registered := client.resetTimeout.register data
  match outcome with
  | .wrote _ => registered.onSend client.nextRequest
  | .queued => { registered with owed := registered.owed ++ [client.nextRequest] }
  | .refused => registered

end SSLClient

/-- What can happen to an `SSLClient`. -/
inductive ClientEvent where
  /-- The TLS layer sends through `SSLServer::__send`. -/
  | send (data : Bytes) (outcome : Outcome)
  | close
  | crash
  | setTimeout (time : Nat)
  /-- `on_write` returns to `__on_send`. -/
  | onWriteReturns
  /-- libuv completes a write. -/
  | sent (request : Nat)
  | timeout
  /-- libuv runs `__on_close`. -/
  | closed
deriving DecidableEq

/-- One step; `none` where the event cannot happen. libuv runs callbacks only when no other code
runs, and the close callback after the writes are completed. -/
def SSLClient.step (client : SSLClient) : ClientEvent → Option SSLClient
  | .send data outcome =>
    if client.isOpen ∧ outcome.fits data then some (client.send data outcome) else none
  | .close => some client.close
  | .crash => some client.crash
  | .setTimeout time => some (client.setTimeout time)
  | .onWriteReturns =>
    if 0 < client.onWrites then some { client.onSendEnd with onWrites := client.onWrites - 1 }
    else none
  | .sent request =>
    if client.onWrites = 0 ∧ request ∈ client.owed then
      some ({ client with owed := client.owed.erase request }.onSend request)
    else none
  | .timeout =>
    if client.onWrites = 0 ∧ client.timer.isSome then some { client with timer := none }.crash
    else none
  | .closed =>
    if client.onWrites = 0 ∧ client.client ∧ client.closing ∧ client.owed = [] then
      some { client with client := false, reading := false }
    else none

/-! ### Frames -/

namespace SSLClient

variable (client : SSLClient)

@[simp] theorem close_owed : client.close.owed = client.owed := by
  unfold close
  split <;> rfl

@[simp] theorem close_queuedWrites : client.close.queuedWrites = client.queuedWrites := by
  unfold close
  split <;> rfl

@[simp] theorem close_context : client.close.context = client.context := by
  unfold close
  split <;> rfl

@[simp] theorem onSendEnd_owed : client.onSendEnd.owed = client.owed := by
  unfold onSendEnd
  split <;> simp

@[simp] theorem onSendEnd_queuedWrites : client.onSendEnd.queuedWrites = client.queuedWrites := by
  unfold onSendEnd
  split <;> simp

@[simp] theorem onSendEnd_context : client.onSendEnd.context = client.context := by
  unfold onSendEnd
  split <;> simp

/-- The second half of `__on_send`: other writes are queued, or `on_write` is called, or without a
context it runs to its end. -/
theorem notify_cases :
    (0 < client.queuedWrites ∧ client.notify = client) ∨
      (client.queuedWrites = 0 ∧ client.context ≠ none ∧
        client.notify = { client with onWrites := client.onWrites + 1 }) ∨
      (client.queuedWrites = 0 ∧ client.context = none ∧ client.notify = client.onSendEnd) := by
  unfold notify
  by_cases last : client.queuedWrites = 0
  · rw [if_pos last]
    cases client.context with
    | some context => exact .inr (.inl ⟨last, Option.some_ne_none context, rfl⟩)
    | none => exact .inr (.inr ⟨last, rfl, rfl⟩)
  · rw [if_neg last]
    exact .inl ⟨Nat.pos_of_ne_zero last, rfl⟩

@[simp] theorem notify_context : client.notify.context = client.context := by
  rcases client.notify_cases with ⟨_, same⟩ | ⟨_, _, same⟩ | ⟨_, _, same⟩
  · rw [same]
  · rw [same]
  · rw [same, onSendEnd_context]

@[simp] theorem onSend_context (request : Nat) : (client.onSend request).context = client.context :=
  (client.forget request).notify_context

@[simp] theorem resetTimeout_context : client.resetTimeout.context = client.context := by
  unfold resetTimeout
  split <;> rfl

@[simp] theorem resetTimeout_queuedWrites :
    client.resetTimeout.queuedWrites = client.queuedWrites := by
  unfold resetTimeout
  split <;> rfl

@[simp] theorem resetTimeout_queuedClose :
    client.resetTimeout.queuedClose = client.queuedClose := by
  unfold resetTimeout
  split <;> rfl

@[simp] theorem send_context (data : Bytes) (outcome : Outcome) :
    (client.send data outcome).context = client.context := by
  cases outcome <;> simp [send, register]

/-- What a step can be. -/
inductive Stepped (client : SSLClient) : ClientEvent → SSLClient → Prop where
  | send (data : Bytes) (outcome : Outcome) (isOpen : client.isOpen = true) :
      Stepped client (.send data outcome) (client.send data outcome)
  | close : Stepped client .close client.close
  | crash : Stepped client .crash client.crash
  | setTimeout (time : Nat) : Stepped client (.setTimeout time) (client.setTimeout time)
  | onWriteReturns (running : 0 < client.onWrites) :
      Stepped client .onWriteReturns { client.onSendEnd with onWrites := client.onWrites - 1 }
  | sent (request : Nat) (idle : client.onWrites = 0) (isOwed : request ∈ client.owed) :
      Stepped client (.sent request)
        ({ client with owed := client.owed.erase request }.onSend request)
  | timeout (idle : client.onWrites = 0) (armed : client.timer.isSome = true) :
      Stepped client .timeout { client with timer := none }.crash
  | closed (idle : client.onWrites = 0) (alive : client.client = true)
      (closing : client.closing = true) (completed : client.owed = []) :
      Stepped client .closed { client with client := false, reading := false }

/-- **Every step is one of these.** -/
theorem stepped_of_step {client next : SSLClient} {event : ClientEvent}
    (stepped : client.step event = some next) : Stepped client event next := by
  cases event with
  | send data outcome =>
    obtain ⟨⟨isOpen, _⟩, same⟩ := Option.ite_none_right_eq_some.mp stepped
    exact Option.some.inj same ▸ .send data outcome isOpen
  | close => exact Option.some.inj stepped ▸ .close
  | crash => exact Option.some.inj stepped ▸ .crash
  | setTimeout time => exact Option.some.inj stepped ▸ .setTimeout time
  | onWriteReturns =>
    obtain ⟨running, same⟩ := Option.ite_none_right_eq_some.mp stepped
    exact Option.some.inj same ▸ .onWriteReturns running
  | sent request =>
    obtain ⟨⟨idle, isOwed⟩, same⟩ := Option.ite_none_right_eq_some.mp stepped
    exact Option.some.inj same ▸ .sent request idle isOwed
  | timeout =>
    obtain ⟨⟨idle, armed⟩, same⟩ := Option.ite_none_right_eq_some.mp stepped
    exact Option.some.inj same ▸ .timeout idle armed
  | closed =>
    obtain ⟨⟨idle, alive, closing, completed⟩, same⟩ := Option.ite_none_right_eq_some.mp stepped
    exact Option.some.inj same ▸ .closed idle alive closing completed

/-- **No step changes the context.** -/
theorem step_context {next : SSLClient} {event : ClientEvent}
    (stepped : client.step event = some next) : next.context = client.context := by
  cases stepped_of_step stepped with
  | send data outcome isOpen => exact client.send_context data outcome
  | close => exact client.close_context
  | crash => rfl
  | setTimeout time => rfl
  | onWriteReturns running => exact client.onSendEnd_context
  | sent request idle isOwed => exact onSend_context _ request
  | timeout idle armed => rfl
  | closed idle alive closing completed => rfl

end SSLClient

end GemCaps
