/-
**What leaves a connection.**

`send` appends its payload to the queue of the connection and passes at most 1024 bytes on; the rest
waits for a later `send`, because the notifications about completed writes go to the `Manager`.
`delivered_iff`: what has been passed on before the handle is closed is the concatenation of the
payloads if and only if every final stretch of the payloads fits into 1024 bytes for each of its
sends.
-/

import GemCaps.Connection.Manager
import GemCaps.Library.Backlog

namespace GemCaps

open Transition Backlog

/-- The steps that neither close the connection nor read from it. -/
def ConnectionEvent.flows : ConnectionEvent → Bool
  | .loopTest | .send _ | .setClientCloseCallback _ | .record _ _ | .onWriteReturns | .sent _ => true
  | .received _ | .onRead _ | .close | .timeout | .closed => false

/-- What a step sends. -/
def ConnectionEvent.payload : ConnectionEvent → Option Bytes
  | .send data => some data
  | _ => none

/-- The payloads of a run. -/
def payloads (events : List ConnectionEvent) : List Bytes := events.filterMap ConnectionEvent.payload

theorem payloads_concat_of_none {past : List ConnectionEvent} {event : ConnectionEvent}
    (none : event.payload = .none) : payloads (past ++ [event]) = payloads past := by
  rw [payloads, List.filterMap_append, List.filterMap_cons_none none, List.filterMap_nil,
    List.append_nil]
  rfl

namespace SSLClient

variable {client next : SSLClient}

/-- No close is requested. -/
def Unclosed (client : SSLClient) : Prop := client.closing = false ∧ client.queuedClose = false

theorem Unclosed.onSendEnd (unclosed : client.Unclosed) : client.onSendEnd = client :=
  if_neg (by simp [unclosed.2])

theorem Unclosed.notify (unclosed : client.Unclosed) : client.notify.Unclosed := by
  unfold SSLClient.notify
  split
  · split
    · exact unclosed
    · rwa [unclosed.onSendEnd]
  · exact unclosed

theorem Unclosed.resetTimeout (unclosed : client.Unclosed) : client.resetTimeout.Unclosed := by
  unfold SSLClient.resetTimeout
  split <;> exact unclosed

/-- **Sending and completing writes does not request a close.** -/
theorem Unclosed.send (unclosed : client.Unclosed) {data : Bytes} {outcome : Outcome}
    (stepped : client.step (.send data outcome) = some next) : next.Unclosed := by
  obtain ⟨_, same⟩ := Option.ite_none_right_eq_some.mp stepped
  obtain rfl := Option.some.inj same
  have registered : (client.resetTimeout.register data).Unclosed := unclosed.resetTimeout
  cases outcome with
  | wrote written =>
    have forgotten : ((client.resetTimeout.register data).forget client.nextRequest).Unclosed :=
      registered
    exact forgotten.notify
  | queued => exact registered
  | refused => exact registered

theorem Unclosed.sent (unclosed : client.Unclosed) {request : Nat}
    (stepped : client.step (.sent request) = some next) : next.Unclosed := by
  obtain ⟨_, same⟩ := Option.ite_none_right_eq_some.mp stepped
  obtain rfl := Option.some.inj same
  have forgotten : (({ client with owed := client.owed.erase request } : SSLClient).forget
      request).Unclosed := unclosed
  exact forgotten.notify

theorem Unclosed.onWriteReturns (unclosed : client.Unclosed)
    (stepped : client.step .onWriteReturns = some next) : next.Unclosed := by
  obtain ⟨_, same⟩ := Option.ite_none_right_eq_some.mp stepped
  obtain rfl := Option.some.inj same
  rw [unclosed.onSendEnd]
  exact unclosed

end SSLClient

namespace Connection

variable {connection next : Connection} {handlers : Handlers}

/-- A connection that is open, with the queue and the passed bytes after these payloads. -/
structure Flowing (arrived : List Bytes) (connection : Connection) : Prop where
  managed : connection.Managed
  unclosed : connection.client.Unclosed
  queue : ∃ gemini, connection.gemini = some gemini ∧ gemini.buffer.closed = false ∧
    (gemini.buffer.contents, connection.written) = transferAll 1024 ([], []) arrived

/-- **One `send` is one transfer.** -/
theorem Flowing.send {arrived : List Bytes} (flowing : connection.Flowing arrived)
    {gemini : GeminiConnection} (isOpen : connection.gemini = some gemini) (data : Bytes) :
    (connection.send gemini data).Flowing (arrived ++ [data]) := by
  obtain ⟨other, same, bufferOpen, queue⟩ := flowing.queue
  obtain rfl : gemini = other := Option.some.inj (isOpen.symm.trans same)
  have unclosed : connection.client.closing ≠ true := by simp [flowing.unclosed.1]
  obtain ⟨taken, left⟩ := (gemini.buffer.write data).read_eq 1024
  rw [BufferPipe.contents_write _ bufferOpen] at taken left
  have sent : connection.send gemini data =
      { connection with
        gemini := some { gemini with buffer := ((gemini.buffer.write data).read 1024).1 }
        written := connection.written ++ (gemini.buffer.contents ++ data).take 1024 } := by
    rw [Connection.send, clientWrite, if_neg unclosed, taken]
  rw [sent]
  refine ⟨flowing.managed, flowing.unclosed, _, rfl, by simpa using bufferOpen, ?_⟩
  have step : transferAll 1024 ([], []) (arrived ++ [data]) =
      transfer 1024 (gemini.buffer.contents, connection.written) data := by
    rw [queue, transferAll, List.foldl_append]
    rfl
  rw [step, left, transfer]

/-- A step of the client that requests no close changes nothing of the flow. -/
theorem Flowing.client {arrived : List Bytes} (flowing : connection.Flowing arrived)
    {event : ClientEvent}
    (keeps : ∀ client, connection.client.step event = some client → client.Unclosed)
    (stepped : connection.clientStep event = some next) : next.Flowing arrived := by
  rw [flowing.managed.clientStep, Option.map_eq_some_iff] at stepped
  obtain ⟨client, isClient, rfl⟩ := stepped
  exact ⟨(connection.client.step_context isClient).trans flowing.managed, keeps client isClient,
    flowing.queue⟩

/-- **One step of the flow.** -/
theorem Flowing.step {past : List ConnectionEvent} (flowing : connection.Flowing (payloads past))
    {event : ConnectionEvent} (flows : event.flows = true)
    (stepped : connection.step handlers event = some next) :
    next.Flowing (payloads (past ++ [event])) := by
  cases event with
  | send data =>
    obtain ⟨gemini, isOpen, rfl⟩ := Option.map_eq_some_iff.mp stepped
    have grown : payloads (past ++ [.send data]) = payloads past ++ [data] := by
      rw [payloads, List.filterMap_append]
      rfl
    rw [grown]
    exact flowing.send isOpen data
  | setClientCloseCallback registration =>
    obtain ⟨gemini, isOpen, rfl⟩ := Option.map_eq_some_iff.mp stepped
    obtain ⟨other, same, bufferOpen, queue⟩ := flowing.queue
    obtain rfl : gemini = other := Option.some.inj (isOpen.symm.trans same)
    rw [payloads_concat_of_none rfl]
    exact ⟨flowing.managed, flowing.unclosed, _, rfl, bufferOpen, queue⟩
  | record data outcome =>
    rw [payloads_concat_of_none rfl]
    exact flowing.client (fun _ isClient => flowing.unclosed.send isClient) stepped
  | onWriteReturns =>
    rw [payloads_concat_of_none rfl]
    exact flowing.client (fun _ isClient => flowing.unclosed.onWriteReturns isClient) stepped
  | sent request =>
    rw [payloads_concat_of_none rfl]
    exact flowing.client (fun _ isClient => flowing.unclosed.sent isClient)
      (Option.ite_none_right_eq_some.mp stepped).2
  | loopTest =>
    obtain ⟨_, same⟩ := Option.ite_none_right_eq_some.mp stepped
    obtain rfl := Option.some.inj same
    rw [payloads_concat_of_none rfl]
    exact ⟨flowing.managed, flowing.unclosed, flowing.queue⟩
  | received _ | onRead _ | close | timeout | closed => cases flows

/-- **The sends of a run are the transfers of its payloads.** -/
theorem run_flowing {start : Connection} {events : List ConnectionEvent}
    (starts : start.Flowing []) (flows : ∀ event ∈ events, event.flows = true)
    (ran : run (step handlers) start events = some next) : next.Flowing (payloads events) :=
  run_history (fun past connection => (∀ event ∈ past, event.flows = true) →
      connection.Flowing (payloads past))
    (fun _ => starts)
    (fun _ _ event _ holds stepped flows =>
      (holds fun earlier inside => flows earlier (List.mem_append_left _ inside)).step
        (flows event (List.mem_append_right _ List.mem_cons_self)) stepped)
    ran flows

/-- Payloads that fit into one drain each have all been passed on. -/
theorem Flowing.written {arrived : List Bytes} (flowing : connection.Flowing arrived)
    (fit : ∀ data ∈ arrived, data.length ≤ 1024) : connection.written = arrived.flatten := by
  obtain ⟨gemini, _, _, queue⟩ := flowing.queue
  rw [← transferAll_of_le fit, ← queue]

/-- An open connection is not closed by libuv. -/
theorem Flowing.not_closed {arrived : List Bytes} (flowing : connection.Flowing arrived) :
    connection.step handlers .closed ≠ some next := by
  intro stepped
  obtain ⟨_, same⟩ := Option.ite_none_right_eq_some.mp stepped
  obtain ⟨client, isClosed, _⟩ := Option.map_eq_some_iff.mp same
  obtain ⟨⟨_, _, isClosing, _⟩, _⟩ := Option.ite_none_right_eq_some.mp isClosed
  exact absurd (flowing.unclosed.1.symm.trans isClosing) (by decide)

/-- A step of the flow, whatever has arrived before. -/
theorem Flowing.after {arrived : List Bytes} (flowing : connection.Flowing arrived)
    {event : ConnectionEvent} (flows : event.flows = true)
    (stepped : connection.step handlers event = some next) :
    next.Flowing (arrived ++ event.payload.toList) := by
  have sends : payloads (arrived.map ConnectionEvent.send) = arrived := by
    rw [payloads, List.filterMap_map]
    exact List.filterMap_some
  have sending : connection.Flowing (payloads (arrived.map ConnectionEvent.send)) :=
    sends.symm ▸ flowing
  have kept := sending.step flows stepped
  have grown : payloads (arrived.map ConnectionEvent.send ++ [event]) =
      arrived ++ event.payload.toList := by
    rw [payloads, List.filterMap_append]
    refine congrArg₂ _ sends ?_
    cases event <;> rfl
  exact grown ▸ kept

/-- **A silent step passes nothing on.** -/
theorem step_written (managed : connection.Managed) {event : ConnectionEvent}
    (silent : event.sends = false) (step : connection.step handlers event = some next) :
    next.written = connection.written := by
  cases managed.stepped step with
  | client client phase context => rfl
  | send isOpen data => cases silent
  | setClientCloseCallback isOpen registration => rfl
  | onRead isOpen outcome => cases silent
  | closed client context =>
    unfold managerOnClose
    split <;> rfl

theorem run_written {start : Connection} {events : List ConnectionEvent} (managed : start.Managed)
    (silent : ∀ event ∈ events, event.sends = false)
    (ran : run (step handlers) start events = some next) : next.written = start.written := by
  induction events generalizing start with
  | nil => exact (Option.some.inj ran) ▸ rfl
  | cons event events ih =>
    obtain ⟨middle, first, rest⟩ := (run_cons_eq_some _).mp ran
    have later := ih (managed.step first) (fun other inside => silent other
      (List.mem_cons_of_mem _ inside)) rest
    exact later.trans (step_written managed (silent event List.mem_cons_self) first)

/-- An open connection on which nothing was sent yet. -/
structure Unsent (connection : Connection) : Prop where
  unclosed : connection.client.Unclosed
  written : connection.written = []
  queue : ∃ gemini, connection.gemini = some gemini ∧ gemini.buffer.closed = false ∧
    gemini.buffer.contents = []

theorem Unsent.flowing (unsent : connection.Unsent) (managed : connection.Managed) :
    connection.Flowing [] := by
  obtain ⟨gemini, isOpen, bufferOpen, empty⟩ := unsent.queue
  exact ⟨managed, unsent.unclosed, gemini, isOpen, bufferOpen, by rw [empty, unsent.written]; rfl⟩

theorem accept_unsent (timeoutTime : Nat) : (accept timeoutTime).Unsent :=
  ⟨⟨rfl, rfl⟩, rfl, {}, rfl, rfl, rfl⟩

/-- **When everything that was sent is delivered.** An accepted connection, any sends, `close()`, and
write completions in any order in between and afterwards. -/
theorem delivered_iff {timeoutTime : Nat} {setup front back : List ConnectionEvent}
    {start final : Connection}
    (ready : run (step handlers) (accept timeoutTime) setup = some start) (unsent : start.Unsent)
    (flows : ∀ event ∈ front, event.flows = true) (silent : ∀ event ∈ back, event.sends = false)
    (ran : run (step handlers) start (front ++ .close :: back) = some final) :
    final.written = (payloads front).flatten ↔
      ∀ recent, recent <:+ payloads front → recent.flatten.length ≤ 1024 * recent.length := by
  have managed := run_managed ready
  obtain ⟨middle, before, after⟩ := (run_append_eq_some _).mp ran
  have flowing := run_flowing (unsent.flowing managed) flows before
  have closes : ConnectionEvent.close.sends = false := rfl
  have kept := run_written flowing.managed (List.forall_mem_cons.mpr ⟨closes, silent⟩) after
  obtain ⟨gemini, _, _, queue⟩ := flowing.queue
  rw [kept, ← transferAll_drained_iff, ← queue]

/-- Two payloads that fit, the second with its write queued. -/
def smallSends : List ConnectionEvent :=
  [.send (text "20 text/gemini\r\n"), .record (text "a") .queued, .send (text "hello"),
    .record (text "b") .queued]

/-- The writes complete in the other order. -/
def completions : List ConnectionEvent := [.sent 1, .sent 0, .onWriteReturns, .closed]

theorem delivered_small : ∃ final : Connection,
    run (step none) (accept 0) (smallSends ++ .close :: completions) = some final ∧
      final.written = (payloads smallSends).flatten := by
  refine ⟨_, rfl, (delivered_iff (show run (step none) (accept 0) [] = some (accept 0) from rfl)
    (accept_unsent 0) (show ∀ event ∈ smallSends, event.flows = true by decide)
    (show ∀ event ∈ completions, event.sends = false by decide) rfl).mpr fun recent suffix => ?_⟩
  have tails : recent ∈ (payloads smallSends).tails := (List.mem_tails _ _).mpr suffix
  have small : ∀ recent ∈ (payloads smallSends).tails,
      recent.flatten.length ≤ 1024 * recent.length := by decide
  exact small recent tails

/-- One payload of 1025 bytes. -/
def largeSend : List ConnectionEvent :=
  [.send (List.replicate 1025 space), .record (text "a") .queued, .close, .sent 0, .onWriteReturns,
    .closed]

/-- The last byte never leaves, and the handle is closed. -/
theorem delivered_large : ∃ final : Connection,
    run (step none) (accept 0) largeSend = some final ∧ final.client.client = false ∧
      final.written ≠ (payloads largeSend).flatten := by
  refine ⟨_, rfl, rfl, fun same => ?_⟩
  have lengths := congrArg List.length same
  exact absurd lengths (by decide +kernel)

end Connection

end GemCaps
