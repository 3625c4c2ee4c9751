/-
**How often the TCP handle is closed.**

`close()` and `crash()` end the handle whenever the pointer is set; neither looks at `closing`.
Every step either leaves the handle alone or makes one call (`step_ended`), so a connection makes a
second call exactly when something ends the handle again before libuv has run `__on_close`:
`run_closesOnce`.
-/

import GemCaps.Connection.Client

namespace GemCaps

open Transition

namespace SSLClient

variable {client : SSLClient}

/-- `close()` does not queue the close. -/
def closesNow (client : SSLClient) : Bool := client.queuedWrites == 0 || client.queuedClose

/-- What a step does to the TCP handle when the pointer is set: with `ends` one call, else none. -/
structure Ended (ends : Bool) (client next : SSLClient) : Prop where
  pointer : next.client = client.client
  closing : next.closing = (client.closing || ends)
  calls : next.calls.length = client.calls.length + (ends && client.client).toNat

theorem Ended.unchanged {next : SSLClient} (alive : next.client = client.client)
    (closing : next.closing = client.closing) (calls : next.calls = client.calls) :
    Ended false client next :=
  ⟨alive, by rw [closing, Bool.or_false], by rw [calls]; rfl⟩

/-- A step after one that leaves the handle alone. -/
theorem Ended.after {ends : Bool} {middle next : SSLClient} (second : Ended ends middle next)
    (first : Ended false client middle) : Ended ends client next := by
  refine ⟨second.pointer.trans first.pointer, ?_, ?_⟩
  · rw [second.closing, first.closing, Bool.or_false]
  · rw [second.calls, first.calls, first.pointer]
    rfl

theorem crash_ended : Ended true client client.crash := by
  refine ⟨rfl, (Bool.or_true _).symm, ?_⟩
  unfold crash
  cases client.client with
  | true => exact List.length_append
  | false => rfl

theorem close_ended : Ended client.closesNow client client.close := by
  unfold close closesNow
  by_cases queues : 0 < client.queuedWrites ∧ client.queuedClose = false
  · have waits : (client.queuedWrites == 0 || client.queuedClose) = false := by
      simp [queues.2, Nat.ne_of_gt queues.1]
    rw [if_pos queues, waits]
    exact .unchanged rfl rfl rfl
  · have now : (client.queuedWrites == 0 || client.queuedClose) = true := by
      rw [Bool.or_eq_true, beq_iff_eq]
      by_contra neither
      rw [not_or, Bool.not_eq_true] at neither
      exact queues ⟨Nat.pos_of_ne_zero neither.1, neither.2⟩
    rw [if_neg queues, now]
    refine ⟨rfl, (Bool.or_true _).symm, ?_⟩
    cases client.client with
    | true => exact List.length_append
    | false => rfl

/-- A close that was queued is not queued again. -/
theorem onSendEnd_ended : Ended client.queuedClose client client.onSendEnd := by
  unfold onSendEnd
  cases queued : client.queuedClose with
  | true =>
    have now : client.closesNow = true := by rw [closesNow, queued, Bool.or_true]
    rw [if_pos rfl, ← now]
    exact close_ended
  | false =>
    rw [if_neg Bool.false_ne_true]
    exact .unchanged rfl rfl rfl

/-- Without a context the last completion closes the handle at once. -/
theorem notify_ended :
    Ended (client.queuedWrites == 0 && (client.context.isNone && client.queuedClose)) client
      client.notify := by
  rcases client.notify_cases with ⟨queued, same⟩ | ⟨_, isContext, same⟩ | ⟨last, isContext, same⟩
  · rw [same, beq_false_of_ne (Nat.ne_of_gt queued)]
    exact .unchanged rfl rfl rfl
  · rw [same, Option.isNone_eq_false_iff.mpr (Option.isSome_iff_ne_none.mpr isContext),
      Bool.false_and, Bool.and_false]
    exact .unchanged rfl rfl rfl
  · rw [same, last, isContext, beq_self_eq_true, Bool.true_and]
    exact onSendEnd_ended

theorem onSend_ended (request : Nat) :
    Ended (client.queuedWrites == 1 && (client.context.isNone && client.queuedClose)) client
      (client.onSend request) := by
  have last : ((client.forget request).queuedWrites == 0) = (client.queuedWrites == 1) := by
    show ((if client.queuedWrites = 0 then 2 ^ 64 - 1 else client.queuedWrites - 1) == 0) = _
    by_cases none : client.queuedWrites = 0
    · rw [if_pos none, none]
      rfl
    · rw [if_neg none, Bool.eq_iff_iff, beq_iff_eq, beq_iff_eq]
      omega
  obtain ⟨alive, closing, calls⟩ := (client.forget request).notify_ended
  rw [last] at closing calls
  exact ⟨alive, closing, calls⟩

/-- Whether the event ends the handle in this state. -/
def ends (client : SSLClient) : ClientEvent → Bool
  | .close => client.closesNow
  | .crash | .timeout => true
  | .onWriteReturns => client.queuedClose
  | .send _ (.wrote _) => client.queuedWrites == 0 && (client.context.isNone && client.queuedClose)
  | .sent _ => client.queuedWrites == 1 && (client.context.isNone && client.queuedClose)
  | .send _ _ | .setTimeout _ | .closed => false

/-- An event ends the handle only while nothing has ended it. -/
def SingleEnd (client : SSLClient) (event : ClientEvent) : Prop :=
  client.ends event = true → client.client = true → client.closing = false

instance (client : SSLClient) (event : ClientEvent) : Decidable (client.SingleEnd event) :=
  inferInstanceAs (Decidable (_ → _))

theorem resetTimeout_ended : Ended false client client.resetTimeout := by
  unfold resetTimeout
  split <;> exact .unchanged rfl rfl rfl

theorem send_ended (data : Bytes) (outcome : Outcome) :
    Ended (client.ends (.send data outcome)) client (client.send data outcome) := by
  have registered : Ended false client (client.resetTimeout.register data) := by
    obtain ⟨alive, closing, calls⟩ := client.resetTimeout_ended
    exact ⟨alive, closing, calls⟩
  cases outcome with
  | queued => exact ⟨registered.pointer, registered.closing, registered.calls⟩
  | refused => exact registered
  | wrote written =>
    have sent := (client.resetTimeout.register data).onSend_ended client.nextRequest
    have same : ((client.resetTimeout.register data).queuedWrites == 1 &&
        ((client.resetTimeout.register data).context.isNone &&
          (client.resetTimeout.register data).queuedClose)) =
        client.ends (.send data (.wrote written)) := by
      show (client.resetTimeout.queuedWrites + 1 == 1 && (client.resetTimeout.context.isNone &&
        client.resetTimeout.queuedClose)) = _
      rw [resetTimeout_context, resetTimeout_queuedWrites, resetTimeout_queuedClose]
      exact congrArg (· && _) (Bool.eq_iff_iff.mpr (by simp))
    rw [same] at sent
    exact sent.after registered

/-- **One step.** libuv's `__on_close` clears the pointer of a handle that is closing. -/
theorem step_ended {next : SSLClient} {event : ClientEvent}
    (stepped : client.step event = some next) :
    Ended (client.ends event) client next ∨
      client.ends event = false ∧ client.closing = true ∧ next.closing = true ∧
        next.calls = client.calls := by
  cases stepped_of_step stepped with
  | send data outcome isOpen => exact .inl (send_ended data outcome)
  | close => exact .inl close_ended
  | crash => exact .inl crash_ended
  | setTimeout time => exact .inl (.unchanged rfl rfl rfl)
  | onWriteReturns running =>
    obtain ⟨alive, closing, calls⟩ := client.onSendEnd_ended
    exact .inl ⟨alive, closing, calls⟩
  | sent request idle isOwed =>
    obtain ⟨alive, closing, calls⟩ :=
      ({ client with owed := client.owed.erase request } : SSLClient).onSend_ended request
    exact .inl ⟨alive, closing, calls⟩
  | timeout idle armed =>
    obtain ⟨alive, closing, calls⟩ := ({ client with timer := none } : SSLClient).crash_ended
    exact .inl ⟨alive, closing, calls⟩
  | closed idle alive closing completed => exact .inr ⟨rfl, closing, closing, rfl⟩

/-- The handle has been ended once when the client is closing, and not at all before. -/
structure EndedOnce (client : SSLClient) : Prop where
  calls : client.calls.length = client.closing.toNat
  pointer : client.closing = false → client.client = true

/-- A step that ends the handle finds it open, so it makes the first call. -/
theorem EndedOnce.step {next : SSLClient} {event : ClientEvent} (once : client.EndedOnce)
    (single : client.SingleEnd event) (stepped : client.step event = some next) :
    next.EndedOnce := by
  rcases step_ended stepped with ⟨pointer, closing, calls⟩ | ⟨_, was, still, same⟩
  · cases ends : client.ends event with
    | false =>
      rw [ends, Bool.or_false] at closing
      rw [ends, once.calls] at calls
      refine ⟨by rw [calls, closing]; rfl, fun isOpen => ?_⟩
      rw [pointer, once.pointer (closing ▸ isOpen)]
    | true =>
      rw [ends, Bool.or_true] at closing
      rw [ends, once.calls, Bool.true_and] at calls
      refine ⟨?_, fun isOpen => absurd (closing.symm.trans isOpen) (by decide)⟩
      rw [calls, closing]
      cases alive : client.client with
      | true =>
        rw [single ends alive]
        rfl
      | false =>
        cases isOpen : client.closing with
        | true => rfl
        | false => exact absurd (alive.symm.trans (once.pointer isOpen)) (by decide)
  · refine ⟨by rw [same, still, once.calls, was], fun isOpen => ?_⟩
    exact absurd (still.symm.trans isOpen) (by decide)

/-- **A second end is a second call.** -/
theorem EndedOnce.breaks {next : SSLClient} {event : ClientEvent} (once : client.EndedOnce)
    (second : ¬ client.SingleEnd event) (stepped : client.step event = some next) :
    2 ≤ next.calls.length := by
  unfold SingleEnd at second
  rw [Classical.not_imp, Classical.not_imp, Bool.not_eq_false] at second
  obtain ⟨ends, alive, closing⟩ := second
  rcases step_ended stepped with ended | ⟨quiet, _⟩
  · rw [ended.calls, once.calls, ends, alive, closing]
    exact Nat.le_refl 2
  · exact absurd (ends.symm.trans quiet) (by decide)

theorem calls_length_le {next : SSLClient} {event : ClientEvent}
    (stepped : client.step event = some next) : client.calls.length ≤ next.calls.length := by
  rcases step_ended stepped with ended | ⟨_, _, _, same⟩
  · rw [ended.calls]
    exact Nat.le_add_right _ _
  · exact Nat.le_of_eq (congrArg List.length same.symm)

/-- **A connection closes its handle at most once exactly when nothing ends it a second time.** -/
theorem run_closesOnce {timeoutTime : Nat} {context : Option ClientContext}
    {events : List ClientEvent} {final : SSLClient}
    (ran : run SSLClient.step { timeoutTime, context } events = some final) :
    final.calls.length ≤ 1 ↔ Along SSLClient.step SingleEnd { timeoutTime, context } events := by
  have breaksOnce : Along SSLClient.step SingleEnd { timeoutTime, context } events ↔
      ¬ 2 ≤ final.calls.length :=
    along_iff_not_broken EndedOnce (fun client => 2 ≤ client.calls.length)
      (fun _ _ _ once (_ : True) single stepped => once.step single stepped)
      (fun _ _ _ once _ second stepped => once.breaks second stepped)
      (fun _ _ _ twice stepped => twice.trans (calls_length_le stepped))
      (fun client once twice => absurd (once.calls ▸ twice)
        (Nat.not_le.mpr (Nat.lt_succ_of_le (Bool.toNat_le client.closing))))
      ⟨rfl, fun _ => rfl⟩ (along_of_forall fun _ _ _ => trivial) ran
  rw [breaksOnce, Nat.not_le, Nat.lt_succ_iff]

/-- A write is queued, the close waits for it, libuv completes it, then `__on_close` runs. -/
def orderlyEvents : List ClientEvent :=
  [.send (text "20") .queued, .close, .sent 0, .onWriteReturns, .closed]

theorem run_closesOnce_orderly :
    ∃ final, run SSLClient.step { timeoutTime := 0, context := some .manager } orderlyEvents =
      some final ∧ (final.calls.length ≤ 1 ↔ Along SSLClient.step SingleEnd
        { timeoutTime := 0, context := some .manager } orderlyEvents) :=
  ⟨_, rfl, run_closesOnce (show run SSLClient.step { timeoutTime := 0, context := some .manager }
    orderlyEvents = some _ from rfl)⟩

/-- With nothing queued a second `close()` closes the handle again. A `crash()` cancels a queued
write, and the completion of that write closes once more if `close()` was called in between. -/
theorem run_closesTwice :
    (∃ final, run SSLClient.step { timeoutTime := 0, context := some .manager } [.close, .close] =
      some final ∧ final.client = true ∧ ¬ final.calls.length ≤ 1) ∧
    ∃ final, run SSLClient.step { timeoutTime := 0, context := some .manager }
        [.send (text "20") .queued, .crash, .close, .sent 0, .onWriteReturns] = some final ∧
      final.client = true ∧ ¬ final.calls.length ≤ 1 :=
  ⟨⟨_, rfl, rfl, by decide⟩, ⟨_, rfl, rfl, by decide⟩⟩

end SSLClient

end GemCaps
