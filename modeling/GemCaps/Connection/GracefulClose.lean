/-
**When a graceful close waits for the queued writes.**

`close()` is postponed while writes are queued, and the completion of the last write closes the
handle. A second `close()` that finds the first one still queued is not postponed.
`run_graceful`: in a run in which that never happens, every `uv_close` finds nothing queued, and
libuv has completed every write.
-/

import GemCaps.Connection.Client

namespace GemCaps

open Transition

namespace SSLClient

variable {client : SSLClient}

/-- Every `uv_close` was called with nothing queued and nothing owed. -/
def Graceful (client : SSLClient) : Prop :=
  ∀ queuedWrites owed, HandleCall.uvClose queuedWrites owed ∈ client.calls →
    queuedWrites = 0 ∧ owed = 0

/-- The writes that libuv has to complete are counted. -/
def Counted (client : SSLClient) : Prop := client.owed.length ≤ client.queuedWrites

/-- `close()` is not called while a close is queued behind writes: neither by the context, nor by
`__on_send` after an `on_write` that has queued more. -/
def SingleClose (client : SSLClient) : ClientEvent → Prop
  | .close | .onWriteReturns => ¬ (client.queuedClose = true ∧ 0 < client.queuedWrites)
  | _ => True

instance (client : SSLClient) : (event : ClientEvent) → Decidable (client.SingleClose event)
  | .close | .onWriteReturns => inferInstanceAs (Decidable (¬ (_ ∧ _)))
  | .send _ _ | .crash | .setTimeout _ | .sent _ | .timeout | .closed => .isTrue trivial

/-- A `close` that is single is graceful. -/
theorem Graceful.close (graceful : client.Graceful) (counted : client.Counted)
    (single : ¬ (client.queuedClose = true ∧ 0 < client.queuedWrites)) : client.close.Graceful := by
  unfold SSLClient.close
  by_cases queues : 0 < client.queuedWrites ∧ client.queuedClose = false
  · rw [if_pos queues]
    exact graceful
  · rw [if_neg queues]
    have nothing : client.queuedWrites = 0 := by
      by_contra some
      have positive : 0 < client.queuedWrites := Nat.pos_of_ne_zero some
      exact queues ⟨positive, by simpa [positive] using single⟩
    intro queuedWrites owed inside
    by_cases alive : client.client = true
    · simp only [alive, if_true, List.mem_append, List.mem_singleton] at inside
      rcases inside with old | new
      · exact graceful queuedWrites owed old
      · obtain ⟨rfl, rfl⟩ := HandleCall.uvClose.inj new
        have counts : client.owed.length ≤ client.queuedWrites := counted
        exact ⟨nothing, by omega⟩
    · simp only [alive, if_false, Bool.false_eq_true] at inside
      exact graceful queuedWrites owed inside

theorem Graceful.onSendEnd (graceful : client.Graceful) (counted : client.Counted)
    (single : ¬ (client.queuedClose = true ∧ 0 < client.queuedWrites)) :
    client.onSendEnd.Graceful := by
  unfold SSLClient.onSendEnd
  by_cases queued : client.queuedClose = true
  · rw [if_pos queued]
    exact graceful.close counted single
  · rw [if_neg queued]
    exact graceful

theorem notify_graceful (graceful : client.Graceful) (counted : client.Counted) :
    client.notify.Graceful ∧ client.notify.Counted := by
  unfold SSLClient.notify
  by_cases last : client.queuedWrites = 0
  · rw [if_pos last]
    cases client.context with
    | some context => exact ⟨graceful, counted⟩
    | none =>
      refine ⟨graceful.onSendEnd counted fun both => ?_, by simpa [Counted] using counted⟩
      exact absurd last (Nat.pos_iff_ne_zero.mp both.2)
  · rw [if_neg last]
    exact ⟨graceful, counted⟩

/-- **`__on_send` of a write that is counted but no longer owed.** -/
theorem onSend_graceful (graceful : client.Graceful)
    (extra : client.owed.length + 1 ≤ client.queuedWrites) (request : Nat) :
    (client.onSend request).Graceful ∧ (client.onSend request).Counted := by
  have decremented : (if client.queuedWrites = 0 then 2 ^ 64 - 1 else client.queuedWrites - 1) =
      client.queuedWrites - 1 := if_neg (by omega)
  refine notify_graceful graceful ?_
  rw [Counted, forget, decremented]
  exact Nat.le_sub_one_of_lt extra

theorem send_graceful (graceful : client.Graceful) (counted : client.Counted) (data : Bytes)
    (outcome : Outcome) :
    (client.send data outcome).Graceful ∧ (client.send data outcome).Counted := by
  have calls : client.resetTimeout.calls = client.calls := by
    unfold resetTimeout
    split <;> rfl
  have owed : client.resetTimeout.owed = client.owed := by
    unfold resetTimeout
    split <;> rfl
  have registered : (client.resetTimeout.register data).Graceful := by
    rw [Graceful, register, calls]
    exact graceful
  have extra : (client.resetTimeout.register data).owed.length + 1 ≤
      (client.resetTimeout.register data).queuedWrites := by
    rw [register, owed, resetTimeout_queuedWrites]
    exact Nat.succ_le_succ counted
  cases outcome with
  | wrote written => exact onSend_graceful registered extra _
  | queued => exact ⟨registered, by simpa [Counted, send] using extra⟩
  | refused => exact ⟨registered, Nat.le_of_succ_le extra⟩

theorem crash_graceful (graceful : client.Graceful) (counted : client.Counted) :
    client.crash.Graceful ∧ client.crash.Counted := by
  refine ⟨fun queuedWrites owed inside => ?_, counted⟩
  unfold SSLClient.crash at inside
  by_cases alive : client.client = true
  · simp only [alive, if_true, List.mem_append, List.mem_singleton, reduceCtorEq, or_false] at inside
    exact graceful queuedWrites owed inside
  · simp only [alive, if_false, Bool.false_eq_true] at inside
    exact graceful queuedWrites owed inside

/-- **One step.** -/
theorem step_graceful {next : SSLClient} {event : ClientEvent}
    (invariant : client.Graceful ∧ client.Counted) (single : client.SingleClose event)
    (stepped : client.step event = some next) : next.Graceful ∧ next.Counted := by
  obtain ⟨graceful, counted⟩ := invariant
  cases stepped_of_step stepped with
  | send data outcome isOpen => exact send_graceful graceful counted data outcome
  | close => exact ⟨graceful.close counted single, by simpa [Counted] using counted⟩
  | crash => exact crash_graceful graceful counted
  | setTimeout time => exact ⟨graceful, counted⟩
  | onWriteReturns running =>
    refine ⟨graceful.onSendEnd counted single, ?_⟩
    simpa [Counted] using counted
  | sent request idle isOwed =>
    have erased : ({ client with owed := client.owed.erase request } : SSLClient).Graceful := graceful
    refine onSend_graceful erased ?_ request
    have counts : client.owed.length ≤ client.queuedWrites := counted
    have some : 0 < client.owed.length := List.length_pos_of_mem isOwed
    simp only [List.length_erase_of_mem isOwed]
    omega
  | timeout idle armed => exact crash_graceful graceful counted
  | closed idle alive closing completed => exact ⟨graceful, counted⟩

/-- **A run in which every close is single is graceful.** -/
theorem run_graceful {timeoutTime : Nat} {context : Option ClientContext} {events : List ClientEvent}
    {final : SSLClient}
    (ran : run SSLClient.step { timeoutTime, context } events = some final)
    (single : Along SSLClient.step SingleClose { timeoutTime, context } events) :
    final.Graceful := by
  have starts : Graceful { timeoutTime, context } ∧ Counted { timeoutTime, context } :=
    ⟨fun _ _ inside => absurd inside List.not_mem_nil, Nat.le_refl 0⟩
  exact (run_invariant (fun client => client.Graceful ∧ client.Counted)
    (fun _ _ _ invariant isSingle stepped => step_graceful invariant isSingle stepped)
    starts single ran).1

/-- A write is queued, the close waits for it, and the write completes. -/
def queuedEvents : List ClientEvent :=
  [.send (text "20") .queued, .close, .sent 0, .onWriteReturns]

theorem run_graceful_queued :
    ∃ final, run SSLClient.step { timeoutTime := 0, context := some .manager } queuedEvents =
      some final ∧ final.Graceful :=
  ⟨_, rfl, run_graceful (show run SSLClient.step { timeoutTime := 0, context := some .manager }
    queuedEvents = some _ from rfl) (by decide)⟩

/-- A second `close()` closes the handle while a write is queued. -/
theorem run_closeTwice :
    ∃ final, run SSLClient.step { timeoutTime := 0, context := some .manager }
        [.send (text "20") .queued, .close, .close] = some final ∧
      .uvClose 1 1 ∈ final.calls ∧ ¬ final.Graceful := by
  refine ⟨_, rfl, List.mem_singleton.mpr rfl, fun graceful => ?_⟩
  exact absurd (graceful 1 1 (List.mem_singleton.mpr rfl)).1 (by decide)

end SSLClient

end GemCaps
