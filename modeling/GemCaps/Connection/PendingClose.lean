/-
**When a postponed close is carried out.**

`close()` leaves the closing of the handle to the completion of the last queued write. `queued_writes`
is compared with the writes that libuv owes: it is larger by one for every write that `uv_write`
refused (`run_counts`), since nobody looks at its result. `run_neverStuck_iff`: as long as no write is
refused, an idle client with a postponed close waits for a completion, and the last completion closes
the handle; after a refused write a close can be stuck for good.
-/

import GemCaps.Connection.SingleEnd

namespace GemCaps

open Transition

namespace SSLClient

variable {client next : SSLClient} {event : ClientEvent} {events : List ClientEvent}

/-! ### The writes that are counted and those that are owed -/

/-- How many writes the event adds that libuv will not complete. -/
def refusals : ClientEvent → Nat
  | .send _ .refused => 1
  | _ => 0

@[simp] theorem notify_queuedWrites : client.notify.queuedWrites = client.queuedWrites := by
  rcases client.notify_cases with ⟨_, same⟩ | ⟨_, _, same⟩ | ⟨_, _, same⟩
  · rw [same]
  · rw [same]
  · rw [same, onSendEnd_queuedWrites]

@[simp] theorem notify_owed : client.notify.owed = client.owed := by
  rcases client.notify_cases with ⟨_, same⟩ | ⟨_, _, same⟩ | ⟨_, _, same⟩
  · rw [same]
  · rw [same]
  · rw [same, onSendEnd_owed]

@[simp] theorem onSend_owed (request : Nat) : (client.onSend request).owed = client.owed :=
  notify_owed

theorem onSend_queuedWrites (counted : 0 < client.queuedWrites) (request : Nat) :
    (client.onSend request).queuedWrites = client.queuedWrites - 1 := by
  rw [onSend, notify_queuedWrites]
  exact if_neg (Nat.ne_of_gt counted)

@[simp] theorem resetTimeout_owed : client.resetTimeout.owed = client.owed := by
  unfold resetTimeout
  split <;> rfl

@[simp] theorem register_owed (data : Bytes) : (client.register data).owed = client.owed := rfl

@[simp] theorem register_queuedWrites (data : Bytes) :
    (client.register data).queuedWrites = client.queuedWrites + 1 := rfl

/-- `_send` counts its write, and libuv owes it only when it was queued. -/
theorem send_counts {extra : Nat} (counts : client.queuedWrites = client.owed.length + extra)
    (data : Bytes) (outcome : Outcome) :
    (client.send data outcome).queuedWrites =
      (client.send data outcome).owed.length + (extra + refusals (.send data outcome)) := by
  cases outcome with
  | wrote written =>
    have positive : 0 < (client.resetTimeout.register data).queuedWrites := Nat.succ_pos _
    show (SSLClient.onSend _ _).queuedWrites = (SSLClient.onSend _ _).owed.length + _
    rw [onSend_queuedWrites positive, onSend_owed, register_queuedWrites, register_owed,
      resetTimeout_queuedWrites, resetTimeout_owed, counts]
    rfl
  | queued =>
    show client.resetTimeout.queuedWrites + 1 =
      (client.resetTimeout.owed ++ [client.nextRequest]).length + (extra + 0)
    rw [resetTimeout_queuedWrites, resetTimeout_owed, counts, List.length_append,
      List.length_singleton]
    omega
  | refused =>
    show client.resetTimeout.queuedWrites + 1 = client.resetTimeout.owed.length + (extra + 1)
    rw [resetTimeout_queuedWrites, resetTimeout_owed, counts]
    rfl

/-- **One step** keeps the difference, but for a refused write. -/
theorem step_counts {extra : Nat} (counts : client.queuedWrites = client.owed.length + extra)
    (stepped : client.step event = some next) :
    next.queuedWrites = next.owed.length + (extra + refusals event) := by
  cases stepped_of_step stepped with
  | send data outcome isOpen => exact send_counts counts data outcome
  | close => rwa [close_queuedWrites, close_owed]
  | crash => exact counts
  | setTimeout time => exact counts
  | onWriteReturns running =>
    show client.onSendEnd.queuedWrites = client.onSendEnd.owed.length + (extra + 0)
    rwa [onSendEnd_queuedWrites, onSendEnd_owed]
  | sent request idle isOwed =>
    have some : 0 < client.owed.length := List.length_pos_of_mem isOwed
    have positive : 0 < ({ client with owed := client.owed.erase request } : SSLClient).queuedWrites := by
      show 0 < client.queuedWrites
      omega
    rw [onSend_queuedWrites positive, onSend_owed]
    show client.queuedWrites - 1 = (client.owed.erase request).length + (extra + 0)
    rw [List.length_erase_of_mem isOwed]
    omega
  | timeout idle armed => exact counts
  | closed idle alive closing completed => exact counts

/-- **What `queued_writes` counts**: the writes that libuv owes, and all that were refused. -/
theorem run_counts {timeoutTime : Nat} {context : Option ClientContext} {final : SSLClient}
    (ran : run SSLClient.step { timeoutTime, context } events = some final) :
    final.queuedWrites = final.owed.length + (events.map refusals).sum := by
  refine run_history
    (fun past client => client.queuedWrites = client.owed.length + (past.map refusals).sum) rfl ?_ ran
  intro past client event next counts stepped
  have added := step_counts counts stepped
  rwa [List.map_append, List.sum_append, List.map_singleton, List.sum_singleton]

theorem refusals_eq_zero_iff :
    (events.map refusals).sum = 0 ↔ ∀ data, ClientEvent.send data .refused ∉ events := by
  rw [List.sum_eq_zero_iff_forall_eq_nat]
  constructor
  · intro none data inside
    exact absurd (none 1 (List.mem_map.mpr ⟨_, inside, rfl⟩)) Nat.one_ne_zero
  · intro accepted count inside
    obtain ⟨event, isEvent, rfl⟩ := List.mem_map.mp inside
    unfold refusals
    split
    · exact absurd isEvent (accepted _)
    · rfl

/-! ### A postponed close is carried out -/

/-- A close is postponed only while writes are queued, or while an `__on_send` runs that will close. -/
def Postponed (client : SSLClient) : Prop :=
  client.queuedClose = true → 0 < client.queuedWrites ∨ 0 < client.onWrites

theorem close_postponed : client.close.Postponed := by
  unfold SSLClient.close
  by_cases queues : 0 < client.queuedWrites ∧ client.queuedClose = false
  · rw [if_pos queues]
    exact fun _ => .inl queues.1
  · rw [if_neg queues]
    exact fun pending => absurd pending Bool.false_ne_true

/-- After `onSendEnd` no close is postponed. -/
theorem onSendEnd_queuedClose : client.onSendEnd.queuedClose = false := by
  unfold onSendEnd
  cases pending : client.queuedClose with
  | true =>
    have now : ¬ (0 < client.queuedWrites ∧ client.queuedClose = false) := by simp [pending]
    rw [if_pos rfl, SSLClient.close, if_neg now]
  | false =>
    rw [if_neg Bool.false_ne_true]
    exact pending

/-- The count falls to 0 only where `__on_send` goes on to the close. -/
theorem notify_postponed : client.notify.Postponed := by
  rcases client.notify_cases with ⟨queued, same⟩ | ⟨_, _, same⟩ | ⟨_, _, same⟩
  · rw [same]
    exact fun _ => .inl queued
  · rw [same]
    exact fun _ => .inr (Nat.succ_pos _)
  · rw [same]
    exact fun pending =>
      absurd (onSendEnd_queuedClose.symm.trans pending) Bool.false_ne_true

theorem send_postponed (data : Bytes) (outcome : Outcome) :
    (client.send data outcome).Postponed := by
  have registered : (client.resetTimeout.register data).Postponed := fun _ => .inl (Nat.succ_pos _)
  cases outcome with
  | wrote written => exact notify_postponed
  | queued => exact registered
  | refused => exact registered

theorem step_postponed (postponed : client.Postponed) (stepped : client.step event = some next) :
    next.Postponed := by
  cases stepped_of_step stepped with
  | send data outcome isOpen => exact send_postponed data outcome
  | close => exact close_postponed
  | crash => exact fun pending => absurd pending Bool.false_ne_true
  | setTimeout time => exact postponed
  | onWriteReturns running =>
    exact fun pending => absurd (onSendEnd_queuedClose.symm.trans pending) Bool.false_ne_true
  | sent request idle isOwed => exact notify_postponed
  | timeout idle armed => exact fun pending => absurd pending Bool.false_ne_true
  | closed idle alive closing completed => exact postponed

/-- A client without its handle is owed nothing. -/
def Settled (client : SSLClient) : Prop := client.client = false → client.owed = []

theorem step_settled (settled : client.Settled) (stepped : client.step event = some next) :
    next.Settled := by
  cases stepped_of_step stepped with
  | send data outcome isOpen =>
    intro gone
    rw [(send_ended data outcome).pointer] at gone
    rw [SSLClient.isOpen, gone] at isOpen
    exact absurd isOpen Bool.false_ne_true
  | close =>
    intro gone
    rw [close_owed]
    exact settled (close_ended.pointer.symm.trans gone)
  | crash => exact settled
  | setTimeout time => exact settled
  | onWriteReturns running =>
    intro gone
    show client.onSendEnd.owed = []
    rw [onSendEnd_owed]
    exact settled (onSendEnd_ended.pointer.symm.trans gone)
  | sent request idle isOwed =>
    intro gone
    have pointer :=
      (({ client with owed := client.owed.erase request } : SSLClient).onSend_ended request).pointer
    have none : client.owed = [] := settled (pointer.symm.trans gone)
    exact absurd isOwed (none ▸ List.not_mem_nil)
  | timeout idle armed => exact settled
  | closed idle alive closing completed => exact fun _ => completed

/-! ### The last completion closes the handle -/

/-- The `__on_send` that runs will close the handle, or the handle has been closed since there were
this many calls. -/
def Draining (before : Nat) (client : SSLClient) : Prop :=
  (client.queuedClose = true ∧ 0 < client.onWrites ∧ client.client = true ∧
    before ≤ client.calls.length) ∨
  (client.closing = true ∧ before < client.calls.length)

/-- An event that ends the handle closes it. -/
theorem draining_of_ends {before : Nat} (alive : client.client = true)
    (earlier : before ≤ client.calls.length) (ends : client.ends event = true)
    (stepped : client.step event = some next) : Draining before next := by
  rcases step_ended stepped with ⟨_, closing, calls⟩ | ⟨quiet, _⟩
  · refine .inr ⟨by rw [closing, ends, Bool.or_true], ?_⟩
    rw [calls, ends, alive]
    exact Nat.lt_succ_of_le earlier
  · exact absurd (ends.symm.trans quiet) (by decide)

/-- An `__on_send` leaves a postponed close to the `on_write` that it calls, if it calls one. -/
theorem onSend_waits (pending : client.queuedClose = true) (running : 0 < client.onWrites)
    (counted : 0 < client.queuedWrites) (stays : client.queuedWrites = 1 → client.context ≠ none)
    (request : Nat) :
    (client.onSend request).queuedClose = true ∧ 0 < (client.onSend request).onWrites := by
  have count : (client.forget request).queuedWrites = client.queuedWrites - 1 :=
    if_neg (Nat.ne_of_gt counted)
  unfold onSend
  rcases (client.forget request).notify_cases with ⟨_, same⟩ | ⟨_, _, same⟩ | ⟨last, isContext, same⟩
  · rw [same]
    exact ⟨pending, running⟩
  · rw [same]
    exact ⟨pending, Nat.succ_pos _⟩
  · exact absurd isContext (stays (by omega))

theorem step_draining {before : Nat} (draining : client.Draining before)
    (stepped : client.step event = some next) : next.Draining before := by
  rcases draining with ⟨pending, running, alive, earlier⟩ | ⟨closing, later⟩
  · by_cases ends : client.ends event = true
    · exact draining_of_ends alive earlier ends stepped
    have further : before ≤ next.calls.length := earlier.trans (calls_length_le stepped)
    cases stepped_of_step stepped with
    | send data outcome isOpen =>
      have registered : (client.resetTimeout.register data).queuedClose = true :=
        resetTimeout_queuedClose client ▸ pending
      have onWrites : 0 < (client.resetTimeout.register data).onWrites := by
        show 0 < client.resetTimeout.onWrites
        unfold resetTimeout
        split <;> exact running
      have pointer : (client.send data outcome).client = true :=
        (send_ended data outcome).pointer.trans alive
      cases outcome with
      | queued => exact .inl ⟨registered, onWrites, pointer, further⟩
      | refused => exact .inl ⟨registered, onWrites, pointer, further⟩
      | wrote written =>
        have stays : (client.resetTimeout.register data).queuedWrites = 1 →
            (client.resetTimeout.register data).context ≠ none := by
          intro last isNone
          have count : client.queuedWrites = 0 := by
            rw [← resetTimeout_queuedWrites]
            exact Nat.succ.inj last
          have noContext : client.context = none := client.resetTimeout_context ▸ isNone
          exact ends (by simp [SSLClient.ends, count, noContext, pending])
        obtain ⟨still, more⟩ :=
          onSend_waits registered onWrites (Nat.succ_pos _) stays client.nextRequest
        exact .inl ⟨still, more, pointer, further⟩
    | close => exact absurd (by simp [SSLClient.ends, closesNow, pending]) ends
    | crash => exact absurd rfl ends
    | setTimeout time => exact .inl ⟨pending, running, alive, further⟩
    | onWriteReturns _ => exact absurd pending ends
    | sent request idle isOwed => exact absurd idle (Nat.ne_of_gt running)
    | timeout idle armed => exact absurd rfl ends
    | closed idle gone closing completed => exact absurd idle (Nat.ne_of_gt running)
  · refine .inr ⟨?_, later.trans_le (calls_length_le stepped)⟩
    rcases step_ended stepped with ended | ⟨_, _, still, _⟩
    · rw [ended.closing, closing, Bool.true_or]
    · exact still

/-- **The completion of the only write in flight.** -/
theorem sent_draining {request : Nat} (pending : client.queuedClose = true)
    (last : client.queuedWrites = 1) (alive : client.client = true)
    (stepped : client.step (.sent request) = some next) : next.Draining client.calls.length := by
  cases isContext : client.context with
  | none =>
    refine draining_of_ends alive le_rfl ?_ stepped
    simp [ends, last, isContext, pending]
  | some context =>
    cases stepped_of_step stepped with
    | sent _ idle isOwed =>
      have zero : (({ client with owed := client.owed.erase request } : SSLClient).forget
          request).queuedWrites = 0 := by
        show (if client.queuedWrites = 0 then _ else client.queuedWrites - 1) = 0
        rw [last]
        rfl
      refine .inl ?_
      unfold onSend
      rcases (({ client with owed := client.owed.erase request } : SSLClient).forget
          request).notify_cases with ⟨queued, _⟩ | ⟨_, _, same⟩ | ⟨_, noContext, _⟩
      · exact absurd zero (Nat.ne_of_gt queued)
      · rw [same]
        exact ⟨pending, Nat.succ_pos _, alive, le_rfl⟩
      · exact absurd (isContext.symm.trans noContext) (Option.some_ne_none context)

/-! ### A close that is stuck -/

/-- libuv owes a completion, and the last one closes the handle, whatever `on_write` does in it. -/
structure Awaited (client : SSLClient) : Prop where
  owes : client.owed ≠ []
  closes : ∀ request, client.owed = [request] → ∀ during after,
    run SSLClient.step client (.sent request :: during) = some after → after.onWrites = 0 →
      after.closing = true ∧ client.calls.length < after.calls.length

/-- The calls of `on_write` return. -/
theorem exists_returned (client : SSLClient) :
    ∃ events idle, run SSLClient.step client events = some idle ∧ idle.onWrites = 0 ∧
      idle.owed = client.owed ∧ idle.queuedWrites = client.queuedWrites ∧
      (events.map refusals).sum = 0 := by
  induction running : client.onWrites generalizing client with
  | zero => exact ⟨[], client, rfl, running, rfl, rfl, rfl⟩
  | succ left ih =>
    have stepped : client.step .onWriteReturns =
        some { client.onSendEnd with onWrites := client.onWrites - 1 } := if_pos (running ▸ left.succ_pos)
    obtain ⟨events, idle, ran, isIdle, owed, count, none⟩ :=
      ih { client.onSendEnd with onWrites := client.onWrites - 1 } (by rw [running]; rfl)
    refine ⟨.onWriteReturns :: events, idle, ?_, isIdle, owed.trans client.onSendEnd_owed,
      count.trans client.onSendEnd_queuedWrites, ?_⟩
    · exact (run_cons_eq_some _).mpr ⟨_, stepped, ran⟩
    · rw [List.map_cons, List.sum_cons, none]
      rfl

/-- libuv completes all that it owes, and the count does not reach 0. -/
theorem exists_completed (idle : client.onWrites = 0) (pending : client.queuedClose = true)
    (miscounted : client.owed.length < client.queuedWrites) :
    ∃ events final, run SSLClient.step client events = some final ∧ final.onWrites = 0 ∧
      final.queuedClose = true ∧ final.owed = [] ∧ (events.map refusals).sum = 0 := by
  induction isOwed : client.owed generalizing client with
  | nil => exact ⟨[], client, rfl, idle, pending, isOwed, rfl⟩
  | cons request owed ih =>
    rw [isOwed, List.length_cons] at miscounted
    have stepped : client.step (.sent request) =
        some ({ client with owed := client.owed.erase request }.onSend request) :=
      if_pos ⟨idle, isOwed ▸ List.mem_cons_self⟩
    have rest : client.owed.erase request = owed := by rw [isOwed, List.erase_cons_head]
    rw [rest] at stepped
    have counted : (({ client with owed } : SSLClient).forget request).queuedWrites =
        client.queuedWrites - 1 := if_neg (by show client.queuedWrites ≠ 0; omega)
    have waits : ({ client with owed } : SSLClient).onSend request =
        ({ client with owed } : SSLClient).forget request := if_neg (by omega)
    rw [waits] at stepped
    have stillMiscounted : owed.length <
        (({ client with owed } : SSLClient).forget request).queuedWrites := by
      rw [counted]
      omega
    obtain ⟨events, final, ran, isIdle, still, none, accepted⟩ :=
      @ih (({ client with owed } : SSLClient).forget request) idle pending stillMiscounted rfl
    refine ⟨.sent request :: events, final, ?_, isIdle, still, none, ?_⟩
    · exact (run_cons_eq_some _).mpr ⟨_, stepped, ran⟩
    · rw [List.map_cons, List.sum_cons, accepted]
      rfl

/-- **After a refused write a close can be stuck**: it is postponed, and nothing is owed. -/
theorem exists_stuck (miscounted : client.owed.length < client.queuedWrites) :
    ∃ events final, run SSLClient.step client events = some final ∧ final.onWrites = 0 ∧
      final.queuedClose = true ∧ final.owed = [] ∧ (events.map refusals).sum = 0 := by
  obtain ⟨returns, idle, returned, isIdle, owed, count, none⟩ := client.exists_returned
  have stillMiscounted : idle.owed.length < idle.queuedWrites := by rwa [owed, count]
  by_cases pending : idle.queuedClose = true
  · obtain ⟨sents, final, ran, shape⟩ := exists_completed isIdle pending stillMiscounted
    refine ⟨returns ++ sents, final, (run_append_eq_some _).mpr ⟨idle, returned, ran⟩, shape.1,
      shape.2.1, shape.2.2.1, ?_⟩
    rw [List.map_append, List.sum_append, none, shape.2.2.2]
  · have postponed : idle.close = { idle with queuedClose := true } :=
      if_pos ⟨Nat.zero_lt_of_lt stillMiscounted, Bool.not_eq_true _ ▸ pending⟩
    obtain ⟨sents, final, ran, shape⟩ :=
      @exists_completed { idle with queuedClose := true } isIdle rfl stillMiscounted
    have closed : idle.step .close = some { idle with queuedClose := true } := congrArg some postponed
    refine ⟨returns ++ .close :: sents, final, (run_append_eq_some _).mpr ⟨idle, returned, ?_⟩,
      shape.1, shape.2.1, shape.2.2.1, ?_⟩
    · exact (run_cons_eq_some _).mpr ⟨_, closed, ran⟩
    · rw [List.map_append, List.sum_append, none, List.map_cons, List.sum_cons, shape.2.2.2]
      rfl

/-- **While no write is refused, a postponed close waits for its completion.** -/
theorem awaited_of_counted (postponed : client.Postponed) (settled : client.Settled)
    (counted : client.queuedWrites = client.owed.length) (idle : client.onWrites = 0)
    (pending : client.queuedClose = true) : client.Awaited := by
  have queued : 0 < client.queuedWrites :=
    (postponed pending).resolve_right (Nat.not_lt.mpr (Nat.le_of_eq idle))
  refine ⟨List.ne_nil_of_length_pos (counted ▸ queued), ?_⟩
  intro request single during after ran returned
  have alive : client.client = true := by
    rw [← Bool.not_eq_false]
    intro gone
    exact absurd (single.symm.trans (settled gone)) (List.cons_ne_nil _ _)
  have last : client.queuedWrites = 1 := counted.trans (congrArg List.length single)
  obtain ⟨next, stepped, rest⟩ := (run_cons_eq_some _).mp ran
  have draining : after.Draining client.calls.length :=
    run_always (fun client' => client'.Draining client.calls.length)
      (fun _ _ _ draining stepped => step_draining draining stepped)
      (sent_draining pending last alive stepped) rest
  rcases draining with ⟨_, running, _⟩ | done
  · exact absurd returned (Nat.ne_of_gt running)
  · exact done

/-- **A postponed close is never stuck exactly while no write has been refused.** -/
theorem run_neverStuck_iff {timeoutTime : Nat} {context : Option ClientContext} {reached : SSLClient}
    (ran : run SSLClient.step { timeoutTime, context } events = some reached) :
    (∀ data, ClientEvent.send data .refused ∉ events) ↔
      ∀ more final, (∀ data, ClientEvent.send data .refused ∉ more) →
        run SSLClient.step reached more = some final → final.onWrites = 0 →
        final.queuedClose = true → final.Awaited := by
  constructor
  · intro accepted more final acceptedMore continued idle pending
    have whole : run SSLClient.step { timeoutTime, context } (events ++ more) = some final :=
      (run_append_eq_some _).mpr ⟨reached, ran, continued⟩
    have counts := run_counts whole
    rw [List.map_append, List.sum_append, refusals_eq_zero_iff.mpr accepted,
      refusals_eq_zero_iff.mpr acceptedMore] at counts
    have postponed : final.Postponed :=
      run_always Postponed (fun _ _ _ postponed stepped => step_postponed postponed stepped)
        (fun pending => absurd pending Bool.false_ne_true) whole
    have settled : final.Settled :=
      run_always Settled (fun _ _ _ settled stepped => step_settled settled stepped)
        (fun _ => rfl) whole
    exact awaited_of_counted postponed settled counts idle pending
  · intro never
    rw [← refusals_eq_zero_iff]
    by_contra refused
    have miscounted : reached.owed.length < reached.queuedWrites := by
      rw [run_counts ran]
      omega
    obtain ⟨more, final, continued, idle, pending, none, accepted⟩ := exists_stuck miscounted
    exact (never more final (refusals_eq_zero_iff.mp accepted) continued idle pending).owes none

/-- A write is queued, and the close waits for it. -/
theorem run_neverStuck_queued :
    ∃ reached, run SSLClient.step { timeoutTime := 0, context := some .manager }
      [.send (text "20") .queued, .close] = some reached ∧ reached.Awaited := by
  refine ⟨_, rfl, ?_⟩
  refine (run_neverStuck_iff (show run SSLClient.step { timeoutTime := 0, context := some .manager }
    [.send (text "20") .queued, .close] = some _ from rfl)).mp ?_ [] _ ?_ rfl rfl rfl
  · simp
  · exact fun _ => List.not_mem_nil

/-- `uv_write` refuses the only write, and the close waits for a completion that nobody owes. -/
theorem run_stuck :
    ∃ final, run SSLClient.step { timeoutTime := 0, context := some .manager }
        [.send (text "20") .refused, .close] = some final ∧
      final.onWrites = 0 ∧ final.queuedClose = true ∧ final.owed = [] ∧ ¬ final.Awaited :=
  ⟨_, rfl, rfl, rfl, rfl, fun awaited => awaited.owes rfl⟩

end SSLClient

end GemCaps
