/-
**The timer of a connection.**

`TimedClient` is an `SSLClient` with the value that `setTimeout` was last called with, until
`__on_close` deletes it. `Clock` is what a step does to the timer: apart from `setTimeout` and
`resetTimeout`, a step leaves it or stops it. `TimedClient.run_configured_iff`: the timer is armed as
configured throughout a run exactly when nothing is set on a connection that is closed, and nothing is
reset before it was set, unless the value that the constructor has left is 0.
-/

import GemCaps.Connection.Client

namespace GemCaps

open Transition

/-- A connection, and the last value of `setTimeout`. -/
structure TimedClient where
  client : SSLClient
  lastSet : Option Nat := none

/-- What can happen to it. -/
inductive TimedEvent where
  | client (event : ClientEvent)
  | resetTimeout
  | listen
  | stopListening
  /-- `__on_recv` up to `on_read`; `none` is a negative `nread`. -/
  | received (data : Option Bytes)
deriving DecidableEq

/-- What `setTimeout` leaves behind. -/
def ClientEvent.lastSet (before : Option Nat) : ClientEvent → Option Nat
  | .setTimeout time => some time
  | _ => before

namespace TimedClient

variable (state : TimedClient)

/-- One step. -/
def stepAlive : TimedEvent → Option TimedClient
  | .client event =>
    (state.client.step event).map fun client => ⟨client, event.lastSet state.lastSet⟩
  | .resetTimeout => some { state with client := state.client.resetTimeout }
  | .listen => some { state with client := state.client.listen }
  | .stopListening => some { state with client := state.client.stopListening }
  | .received nread =>
    if state.client.onWrites = 0 ∧ state.client.reading ∧ state.client.isOpen then
      match nread with
      | none => some { state with client := state.client.close }
      | some data =>
        let client := state.client.resetTimeout
        some { state with client := { client with buffer := client.buffer.write data } }
    else none

/-- One step, as long as the connection is there. -/
def step (event : TimedEvent) : Option TimedClient :=
  if state.client.client then state.stepAlive event else none

/-- The timer runs only with the value that was set last, which is not 0; it does not run, and cannot
crash the connection, where none was set, 0 was set last, or the connection is closed. -/
def Configured : Prop :=
  (∀ time ∈ state.client.timer, state.lastSet = some time ∧ time ≠ 0) ∧
  (state.lastSet = none ∨ state.lastSet = some 0 ∨ state.client.isOpen = false →
    state.client.timer = none ∧ state.step (.client .timeout) = none)

/-- A reset has nothing to do, or repeats what was set on a connection that is open. -/
def ResetsSet : Prop :=
  state.client.timeoutTime = 0 ∨ state.lastSet.isSome = true ∧ state.client.isOpen = true

instance : Decidable state.ResetsSet := inferInstanceAs (Decidable (_ ∨ _))

/-- A time is set only on an open connection, and only what was set is reset. -/
def Guarded : TimedEvent → Prop
  | .client (.setTimeout time) => time = 0 ∨ state.client.isOpen = true
  | .client (.send _ _) | .resetTimeout | .received (some _) => state.ResetsSet
  | _ => True

/-- The timer is as configured. -/
def Lawful : Prop :=
  ∀ time ∈ state.client.timer, state.lastSet = some time ∧ time ≠ 0 ∧ state.client.isOpen = true

variable {state : TimedClient}

theorem configured_iff : state.Configured ↔ state.Lawful := by
  constructor
  · rintro ⟨isSet, stops⟩ time armed
    obtain ⟨last, positive⟩ := isSet time armed
    refine ⟨last, positive, ?_⟩
    by_contra notOpen
    have none := (stops (.inr (.inr (Bool.eq_false_iff.mpr notOpen)))).1
    rw [none] at armed
    cases armed
  · intro lawful
    refine ⟨fun time armed => ⟨(lawful time armed).1, (lawful time armed).2.1⟩, fun ends => ?_⟩
    have none : state.client.timer = none := by
      refine Option.eq_none_iff_forall_not_mem.mpr fun time armed => ?_
      obtain ⟨last, positive, isOpen⟩ := lawful time armed
      rcases ends with never | zero | closed
      · rw [never] at last
        cases last
      · rw [zero] at last
        exact positive (Option.some.inj last).symm
      · rw [closed] at isOpen
        cases isOpen
    refine ⟨none, ?_⟩
    unfold step stepAlive SSLClient.step
    simp [none]

end TimedClient

/-! ### What the steps do to the timer -/

namespace SSLClient

variable {client next : SSLClient}

/-- The timer is left as it is. -/
structure SameClock (client next : SSLClient) : Prop where
  timer : next.timer = client.timer
  isOpen : next.isOpen = client.isOpen
  time : next.timeoutTime = client.timeoutTime

/-- The timer is left as it is, or is stopped. -/
inductive Clock (client next : SSLClient) : Prop where
  | kept (same : SameClock client next)
  | stopped (timer : next.timer = none) (time : next.timeoutTime = client.timeoutTime)

theorem Clock.time (clock : Clock client next) : next.timeoutTime = client.timeoutTime := by
  cases clock with
  | kept same => exact same.time
  | stopped _ time => exact time

theorem close_clock : Clock client client.close := by
  unfold close
  split
  · exact .kept ⟨rfl, rfl, rfl⟩
  · exact .stopped rfl rfl

theorem onSendEnd_clock : Clock client client.onSendEnd := by
  unfold onSendEnd
  split
  · exact close_clock
  · exact .kept ⟨rfl, rfl, rfl⟩

theorem notify_clock : Clock client client.notify := by
  rcases client.notify_cases with ⟨_, same⟩ | ⟨_, _, same⟩ | ⟨_, _, same⟩
  · rw [same]
    exact .kept ⟨rfl, rfl, rfl⟩
  · rw [same]
    exact .kept ⟨rfl, rfl, rfl⟩
  · rw [same]
    exact onSendEnd_clock

theorem onSend_clock (request : Nat) : Clock client (client.onSend request) := by
  have notified : Clock (client.forget request) (client.forget request).notify := notify_clock
  cases notified with
  | kept same => exact .kept ⟨same.timer, same.isOpen, same.time⟩
  | stopped timer time => exact .stopped timer time

/-! ### A close that waits -/

/-- Without a context, a close waits only while writes are queued. -/
def Pending (client : SSLClient) : Prop :=
  client.context = none → client.queuedClose = true → 0 < client.queuedWrites

theorem close_pending : client.close.Pending := by
  unfold close
  split
  case isTrue waits => exact fun _ _ => waits.1
  case isFalse => exact fun _ queued => nomatch queued

theorem onSendEnd_pending : client.onSendEnd.Pending := by
  unfold onSendEnd
  split
  case isTrue => exact close_pending
  case isFalse notQueued => exact fun _ queued => absurd queued notQueued

theorem notify_pending : client.notify.Pending := by
  rcases client.notify_cases with ⟨queued, same⟩ | ⟨_, isContext, same⟩ | ⟨_, _, same⟩
  · rw [same]
    exact fun _ _ => queued
  · rw [same]
    exact fun none => absurd none isContext
  · rw [same]
    exact onSendEnd_pending

/-- **A write that is taken at once**: no close waits for it, so that the timer is left as
`resetTimeout` has left it. -/
theorem send_sameClock (pending : client.Pending) (data : Bytes) (outcome : Outcome) :
    SameClock client.resetTimeout (client.send data outcome) := by
  cases outcome with
  | queued => exact ⟨rfl, rfl, rfl⟩
  | refused => exact ⟨rfl, rfl, rfl⟩
  | wrote written =>
    have queued : ((client.resetTimeout.register data).forget client.nextRequest).queuedWrites =
        client.queuedWrites := by
      show (if client.resetTimeout.queuedWrites + 1 = 0 then 2 ^ 64 - 1 else
        client.resetTimeout.queuedWrites + 1 - 1) = _
      rw [if_neg (Nat.succ_ne_zero _), resetTimeout_queuedWrites]
      rfl
    have sameClose : ((client.resetTimeout.register data).forget client.nextRequest).queuedClose =
        client.queuedClose := client.resetTimeout_queuedClose
    have sameContext : ((client.resetTimeout.register data).forget client.nextRequest).context =
        client.context := client.resetTimeout_context
    show SameClock client.resetTimeout
      ((client.resetTimeout.register data).forget client.nextRequest).notify
    rcases notify_cases ((client.resetTimeout.register data).forget client.nextRequest) with
      ⟨_, same⟩ | ⟨_, _, same⟩ | ⟨last, isContext, same⟩
    · rw [same]
      exact ⟨rfl, rfl, rfl⟩
    · rw [same]
      exact ⟨rfl, rfl, rfl⟩
    · rw [queued] at last
      rw [sameContext] at isContext
      have notQueued : ¬ client.queuedClose = true := fun isQueued =>
        absurd (pending isContext isQueued) (by omega)
      rw [same, onSendEnd, sameClose, if_neg notQueued]
      exact ⟨rfl, rfl, rfl⟩

theorem send_pending (data : Bytes) (outcome : Outcome) :
    (client.send data outcome).Pending := by
  cases outcome with
  | queued => exact fun _ _ => Nat.succ_pos _
  | refused => exact fun _ _ => Nat.succ_pos _
  | wrote written => exact notify_pending

end SSLClient

namespace TimedClient

variable {state next : TimedClient}

/-- The stored time is the one that was set, and a close waits only while writes are queued. -/
structure Stored (state : TimedClient) : Prop where
  time : ∀ time ∈ state.lastSet, state.client.timeoutTime = time
  pending : state.client.Pending

/-- A step that leaves the timer or stops it. -/
theorem lawful_of_clock (lawful : state.Lawful) (clock : SSLClient.Clock state.client next.client)
    (lastSet : next.lastSet = state.lastSet) : next.Lawful := by
  intro time armed
  cases clock with
  | kept same =>
    rw [same.timer] at armed
    rw [same.isOpen, lastSet]
    exact lawful time armed
  | stopped timer _ =>
    rw [timer] at armed
    cases armed

/-- **A reset** keeps the law exactly when it has nothing to do or repeats what was set. -/
theorem lawful_reset_iff (lawful : state.Lawful) (stored : state.Stored)
    (same : SSLClient.SameClock state.client.resetTimeout next.client)
    (lastSet : next.lastSet = state.lastSet) : next.Lawful ↔ state.ResetsSet := by
  unfold ResetsSet
  by_cases zero : state.client.timeoutTime = 0
  · refine iff_of_true ?_ (.inl zero)
    have unchanged : state.client.resetTimeout = state.client := if_pos zero
    rw [unchanged] at same
    exact lawful_of_clock lawful (.kept same) lastSet
  · have armed : next.client.timer = some state.client.timeoutTime := by
      rw [same.timer]
      unfold SSLClient.resetTimeout
      rw [if_neg zero]
    have isOpen : next.client.isOpen = state.client.isOpen := by
      rw [same.isOpen]
      unfold SSLClient.resetTimeout
      rw [if_neg zero]
      rfl
    rw [or_iff_right zero]
    constructor
    · intro isLawful
      obtain ⟨last, _, opened⟩ := isLawful _ armed
      rw [lastSet] at last
      exact ⟨Option.isSome_iff_exists.mpr ⟨_, last⟩, isOpen ▸ opened⟩
    · rintro ⟨wasSet, opened⟩ time isTime
      obtain ⟨last, isLast⟩ := Option.isSome_iff_exists.mp wasSet
      obtain rfl := Option.some.inj (armed.symm.trans isTime)
      rw [lastSet, isLast, stored.time last isLast, isOpen]
      exact ⟨rfl, stored.time last isLast ▸ zero, opened⟩

/-- **What a step does to the timer**: it resets it, sets it, or leaves or stops it. -/
theorem step_timer {event : TimedEvent} (pending : state.client.Pending)
    (stepped : state.step event = some next) :
    (state.Guarded event ↔ state.ResetsSet) ∧
        SSLClient.SameClock state.client.resetTimeout next.client ∧ next.lastSet = state.lastSet ∨
      (∃ time, event = .client (.setTimeout time) ∧
        next = ⟨state.client.setTimeout time, some time⟩) ∨
      state.Guarded event ∧ SSLClient.Clock state.client next.client ∧
        next.lastSet = state.lastSet := by
  obtain ⟨_, alive⟩ := Option.ite_none_right_eq_some.mp stepped
  cases event with
  | client event =>
    obtain ⟨client, clientStepped, rfl⟩ := Option.map_eq_some_iff.mp alive
    cases SSLClient.stepped_of_step clientStepped with
    | send data outcome isOpen =>
      exact .inl ⟨Iff.rfl, SSLClient.send_sameClock pending data outcome, rfl⟩
    | close => exact .inr (.inr ⟨trivial, SSLClient.close_clock, rfl⟩)
    | crash => exact .inr (.inr ⟨trivial, .stopped rfl rfl, rfl⟩)
    | setTimeout time => exact .inr (.inl ⟨time, rfl, rfl⟩)
    | onWriteReturns running =>
      have ended : SSLClient.Clock state.client state.client.onSendEnd := SSLClient.onSendEnd_clock
      refine .inr (.inr ⟨trivial, ?_, rfl⟩)
      cases ended with
      | kept same => exact .kept ⟨same.timer, same.isOpen, same.time⟩
      | stopped timer time => exact .stopped timer time
    | sent request idle isOwed =>
      have sent : SSLClient.Clock { state.client with owed := state.client.owed.erase request } _ :=
        SSLClient.onSend_clock request
      refine .inr (.inr ⟨trivial, ?_, rfl⟩)
      cases sent with
      | kept same => exact .kept ⟨same.timer, same.isOpen, same.time⟩
      | stopped timer time => exact .stopped timer time
    | timeout idle armed => exact .inr (.inr ⟨trivial, .stopped rfl rfl, rfl⟩)
    | closed idle present closing completed =>
      have notOpen : state.client.isOpen = false := by
        unfold SSLClient.isOpen
        rw [closing]
        exact Bool.and_false _
      exact .inr (.inr ⟨trivial, .kept ⟨rfl, notOpen.symm, rfl⟩, rfl⟩)
  | resetTimeout =>
    cases alive
    exact .inl ⟨Iff.rfl, ⟨rfl, rfl, rfl⟩, rfl⟩
  | listen =>
    cases alive
    exact .inr (.inr ⟨trivial, .kept ⟨rfl, rfl, rfl⟩, rfl⟩)
  | stopListening =>
    cases alive
    exact .inr (.inr ⟨trivial, .kept ⟨rfl, rfl, rfl⟩, rfl⟩)
  | received nread =>
    obtain ⟨_, same⟩ := Option.ite_none_right_eq_some.mp alive
    cases nread with
    | none =>
      cases same
      exact .inr (.inr ⟨trivial, SSLClient.close_clock, rfl⟩)
    | some data =>
      cases same
      exact .inl ⟨Iff.rfl, ⟨rfl, rfl, rfl⟩, rfl⟩

theorem step_pending {event : TimedEvent} (pending : state.client.Pending)
    (stepped : state.step event = some next) : next.client.Pending := by
  obtain ⟨_, alive⟩ := Option.ite_none_right_eq_some.mp stepped
  have reset : state.client.resetTimeout.Pending := by
    unfold SSLClient.Pending
    rw [state.client.resetTimeout_context, state.client.resetTimeout_queuedClose,
      state.client.resetTimeout_queuedWrites]
    exact pending
  cases event with
  | client event =>
    obtain ⟨client, clientStepped, rfl⟩ := Option.map_eq_some_iff.mp alive
    cases SSLClient.stepped_of_step clientStepped with
    | send data outcome isOpen => exact SSLClient.send_pending data outcome
    | close => exact SSLClient.close_pending
    | crash | timeout idle armed => exact fun _ queued => nomatch queued
    | setTimeout time => exact pending
    | onWriteReturns running =>
      have ended : state.client.onSendEnd.Pending := SSLClient.onSendEnd_pending
      exact ended
    | sent request idle isOwed => exact SSLClient.notify_pending
    | closed idle present closing completed => exact pending
  | resetTimeout =>
    cases alive
    exact reset
  | listen =>
    cases alive
    exact pending
  | stopListening =>
    cases alive
    exact pending
  | received nread =>
    obtain ⟨_, same⟩ := Option.ite_none_right_eq_some.mp alive
    cases nread with
    | none =>
      cases same
      exact SSLClient.close_pending
    | some data =>
      cases same
      exact reset

/-- Every step keeps what is stored. -/
theorem Stored.step {event : TimedEvent} (stored : state.Stored)
    (stepped : state.step event = some next) : next.Stored := by
  refine ⟨fun time isLast => ?_, step_pending stored.pending stepped⟩
  rcases step_timer stored.pending stepped with ⟨_, same, lastSet⟩ | ⟨set, _, rfl⟩ | ⟨_, clock, lastSet⟩
  · have unchanged : state.client.resetTimeout.timeoutTime = state.client.timeoutTime := by
      unfold SSLClient.resetTimeout
      split <;> rfl
    rw [same.time, unchanged]
    exact stored.time time (lastSet ▸ isLast)
  · exact Option.some.inj isLast
  · rw [clock.time]
    exact stored.time time (lastSet ▸ isLast)

/-- **What one event needs** for the timer to stay as configured. -/
theorem lawful_step_iff {event : TimedEvent} (stored : state.Stored) (lawful : state.Lawful)
    (stepped : state.step event = some next) : next.Lawful ↔ state.Guarded event := by
  rcases step_timer stored.pending stepped with ⟨guarded, same, lastSet⟩ | ⟨time, rfl, rfl⟩ |
    ⟨guarded, clock, lastSet⟩
  · rw [guarded]
    exact lawful_reset_iff lawful stored same lastSet
  · show (∀ set ∈ (if time = 0 then none else some time), some time = some set ∧ set ≠ 0 ∧
      state.client.isOpen = true) ↔ time = 0 ∨ state.client.isOpen = true
    by_cases zero : time = 0
    · rw [if_pos zero]
      exact iff_of_true (fun _ armed => nomatch armed) (.inl zero)
    · rw [if_neg zero, or_iff_right zero]
      constructor
      · exact fun isLawful => (isLawful time rfl).2.2
      · rintro opened set armed
        obtain rfl := Option.some.inj armed
        exact ⟨rfl, zero, opened⟩
  · exact iff_of_true (lawful_of_clock lawful clock lastSet) guarded

/-- **When the timer is as configured**: throughout a run exactly when every event is guarded. -/
theorem run_configured_iff {timeoutTime : Nat} {context : Option ClientContext}
    {events : List TimedEvent} {final : TimedClient}
    (ran : run step ⟨{ timeoutTime, context }, none⟩ events = some final) :
    Throughout step Configured ⟨{ timeoutTime, context }, none⟩ events ↔
      Along step Guarded ⟨{ timeoutTime, context }, none⟩ events := by
  have stored : Throughout step Stored ⟨{ timeoutTime, context }, none⟩ events :=
    throughout_always Stored (fun _ _ _ isStored stepped => isStored.step stepped)
      ⟨fun _ isLast => (nomatch isLast), fun _ queued => (nomatch queued)⟩
  refine throughout_iff_along (fun state event next isStored _ configured stepped => ?_) stored ?_ ran
  · rw [configured_iff] at configured ⊢
    exact lawful_step_iff isStored configured stepped
  · rw [configured_iff]
    exact fun _ armed => nomatch armed

/-- A time is set, data comes, the connection is closed. -/
def setRun : List TimedEvent :=
  [.client (.setTimeout 1000), .listen, .received (some [1]), .client .close, .client .closed]

theorem run_configured_iff_setRun :
    ∃ final, run step ⟨{ timeoutTime := 7, context := none }, none⟩ setRun = some final ∧
      (Throughout step Configured ⟨{ timeoutTime := 7, context := none }, none⟩ setRun ↔
        Along step Guarded ⟨{ timeoutTime := 7, context := none }, none⟩ setRun) :=
  ⟨_, rfl, run_configured_iff (show run step ⟨{ timeoutTime := 7, context := none }, none⟩ setRun =
    some _ from rfl)⟩

/-- Without `setTimeout` the first data arms the timer with what the constructor has left, and the
timer crashes the connection; and a time that is set after the close is armed. -/
theorem run_notConfigured :
    (∃ armed crashed,
      run step ⟨{ timeoutTime := 7, context := none }, none⟩ [.listen, .received (some [1])] =
        some armed ∧ armed.lastSet = none ∧ armed.client.timer = some 7 ∧ ¬ armed.Configured ∧
      armed.step (.client .timeout) = some crashed ∧ crashed.client.closing = true) ∧
    ∃ armed, run step ⟨{ timeoutTime := 0, context := none }, none⟩
        [.client .close, .client (.setTimeout 5)] = some armed ∧
      armed.client.isOpen = false ∧ armed.client.timer = some 5 ∧ ¬ armed.Configured := by
  refine ⟨⟨_, _, rfl, rfl, rfl, fun configured => ?_, rfl, rfl⟩, _, rfl, rfl, rfl, fun configured => ?_⟩
  · exact absurd (configured.2 (.inl rfl)).1 (by decide)
  · exact absurd (configured.2 (.inr (.inr rfl))).1 (by decide)

end TimedClient

end GemCaps
