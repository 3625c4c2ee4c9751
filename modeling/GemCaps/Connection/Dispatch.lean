/-
**How often a connection is dispatched.**

`on_read` keeps a finished header in the request and only stops the socket. While ciphertext is left,
`__on_recv` calls it again, and a read that does not fail finds the header finished once more.
`run_dispatched`: in a run in which no read of that kind follows a dispatch, at most one request is
dispatched.
-/

import GemCaps.Connection.Manager

namespace GemCaps

open Transition

namespace Connection

variable {connection next : Connection} {handlers : Handlers}

/-- A read that fails, or makes the header longer than 1024 bytes. -/
def Refused (gemini : GeminiConnection) (outcome : ReadOutcome) : Prop :=
  match outcome.result with
  | .error _ => True
  | .ok data => 1024 < (gemini.request.header ++ data).length

/-- After a dispatch every read is refused. -/
def SingleRead (connection : Connection) : ConnectionEvent → Prop
  | .onRead outcome =>
    connection.dispatched.isEmpty ∨ ∀ gemini ∈ connection.gemini, Refused gemini outcome
  | _ => True

instance (gemini : GeminiConnection) : (outcome : ReadOutcome) → Decidable (Refused gemini outcome)
  | ⟨.error _, _, _⟩ => .isTrue trivial
  | ⟨.ok data, _, _⟩ => inferInstanceAs (Decidable (1024 < (gemini.request.header ++ data).length))

instance (connection : Connection) :
    (event : ConnectionEvent) → Decidable (connection.SingleRead event)
  | .onRead _ => inferInstanceAs (Decidable (_ ∨ _))
  | .received _ | .loopTest | .send _ | .close | .setClientCloseCallback _ | .record _ _
  | .onWriteReturns | .sent _ | .timeout | .closed => .isTrue trivial

@[simp] theorem clientWrite_dispatched (data : Bytes) :
    (connection.clientWrite data).dispatched = connection.dispatched := by
  unfold clientWrite
  split <;> rfl

@[simp] theorem send_dispatched (gemini : GeminiConnection) (data : Bytes) :
    (connection.send gemini data).dispatched = connection.dispatched := by
  simp [Connection.send]

/-- At most one request more was dispatched. -/
def Grows (connection next : Connection) : Prop :=
  next.dispatched = connection.dispatched ∨
    ∃ entry, next.dispatched = connection.dispatched ++ [entry]

theorem Grows.length_le (grows : Grows connection next) :
    next.dispatched.length ≤ connection.dispatched.length + 1 := by
  rcases grows with same | ⟨entry, same⟩
  · exact same ▸ Nat.le_succ _
  · rw [same, List.length_append, List.length_singleton]

theorem Grows.of_same {first : Connection} (grows : Grows first next)
    (same : first.dispatched = connection.dispatched) : Grows connection next := by
  rwa [Grows, same] at grows

theorem dispatch_dispatched (gemini : GeminiConnection) :
    Grows connection (connection.dispatch handlers gemini) := by
  unfold dispatch
  cases handlers with
  | none => exact .inl rfl
  | some handlers =>
    cases found : handlers.findIdx? fun shouldHandle =>
        shouldHandle gemini.request.host gemini.request.path with
    | some index =>
      simp only [found]
      exact .inr ⟨_, rfl⟩
    | none =>
      simp only [found]
      exact .inl (send_dispatched gemini _)

theorem onHeader_dispatched (gemini : GeminiConnection) :
    Grows connection (connection.onHeader handlers gemini) := by
  simp only [onHeader]
  split
  · exact .inl rfl
  · split
    · exact .inl rfl
    · split
      · exact .inl rfl
      · exact (dispatch_dispatched _).of_same rfl

/-- **One call of `on_read`** dispatches at most once, and not at all when the read is refused. -/
theorem onRead_dispatched (handlers : Handlers) (gemini : GeminiConnection) (outcome : ReadOutcome) :
    Grows connection (connection.onRead handlers gemini outcome) ∧
      (Refused gemini outcome →
        (connection.onRead handlers gemini outcome).dispatched = connection.dispatched) := by
  unfold onRead Refused
  cases outcome.result with
  | error error => cases error <;> exact ⟨.inl rfl, fun _ => rfl⟩
  | ok data =>
    refine ⟨(onHeader_dispatched _).of_same rfl, fun long => ?_⟩
    simp only [onHeader, if_pos long]

/-- Only `on_read` dispatches. -/
theorem step_grows (managed : connection.Managed) {event : ConnectionEvent}
    (step : connection.step handlers event = some next) :
    next.dispatched = connection.dispatched ∨ ∃ outcome entry, event = .onRead outcome ∧
      next.dispatched = connection.dispatched ++ [entry] := by
  cases managed.stepped step with
  | client client phase context silent => exact .inl rfl
  | send isOpen data => exact .inl (send_dispatched _ data)
  | setClientCloseCallback isOpen registration => exact .inl rfl
  | onRead isOpen outcome =>
    rcases (onRead_dispatched handlers _ outcome).1 with same | ⟨entry, same⟩
    · exact .inl same
    · exact .inr ⟨outcome, entry, rfl, same⟩
  | closed client context =>
    unfold managerOnClose
    split <;> exact .inl rfl

/-- **One step.** -/
theorem step_dispatched (managed : connection.Managed) (single : connection.dispatched.length ≤ 1)
    {event : ConnectionEvent} (isSingle : connection.SingleRead event)
    (step : connection.step handlers event = some next) : next.dispatched.length ≤ 1 := by
  cases managed.stepped step with
  | client client phase context silent => exact single
  | send isOpen data =>
    rw [send_dispatched]
    exact single
  | setClientCloseCallback isOpen registration => exact single
  | onRead isOpen outcome =>
    obtain ⟨atMost, kept⟩ := onRead_dispatched handlers _ outcome
    rcases isSingle with none | refused
    · have zero : connection.dispatched.length = 0 := by simpa using none
      exact atMost.length_le.trans (by omega)
    · rw [kept (refused _ isOpen)]
      exact single
  | closed client context =>
    unfold managerOnClose
    split <;> exact single

/-- **A run in which every read after a dispatch fails dispatches at most once.** -/
theorem run_dispatched {timeoutTime : Nat} {events : List ConnectionEvent}
    (single : Along (step handlers) SingleRead (accept timeoutTime) events)
    (ran : run (step handlers) (accept timeoutTime) events = some connection) :
    connection.dispatched.length ≤ 1 :=
  (run_invariant (fun connection => connection.Managed ∧ connection.dispatched.length ≤ 1)
    (fun _ _ _ invariant isSingle stepped => ⟨Managed.step invariant.1 stepped,
      step_dispatched invariant.1 invariant.2 isSingle stepped⟩)
    ⟨accept_managed timeoutTime, Nat.zero_le 1⟩ single ran).2

/-- One handler that takes every request. -/
def anyHandler : Handlers := some [fun _ _ => true]

/-- The request line, and the beginning of a second record, which cannot be read yet. -/
def oneRecord : List ConnectionEvent :=
  [.received (some [1, 2]), .onRead ⟨.ok (text "gemini://h/\r\n"), 1, false⟩, .loopTest,
    .onRead ⟨.error .wantRead, 1, true⟩, .loopTest]

theorem run_dispatched_one : ∃ final : Connection,
    run (step anyHandler) (accept 0) oneRecord = some final ∧ final.dispatched.length ≤ 1 :=
  ⟨_, rfl, run_dispatched (show Along (step anyHandler) SingleRead (accept 0) oneRecord by decide)
    rfl⟩

/-- Two records in one reception: the request line, and one byte more. -/
def twoRecords : List ConnectionEvent :=
  [.received (some [1, 2]), .onRead ⟨.ok (text "gemini://h/\r\n"), 1, false⟩, .loopTest,
    .onRead ⟨.ok (text "x"), 1, false⟩, .loopTest]

/-- The request is dispatched a second time. -/
theorem run_dispatchedTwice : ∃ final : Connection,
    run (step anyHandler) (accept 0) twoRecords = some final ∧ final.dispatched.length = 2 :=
  ⟨_, rfl, rfl⟩

end Connection

end GemCaps
