/-
**The close callbacks of the handlers.**

`GeminiConnection::on_close` would invoke the callback, but `on_accept` registers the `Manager` as the
context of the client, and `Manager::on_close` only erases the connection.
`closeCallback_never`: whatever a handler registers, nothing of it is invoked when the connection is
destroyed, in any run.
-/

import GemCaps.Connection.Manager

namespace GemCaps

open Transition

namespace Connection

variable {connection next : Connection} {handlers : Handlers}

/-- A registration is invoked exactly once, and that before the connection is destroyed. -/
def InvokedOnce (life : List LifeEvent) (registration : Registration) : Prop :=
  ∃ before after, life = before ++ .destroyed :: after ∧
    before.count (.invoked registration) = 1 ∧ .invoked registration ∉ after

/-- Nothing was invoked. -/
def Uninvoked (life : List LifeEvent) : Prop := ∀ registration, .invoked registration ∉ life

theorem Uninvoked.concat {life : List LifeEvent} (uninvoked : Uninvoked life) {event : LifeEvent}
    (other : ∀ registration, event ≠ .invoked registration) : Uninvoked (life ++ [event]) := by
  intro registration inside
  rcases List.mem_append.mp inside with old | new
  · exact uninvoked registration old
  · exact other registration (List.mem_singleton.mp new).symm

theorem Uninvoked.not_invokedOnce {life : List LifeEvent} (uninvoked : Uninvoked life)
    (registration : Registration) : ¬ InvokedOnce life registration := by
  rintro ⟨before, after, rfl, once, _⟩
  have absent : .invoked registration ∉ before := fun inside =>
    uninvoked registration (List.mem_append_left _ inside)
  rw [List.count_eq_zero_of_not_mem absent] at once
  cases once

@[simp] theorem clientWrite_life (data : Bytes) :
    (connection.clientWrite data).life = connection.life := by
  unfold clientWrite
  split <;> rfl

@[simp] theorem send_life (gemini : GeminiConnection) (data : Bytes) :
    (connection.send gemini data).life = connection.life := by
  simp [Connection.send]

theorem dispatch_life (gemini : GeminiConnection) :
    (connection.dispatch handlers gemini).life = connection.life := by
  unfold dispatch
  cases handlers with
  | none => rfl
  | some handlers =>
    cases found : handlers.findIdx? fun shouldHandle =>
        shouldHandle gemini.request.host gemini.request.path with
    | some index => simp only [found]
    | none => simp only [found, send_life]

theorem onRead_life (gemini : GeminiConnection) (outcome : ReadOutcome) :
    (connection.onRead handlers gemini outcome).life = connection.life := by
  unfold onRead
  cases outcome.result with
  | error error => cases error <;> rfl
  | ok data =>
    simp only [onHeader]
    split
    · rfl
    · split
      · rfl
      · split
        · rfl
        · exact dispatch_life _

theorem managerOnClose_uninvoked (uninvoked : Uninvoked connection.life) :
    Uninvoked connection.managerOnClose.life := by
  unfold managerOnClose
  cases connection.gemini with
  | none => exact uninvoked
  | some gemini => exact uninvoked.concat fun _ => LifeEvent.noConfusion

/-- **No step invokes a callback.** -/
theorem step_uninvoked (managed : connection.Managed) (uninvoked : Uninvoked connection.life)
    {event : ConnectionEvent} (step : connection.step handlers event = some next) :
    Uninvoked next.life := by
  cases managed.stepped step with
  | client client phase context silent => exact uninvoked
  | send isOpen data =>
    rw [send_life]
    exact uninvoked
  | setClientCloseCallback isOpen registration =>
    exact uninvoked.concat fun _ => LifeEvent.noConfusion
  | onRead isOpen outcome =>
    rw [onRead_life]
    exact uninvoked
  | closed client context => exact managerOnClose_uninvoked uninvoked

theorem run_uninvoked {timeoutTime : Nat} {events : List ConnectionEvent}
    (ran : run (step handlers) (accept timeoutTime) events = some connection) :
    Uninvoked connection.life :=
  (run_always (fun connection => connection.Managed ∧ Uninvoked connection.life)
    (fun _ _ _ invariant stepped =>
      ⟨Managed.step invariant.1 stepped, step_uninvoked invariant.1 invariant.2 stepped⟩)
    ⟨accept_managed timeoutTime, fun _ => List.not_mem_nil⟩ ran).2

/-- **No callback is invoked once**, whichever a handler has registered, in any run up to the end of
`__on_close`. -/
theorem closeCallback_never {timeoutTime : Nat} {events : List ConnectionEvent}
    (ran : run (step handlers) (accept timeoutTime) events = some connection)
    (closed : connection.step handlers .closed = some next) (registration : Registration) :
    ¬ InvokedOnce next.life registration := by
  have whole : run (step handlers) (accept timeoutTime) (events ++ [.closed]) = some next :=
    (run_concat_eq_some (step handlers)).mpr ⟨connection, ran, closed⟩
  exact (run_uninvoked whole).not_invokedOnce registration

/-- A handler registers a callback and closes the connection. -/
def registerAndClose : List ConnectionEvent := [.setClientCloseCallback ⟨1, 2⟩, .close]

theorem closeCallback_never_registered :
    ∃ connection next : Connection,
      run (step none) (accept 0) registerAndClose = some connection ∧
      connection.step none .closed = some next ∧ ¬ InvokedOnce next.life ⟨1, 2⟩ :=
  ⟨_, _, rfl, rfl, closeCallback_never (show run (step none) (accept 0) registerAndClose = some _
    from rfl) (show Connection.step none _ .closed = some _ from rfl) ⟨1, 2⟩⟩

/-- The connection is destroyed, and all that happened before is the registration. -/
theorem closeCallback_lost :
    (run (step none) (accept 0) (registerAndClose ++ [.closed])).map Connection.life =
        some [.registered ⟨1, 2⟩, .destroyed] ∧
      ¬ InvokedOnce [.registered ⟨1, 2⟩, .destroyed] ⟨1, 2⟩ := by
  refine ⟨rfl, Uninvoked.not_invokedOnce (fun registration inside => ?_) _⟩
  simp at inside

end Connection

end GemCaps
