/-
**The requests of a connection.**

`Manager::on_read` gives a request to its handler while it reads from the connection, and the calls
that the handler and its callbacks make on the client are steps of the connection, in the order in
which they are made (`Exchange.follow`). Nothing keeps `on_read` from dispatching a second request on
the connection; both are served then. Between two callbacks libuv and the TLS layer go on with the
connection.

* `stepped_of_step`: what a step is;
* `run_connection`: what the connection goes through is a run of the `Manager`;
* `run_matched`: the requests that are served are those that were dispatched, each by its handler.
-/

import GemCaps.Connection.Dispatch
import GemCaps.Files.Effects
import GemCaps.Library.Transition

namespace GemCaps

open Transition

/-- The function and the context that a request registers. -/
def CloseCallback.registration : CloseCallback → Registration
  | .onClientClosed => ⟨0, 0⟩
  | .runnerClosed => ⟨1, 1⟩

/-- A call on the client, as its connection receives it. -/
def Action.call : Action → Option ConnectionEvent
  | .send data => some (.send data)
  | .close => some .close
  | .setClientCloseCallback callback => some (.setClientCloseCallback callback.registration)
  | .validate _ _ | .acquire _ | .release _ | .start _ | .finish | .spawn _ | .signal => none

/-- The calls that only a handler makes. -/
def ConnectionEvent.isCall : ConnectionEvent → Bool
  | .send _ | .close | .setClientCloseCallback _ => true
  | .received _ | .onRead _ | .loopTest | .record _ _ | .onWriteReturns | .sent _ | .timeout
  | .closed => false

/-- A connection, and the requests of it that were given to a handler, the first one first. -/
structure Exchange where
  servings : List (FileHandler × Serving)
  connection : Connection

/-- A callback of one of the requests, or a step of the connection. -/
inductive ExchangeEvent where
  | callback (index : Nat) (event : ServingEvent)
  | network (event : ConnectionEvent)

namespace Exchange

/-- `Manager::on_accept`. -/
def accepted (timeoutTime : Nat) : Exchange := ⟨[], .accept timeoutTime⟩

/-- `handlers.find(client->getServer())`, with `shouldHandle` of what is found. -/
abbrev handlers (registered : Option (List FileHandler)) : Handlers :=
  registered.map fun handlers => handlers.map FileHandler.shouldHandle

section Steps

variable (system : System) (registered : Option (List FileHandler)) (exchange : Exchange)

/-- The connection after what a request has done since `before`. -/
def follow (connection : Connection) (before after : Serving) : Option Connection :=
  run (Connection.step (handlers registered)) connection
    ((after.trace.drop before.trace.length).filterMap Action.call)

/-- `Handler::handle(client)`. -/
def handle (index : Nat) (request : Request) : Option Exchange :=
  (registered.getD [])[index]?.bind fun handler =>
    (follow registered exchange.connection { request } (Serving.handle handler request)).map
      fun connection => ⟨exchange.servings ++ [(handler, Serving.handle handler request)], connection⟩

/-- One step; the close callback of the connection is one for all of its requests. A crash is the
end of the program. -/
def step : ExchangeEvent → Option Exchange
  | .callback index event =>
    if (exchange.servings.any fun served => served.2.crashed) ∨ ¬ exchange.connection.Idle then none
    else exchange.servings[index]?.bind fun (handler, serving) =>
      match event with
      | .connectionClosed => none
      | event => (serving.step system handler event).bind fun next =>
        (follow registered exchange.connection serving next).map fun connection =>
          ⟨exchange.servings.set index (handler, next), connection⟩
  | .network event =>
    if (exchange.servings.any fun served => served.2.crashed) ∨ event.isCall then none
    else (exchange.connection.step (handlers registered) event).bind fun connection =>
      match event with
      | .closed =>
        some ⟨exchange.servings.map fun served => (served.1, served.2.onClose .manager), connection⟩
      | _ =>
        match connection.dispatched[exchange.connection.dispatched.length]? with
        | none => some { exchange with connection }
        | some (index, request) => handle registered { exchange with connection } index request

end Steps

variable {system : System} {registered : Option (List FileHandler)} {exchange next : Exchange}

/-! ### What a step is -/

/-- What was done, and what it makes of the connection. -/
theorem follow_eq_some {connection after : Connection} {before serving : Serving} {new : List Action}
    (grown : serving.trace = before.trace ++ new) :
    follow registered connection before serving = some after ↔
      run (Connection.step (handlers registered)) connection (new.filterMap Action.call) =
        some after := by
  have added : serving.trace.drop before.trace.length = new := by rw [grown, List.drop_left]
  rw [follow, added]

/-- Nothing is called. -/
theorem follow_of_quiet {connection after : Connection} {before serving : Serving}
    {new : List Action} (grown : serving.trace = before.trace ++ new)
    (quiet : new.filterMap Action.call = [])
    (followed : follow registered connection before serving = some after) : after = connection := by
  have ran := (follow_eq_some grown).mp followed
  rw [quiet, run_nil, Option.some.injEq] at ran
  exact ran.symm

/-- One call. -/
theorem follow_of_call {connection after : Connection} {before serving : Serving} (new : List Action)
    (call : ConnectionEvent) (grown : serving.trace = before.trace ++ new)
    (calls : new.filterMap Action.call = [call])
    (followed : follow registered connection before serving = some after) :
    connection.step (handlers registered) call = some after := by
  have ran := (follow_eq_some grown).mp followed
  rwa [calls, run_singleton] at ran

/-- What a step can be. -/
inductive Stepped (system : System) (registered : Option (List FileHandler)) (exchange : Exchange) :
    ExchangeEvent → Exchange → Prop where
  | callback {index : Nat} {event : ServingEvent} {handler : FileHandler} {serving next : Serving}
      {connection : Connection} (served : exchange.servings[index]? = some (handler, serving))
      (other : event ≠ .connectionClosed) (stepped : serving.step system handler event = some next)
      (followed : follow registered exchange.connection serving next = some connection) :
      Stepped system registered exchange (.callback index event)
        ⟨exchange.servings.set index (handler, next), connection⟩
  | network {event : ConnectionEvent} {connection : Connection} (uncalled : event.isCall = false)
      (other : event ≠ .closed)
      (stepped : exchange.connection.step (handlers registered) event = some connection)
      (undispatched : connection.dispatched.length ≤ exchange.connection.dispatched.length) :
      Stepped system registered exchange (.network event) { exchange with connection }
  | dispatched {event : ConnectionEvent} {connection after : Connection} {index : Nat}
      {request : Request} {handler : FileHandler} (uncalled : event.isCall = false)
      (stepped : exchange.connection.step (handlers registered) event = some connection)
      (entry : connection.dispatched[exchange.connection.dispatched.length]? = some (index, request))
      (isHandler : (registered.getD [])[index]? = some handler)
      (followed : follow registered connection { request } (Serving.handle handler request) =
        some after) :
      Stepped system registered exchange (.network event)
        ⟨exchange.servings ++ [(handler, Serving.handle handler request)], after⟩
  | closed {connection : Connection}
      (stepped : exchange.connection.step (handlers registered) .closed = some connection) :
      Stepped system registered exchange (.network .closed)
        ⟨exchange.servings.map fun served => (served.1, served.2.onClose .manager), connection⟩

/-- **Every step is one of these**, and no request has crashed. -/
theorem stepped_of_step {event : ExchangeEvent}
    (step : exchange.step system registered event = some next) :
    Stepped system registered exchange event next ∧
      ∀ served ∈ exchange.servings, served.2.crashed = false := by
  have running : ¬ (exchange.servings.any fun served => served.2.crashed) = true →
      ∀ served ∈ exchange.servings, served.2.crashed = false := by
    intro intact served inside
    simpa using List.any_eq_false.mp (Bool.not_eq_true _ ▸ intact) served inside
  cases event with
  | callback index event =>
    obtain ⟨neither, bound⟩ := Option.ite_none_left_eq_some.mp step
    obtain ⟨⟨handler, serving⟩, served, rest⟩ := Option.bind_eq_some_iff.mp bound
    have stepped : (serving.step system handler event).bind (fun next =>
        (follow registered exchange.connection serving next).map fun connection =>
          (⟨exchange.servings.set index (handler, next), connection⟩ : Exchange)) = some next ∧
        event ≠ .connectionClosed := by
      cases event <;> first | exact ⟨rest, by simp⟩ | cases rest
    obtain ⟨after, isNext, same⟩ := Option.bind_eq_some_iff.mp stepped.1
    obtain ⟨connection, followed, rfl⟩ := Option.map_eq_some_iff.mp same
    exact ⟨.callback served stepped.2 isNext followed, running (not_or.mp neither).1⟩
  | network event =>
    obtain ⟨neither, bound⟩ := Option.ite_none_left_eq_some.mp step
    have uncalled : event.isCall = false := Bool.not_eq_true _ ▸ (not_or.mp neither).2
    refine ⟨?_, running (not_or.mp neither).1⟩
    obtain ⟨connection, stepped, rest⟩ := Option.bind_eq_some_iff.mp bound
    cases event with
    | closed =>
      obtain rfl := Option.some.inj rest
      exact .closed stepped
    | received _ | onRead _ | loopTest | send _ | close | setClientCloseCallback _ | record _ _
    | onWriteReturns | sent _ | timeout =>
      cases entry : connection.dispatched[exchange.connection.dispatched.length]? with
      | none =>
        simp only [entry] at rest
        exact Option.some.inj rest ▸ .network uncalled (by simp) stepped
          (List.getElem?_eq_none_iff.mp entry)
      | some dispatched =>
        obtain ⟨index, request⟩ := dispatched
        simp only [entry] at rest
        obtain ⟨handler, isHandler, started⟩ := Option.bind_eq_some_iff.mp rest
        obtain ⟨after, followed, rfl⟩ := Option.map_eq_some_iff.mp started
        exact .dispatched uncalled stepped entry isHandler followed

/-! ### Runs -/

/-- What a step makes of the connection. -/
theorem step_connection {event : ExchangeEvent}
    (step : exchange.step system registered event = some next) :
    ∃ events, run (Connection.step (handlers registered)) exchange.connection events =
      some next.connection := by
  cases (stepped_of_step step).1 with
  | callback served other stepped followed => exact ⟨_, followed⟩
  | @network event connection uncalled other stepped undispatched =>
    exact ⟨[event], (run_singleton ..).trans stepped⟩
  | @dispatched event connection after index request handler uncalled stepped entry isHandler
      followed => exact ⟨event :: _, (run_cons_eq_some _).mpr ⟨connection, stepped, followed⟩⟩
  | closed stepped => exact ⟨[.closed], (run_singleton ..).trans stepped⟩

/-- **What the connection goes through is a run of the `Manager`.** -/
theorem run_connection {timeoutTime : Nat} {events : List ExchangeEvent} {final : Exchange}
    (ran : run (step system registered) (accepted timeoutTime) events = some final) :
    ∃ past, run (Connection.step (handlers registered)) (.accept timeoutTime) past =
      some final.connection := by
  refine run_always (fun exchange => ∃ past, run (Connection.step (handlers registered))
    (.accept timeoutTime) past = some exchange.connection) (fun exchange event next soFar step => ?_)
    ⟨[], rfl⟩ ran
  obtain ⟨past, before⟩ := soFar
  obtain ⟨new, later⟩ := step_connection step
  exact ⟨past ++ new, (run_append_eq_some _).mpr ⟨_, before, later⟩⟩

theorem step_managed {event : ExchangeEvent} (managed : exchange.connection.Managed)
    (step : exchange.step system registered event = some next) : next.connection.Managed := by
  obtain ⟨_, later⟩ := step_connection step
  exact run_always Connection.Managed (fun _ _ _ managed stepped => managed.step stepped) managed later

/-- The requests that are served are those that were dispatched, each by the handler that it was
dispatched to. -/
def Matched (registered : Option (List FileHandler)) (exchange : Exchange) : Prop :=
  exchange.servings.map (fun served => (some served.1, served.2.request)) =
    exchange.connection.dispatched.map fun entry => ((registered.getD [])[entry.1]?, entry.2)

/-- The calls of a handler dispatch nothing. -/
theorem follow_dispatched {connection after : Connection} {before serving : Serving}
    (managed : connection.Managed)
    (followed : follow registered connection before serving = some after) :
    after.dispatched = connection.dispatched := by
  unfold follow at followed
  generalize serving.trace.drop before.trace.length = new at followed
  induction new generalizing connection with
  | nil => exact Option.some.inj followed ▸ rfl
  | cons action new ih =>
    cases isCall : action.call with
    | none =>
      rw [List.filterMap_cons_none isCall] at followed
      exact ih managed followed
    | some call =>
      rw [List.filterMap_cons_some isCall, run_cons_eq_some] at followed
      obtain ⟨middle, stepped, rest⟩ := followed
      have same : middle.dispatched = connection.dispatched := by
        rcases Connection.step_grows managed stepped with same | ⟨outcome, entry, isRead, _⟩
        · exact same
        · cases action <;> simp [Action.call, isRead] at isCall
      exact (ih (managed.step stepped) rest).trans same

/-- **One step.** -/
theorem Matched.step {event : ExchangeEvent} (managed : exchange.connection.Managed)
    (matched : Matched registered exchange)
    (step : exchange.step system registered event = some next) : Matched registered next := by
  unfold Matched at matched ⊢
  cases (stepped_of_step step).1 with
  | @callback index event handler serving after connection served other stepped followed =>
    obtain ⟨inside, isServed⟩ := List.getElem?_eq_some_iff.mp served
    have same : (some handler, after.request) = (some handler, serving.request) := by
      rw [Serving.step_request stepped]
    have back : exchange.servings.set index (handler, serving) = exchange.servings := by
      rw [← isServed, List.set_getElem_self]
    rw [follow_dispatched managed followed, ← matched, List.map_set, same]
    exact List.map_set.symm.trans (congrArg _ back)
  | network uncalled other stepped undispatched =>
    rcases Connection.step_grows managed stepped with same | ⟨_, entry, _, same⟩
    · exact matched.trans (by rw [same])
    · rw [same, List.length_append] at undispatched
      exact absurd undispatched (Nat.not_succ_le_self _)
  | @dispatched event connection after index request handler uncalled stepped entry isHandler
      followed =>
    rcases Connection.step_grows managed stepped with same | ⟨_, last, _, same⟩
    · rw [same, List.getElem?_eq_none (Nat.le_refl _)] at entry
      cases entry
    · rw [same, List.getElem?_concat_length, Option.some.injEq] at entry
      rw [follow_dispatched (managed.step stepped) followed, same, entry, List.map_append,
        List.map_append, matched, List.map_singleton, List.map_singleton, isHandler,
        Serving.handle_request]
  | @closed connection stepped =>
    have same : connection.dispatched = exchange.connection.dispatched := by
      rcases Connection.step_grows managed stepped with same | ⟨_, _, isRead, _⟩
      · exact same
      · cases isRead
    rw [same, ← matched, List.map_map]
    rfl

/-- **In every run, a request that is served was dispatched to its handler.** -/
theorem run_matched {timeoutTime : Nat} {events : List ExchangeEvent} {final : Exchange}
    (ran : run (step system registered) (accepted timeoutTime) events = some final) :
    Matched registered final := by
  exact (run_always (fun exchange => exchange.connection.Managed ∧ Matched registered exchange)
    (fun _ _ _ both step => ⟨step_managed both.1 step, both.2.step both.1 step⟩)
    (show (accepted timeoutTime).connection.Managed ∧ Matched registered (accepted timeoutTime) from
      ⟨Connection.accept_managed timeoutTime, rfl⟩) ran).2

end Exchange

end GemCaps
