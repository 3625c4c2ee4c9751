/-
**Many clients of one `Manager`** (`Manager::on_accept`, `on_read`, `on_close`, and
`SSLServer::__on_accept`, `_on_client_close`).

An `SSLClient` lives at an address from `__on_accept` until `__on_close` deletes it, and the address
can be used again. `requests` is keyed by the address: `insert` keeps an entry that is there, and
`on_read` dereferences what it finds. Each entry carries the number of the `on_accept` that made it.
The steps at an address are those of `Connection`, with the entry that the lookup finds.

`run_isolated`: every client finds the entry of its own `on_accept`, and is in the state it would be
in if its own events were the only ones.
-/

import GemCaps.Connection.Manager
import GemCaps.Library.Sessions

namespace GemCaps

open Transition

/-- The `SSLClient` at an address, with the loop of `__on_recv` that runs on it, and what was done
through it. -/
structure LiveClient (Server : Type) where
  /-- The number of the `on_accept` that made it. -/
  number : Nat
  server : Server
  client : SSLClient
  phase : Phase := .idle
  wantRead : Bool := false
  written : Bytes := []
  dispatched : List (Nat × Request) := []
  life : List LifeEvent := []

/-- An entry of `requests`, with the number of the `on_accept` that made it. -/
structure Entry where
  owner : Nat
  gemini : GeminiConnection

/-- `Manager`, with the clients that its servers hold. -/
structure Manager (Server Address : Type) where
  clients : Address → Option (LiveClient Server) := fun _ => none
  requests : Address → Option Entry := fun _ => none
  accepted : Nat := 0
  /-- `on_read` has dereferenced a null pointer. -/
  crashed : Bool := false

/-- What happens to the clients of a `Manager`. -/
inductive ManagerEvent (Server Address : Type) where
  /-- `__on_accept`: the new `SSLClient` gets a free address. -/
  | accept (server : Server) (address : Address) (timeoutTime : Nat)
  | client (address : Address) (event : ConnectionEvent)

/-- The `SSLClient` is deleted in this step. -/
def ConnectionEvent.closes : ConnectionEvent → Bool
  | .closed => true
  | .received _ | .onRead _ | .loopTest | .send _ | .close | .setClientCloseCallback _ | .record _ _
  | .onWriteReturns | .sent _ | .timeout => false

namespace LiveClient

variable {Server : Type} (live : LiveClient Server)

/-- The connection that a client and the entry found for it make. -/
def connection (gemini : Option GeminiConnection) : Connection :=
  ⟨live.client, gemini, live.phase, live.wantRead, live.written, live.dispatched, live.life⟩

/-- The client after a step of its connection. -/
def after (next : Connection) : LiveClient Server :=
  ⟨live.number, live.server, next.client, next.phase, next.wantRead, next.written, next.dispatched,
    next.life⟩

end LiveClient

namespace Manager

variable {Server Address : Type} [DecidableEq Address] (handlers : Server → Handlers)
  (manager : Manager Server Address)

/-- `requests.insert` keeps an entry that is there. -/
def insertEntry (address : Address) (entry : Entry) : Address → Option Entry :=
  if (manager.requests address).isSome then manager.requests
  else Function.update manager.requests address (some entry)

/-- `__on_accept` and `Manager::on_accept`. -/
def onAccept (server : Server) (address : Address) (timeoutTime : Nat) : Manager Server Address :=
  { manager with
    clients := Function.update manager.clients address
      (some ⟨manager.accepted, server, (Connection.accept timeoutTime).client, .idle, false, [], [],
        []⟩)
    requests := manager.insertEntry address ⟨manager.accepted, {}⟩
    accepted := manager.accepted + 1 }

/-- A step of the client at an address; `requests[client]` of a missing entry is a null pointer. -/
def clientStep (address : Address) (live : LiveClient Server) (event : ConnectionEvent) :
    Option (Manager Server Address) :=
  match manager.requests address, event with
  | none, .onRead _ =>
    if live.phase = .reading then some { manager with crashed := true } else none
  | entry, event =>
    ((live.connection (entry.map Entry.gemini)).step (handlers live.server) event).map fun next =>
      { manager with
        clients := Function.update manager.clients address
          (if event.closes then none else some (live.after next))
        requests := Function.update manager.requests address
          (entry.bind fun entry => next.gemini.map fun gemini => { entry with gemini }) }

/-- One step; `none` where the event cannot happen. -/
def step (event : ManagerEvent Server Address) : Option (Manager Server Address) :=
  if manager.crashed then none
  else match event with
    | .accept server address timeoutTime =>
      if (manager.clients address).isNone then some (manager.onAccept server address timeoutTime)
      else none
    | .client address event =>
      (manager.clients address).bind fun live => manager.clientStep handlers address live event

/-- The connection at an address, and its server. -/
def connectionAt (address : Address) : Option (Server × Connection) :=
  (manager.clients address).map fun live =>
    (live.server, live.connection ((manager.requests address).map Entry.gemini))

end Manager

namespace ManagerEvent

variable {Server Address : Type}

/-- The address of a client. -/
def address : ManagerEvent Server Address → Address
  | .accept _ address _ => address
  | .client address _ => address

/-- A client comes. -/
def accepts : ManagerEvent Server Address → Bool
  | .accept _ _ _ => true
  | .client _ _ => false

end ManagerEvent

/-! ### One connection -/

namespace Connection

variable {connection next : Connection} {handlers : Handlers}

/-- The connections at one address, one after the other. -/
def slotStep {Server Address : Type} (handlers : Server → Handlers) :
    Option (Server × Connection) → ManagerEvent Server Address →
      Option (Option (Server × Connection))
  | none, .accept server _ timeoutTime => some (some (server, accept timeoutTime))
  | some (server, connection), .client _ event =>
    (connection.step (handlers server) event).map fun next =>
      if event.closes then none else some (server, next)
  | _, _ => none

/-- An accepted client finds its address free. -/
theorem slotStep_accept {Server Address : Type} {handlers : Server → Handlers}
    (slot : Option (Server × Connection)) (event : ManagerEvent Server Address)
    (next : Option (Server × Connection)) (accepts : event.accepts = true)
    (stepped : slotStep handlers slot event = some next) :
    slotStep handlers none event = some next := by
  cases event with
  | accept server address timeoutTime =>
    cases slot with
    | none => exact stepped
    | some slot => cases stepped
  | client address event => cases accepts

@[simp] theorem clientWrite_gemini (data : Bytes) :
    (connection.clientWrite data).gemini = connection.gemini := by
  unfold clientWrite
  split <;> rfl

theorem send_gemini (gemini : GeminiConnection) (data : Bytes) :
    ((connection.send gemini data).gemini).isSome = true := by
  simp [Connection.send]

theorem dispatch_gemini (gemini : GeminiConnection) (isOpen : connection.gemini.isSome = true) :
    ((connection.dispatch handlers gemini).gemini).isSome = true := by
  unfold dispatch
  cases handlers with
  | none => exact isOpen
  | some handlers =>
    cases found : handlers.findIdx? fun shouldHandle =>
        shouldHandle gemini.request.host gemini.request.path with
    | some index => simpa only [found] using isOpen
    | none => simpa only [found] using send_gemini gemini _

theorem onRead_gemini (gemini : GeminiConnection) (outcome : ReadOutcome)
    (isOpen : connection.gemini.isSome = true) :
    ((connection.onRead handlers gemini outcome).gemini).isSome = true := by
  unfold onRead
  cases outcome.result with
  | error error => cases error <;> exact isOpen
  | ok data =>
    simp only [onHeader]
    split
    · rfl
    · split
      · rfl
      · split
        · rfl
        · exact dispatch_gemini _ rfl

theorem managerOnClose_gemini : connection.managerOnClose.gemini = none := by
  unfold managerOnClose
  cases isGemini : connection.gemini with
  | none => exact isGemini
  | some gemini => rfl

/-- **Only `__on_close` erases the entry.** -/
theorem Managed.gemini (managed : connection.Managed) (isOpen : connection.gemini.isSome = true)
    {event : ConnectionEvent} (stepped : connection.step handlers event = some next) :
    next.gemini.isSome = !event.closes := by
  cases closes : event.closes with
  | true =>
    obtain rfl : event = .closed := by
      cases event <;> first | rfl | cases closes
    obtain ⟨_, same⟩ := Option.ite_none_right_eq_some.mp stepped
    obtain ⟨client, _, rfl⟩ := Option.map_eq_some_iff.mp same
    simp only [managed.onClose, managerOnClose_gemini, Option.isSome_none, Bool.not_true]
  | false =>
    cases managed.stepped stepped with
    | client client phase context silent => exact isOpen
    | send isSome data => exact send_gemini _ data
    | setClientCloseCallback isSome registration => rfl
    | onRead isSome outcome => exact onRead_gemini _ outcome isOpen
    | closed client context => cases closes

end Connection

/-! ### Many connections -/

namespace Manager

variable {Server Address : Type} {manager next : Manager Server Address}

/-- Every client has the entry of its own `on_accept`, there are no other entries, and no null
pointer was dereferenced. -/
structure Owned (manager : Manager Server Address) : Prop where
  intact : manager.crashed = false
  owner : ∀ address, (manager.requests address).map Entry.owner =
    (manager.clients address).map LiveClient.number
  managed : ∀ address live, manager.clients address = some live →
    live.client.context = some .manager
  counted : ∀ address live, manager.clients address = some live → live.number < manager.accepted
  distinct : ∀ address other live rival, manager.clients address = some live →
    manager.clients other = some rival → live.number = rival.number → address = other

theorem Owned.entry (owned : manager.Owned) {address : Address} {live : LiveClient Server}
    (alive : manager.clients address = some live) :
    ∃ gemini, manager.requests address = some ⟨live.number, gemini⟩ := by
  have isOwner := owned.owner address
  rw [alive, Option.map_some, Option.map_eq_some_iff] at isOwner
  obtain ⟨⟨owner, gemini⟩, isEntry, rfl⟩ := isOwner
  exact ⟨gemini, isEntry⟩

theorem Owned.no_entry (owned : manager.Owned) {address : Address}
    (gone : manager.clients address = none) : manager.requests address = none := by
  have isOwner := owned.owner address
  rwa [gone, Option.map_none, Option.map_eq_none_iff] at isOwner

theorem start_owned : Owned ({} : Manager Server Address) :=
  ⟨rfl, fun _ => rfl, fun _ _ => nofun, fun _ _ => nofun, fun _ _ _ _ => nofun⟩

variable [DecidableEq Address] {handlers : Server → Handlers}

/-- A change at one address changes the connection at this address. -/
theorem connectionAt_update (address : Address) (live : Option (LiveClient Server))
    (entry : Option Entry) (accepted : Nat) (crashed : Bool) :
    connectionAt ⟨Function.update manager.clients address live,
        Function.update manager.requests address entry, accepted, crashed⟩ =
      Function.update manager.connectionAt address
        (live.map fun live => (live.server, live.connection (entry.map Entry.gemini))) := by
  funext other
  by_cases same : other = address
  · subst same
    simp only [connectionAt, Function.update_self]
  · simp only [connectionAt, Function.update_of_ne same]

/-- The client at an address after a change at one address. -/
theorem of_update {address other : Address} {live : Option (LiveClient Server)}
    {client : LiveClient Server}
    (isClient : Function.update manager.clients address live other = some client) :
    (other = address ∧ live = some client) ∨ (other ≠ address ∧
      manager.clients other = some client) := by
  by_cases same : other = address
  · subst same
    rw [Function.update_self] at isClient
    exact .inl ⟨rfl, isClient⟩
  · rw [Function.update_of_ne same] at isClient
    exact .inr ⟨same, isClient⟩

/-- A change at one address that keeps the entry with its client and the numbers distinct. -/
theorem Owned.update (owned : manager.Owned) {address : Address}
    {live : Option (LiveClient Server)} {entry : Option Entry}
    (owner : entry.map Entry.owner = live.map LiveClient.number)
    (managed : ∀ client ∈ live, client.client.context = some .manager) {accepted : Nat}
    (grows : manager.accepted ≤ accepted) (counted : ∀ client ∈ live, client.number < accepted)
    (alone : ∀ client ∈ live, ∀ other rival, other ≠ address →
      manager.clients other = some rival → client.number ≠ rival.number) :
    Owned ⟨Function.update manager.clients address live,
      Function.update manager.requests address entry, accepted, manager.crashed⟩ := by
  refine ⟨owned.intact, fun other => ?_, fun other client isClient => ?_,
    fun other client isClient => ?_, fun first second one two isOne isTwo same => ?_⟩
  · by_cases same : other = address
    · subst same
      simpa only [Function.update_self] using owner
    · simpa only [Function.update_of_ne same] using owned.owner other
  · rcases of_update isClient with ⟨_, isNew⟩ | ⟨_, isOld⟩
    · exact managed client isNew
    · exact owned.managed other client isOld
  · rcases of_update isClient with ⟨_, isNew⟩ | ⟨_, isOld⟩
    · exact counted client isNew
    · exact Nat.lt_of_lt_of_le (owned.counted other client isOld) grows
  · rcases of_update isOne with ⟨atFirst, isNew⟩ | ⟨offFirst, isOld⟩
    · rcases of_update isTwo with ⟨atSecond, _⟩ | ⟨offSecond, isRival⟩
      · exact atFirst.trans atSecond.symm
      · exact absurd same (alone one isNew second two offSecond isRival)
    · rcases of_update isTwo with ⟨_, isRival⟩ | ⟨_, isRival⟩
      · exact absurd same.symm (alone two isRival first one offFirst isOld)
      · exact owned.distinct first second one two isOld isRival same

theorem Owned.step_accept (owned : manager.Owned) (server : Server) (address : Address)
    (timeoutTime : Nat) : manager.step handlers (.accept server address timeoutTime) =
      if (manager.clients address).isNone then
        some ⟨Function.update manager.clients address (some ⟨manager.accepted, server,
            (Connection.accept timeoutTime).client, .idle, false, [], [], []⟩),
          Function.update manager.requests address (some ⟨manager.accepted, {}⟩),
          manager.accepted + 1, manager.crashed⟩
      else none := by
  unfold step
  rw [if_neg (by simp [owned.intact])]
  refine if_ctx_congr Iff.rfl (fun free => ?_) fun _ => rfl
  rw [onAccept, insertEntry, owned.no_entry (Option.isNone_iff_eq_none.mp free)]
  rfl

theorem Owned.step_client (owned : manager.Owned) {address : Address} {live : LiveClient Server}
    {gemini : GeminiConnection} (alive : manager.clients address = some live)
    (isEntry : manager.requests address = some ⟨live.number, gemini⟩) (event : ConnectionEvent) :
    manager.step handlers (.client address event) =
      ((live.connection (some gemini)).step (handlers live.server) event).map fun connection =>
        ⟨Function.update manager.clients address
            (if event.closes then none else some (live.after connection)),
          Function.update manager.requests address (connection.gemini.map (Entry.mk live.number)),
          manager.accepted, manager.crashed⟩ := by
  unfold step
  rw [if_neg (by simp [owned.intact])]
  simp only [alive, Option.bind_some, clientStep, isEntry]
  rfl

theorem step_gone {address : Address} (gone : manager.clients address = none)
    (event : ConnectionEvent) : manager.step handlers (.client address event) = none := by
  unfold step
  split
  · rfl
  · simp only [gone, Option.bind_none]

/-- A new connection gets an entry of its own. -/
theorem Owned.accepted (owned : manager.Owned) {server : Server} {address : Address}
    {timeoutTime : Nat}
    (stepped : manager.step handlers (.accept server address timeoutTime) = some next) :
    next.Owned := by
  rw [owned.step_accept] at stepped
  obtain ⟨_, same⟩ := Option.ite_none_right_eq_some.mp stepped
  obtain rfl := Option.some.inj same
  refine owned.update rfl ?_ (Nat.le_succ _) ?_ ?_
  · rintro client isClient
    obtain rfl := Option.some.inj isClient
    rfl
  · rintro client isClient
    obtain rfl := Option.some.inj isClient
    exact Nat.lt_succ_self _
  · rintro client isClient other rival _ isRival same
    obtain rfl := Option.some.inj isClient
    exact absurd same (Nat.ne_of_gt (owned.counted other rival isRival))

/-- A client that stays keeps its entry, and one that closes takes it along. -/
theorem Owned.advanced (owned : manager.Owned) {address : Address} {live : LiveClient Server}
    (alive : manager.clients address = some live) {event : ConnectionEvent}
    (stepped : manager.step handlers (.client address event) = some next) : next.Owned := by
  obtain ⟨gemini, isEntry⟩ := owned.entry alive
  rw [owned.step_client alive isEntry, Option.map_eq_some_iff] at stepped
  obtain ⟨connection, isStep, rfl⟩ := stepped
  have managed : (live.connection (some gemini)).Managed := owned.managed address live alive
  have erased := managed.gemini rfl isStep
  have still : ∀ client, (if event.closes then none else some (live.after connection)) =
      some client → client = live.after connection := by
    intro client isClient
    split at isClient
    · cases isClient
    · exact (Option.some.inj isClient).symm
  refine owned.update ?_ ?_ (Nat.le_refl _) ?_ ?_
  · cases closes : event.closes with
    | true =>
      rw [closes, Bool.not_true, Option.isSome_eq_false_iff, Option.isNone_iff_eq_none] at erased
      rw [erased]
      rfl
    | false =>
      rw [closes, Bool.not_false, Option.isSome_iff_exists] at erased
      obtain ⟨still, isGemini⟩ := erased
      rw [isGemini]
      rfl
  · rintro client isClient
    rw [still client isClient]
    exact managed.step isStep
  · rintro client isClient
    rw [still client isClient]
    exact owned.counted address live alive
  · rintro client isClient other rival off isRival same
    rw [still client isClient] at same
    exact off (owned.distinct address other live rival alive isRival same).symm

/-- **One step keeps every client with its entry.** -/
theorem Owned.step (owned : manager.Owned) {event : ManagerEvent Server Address}
    (stepped : manager.step handlers event = some next) : next.Owned := by
  cases event with
  | accept server address timeoutTime => exact owned.accepted stepped
  | client address event =>
    cases alive : manager.clients address with
    | none =>
      rw [step_gone alive] at stepped
      cases stepped
    | some live => exact owned.advanced alive stepped

/-- **The connections of a `Manager` go their ways.** -/
theorem Owned.connectionAt_step (owned : manager.Owned) (event : ManagerEvent Server Address) :
    Sessions.tableStep ManagerEvent.address (Connection.slotStep handlers) manager.connectionAt
        event =
      (manager.step handlers event).map connectionAt := by
  cases event with
  | accept server address timeoutTime =>
    rw [owned.step_accept]
    cases free : manager.clients address with
    | none =>
      have isFree : manager.connectionAt address = none := congrArg (Option.map _) free
      simp only [Sessions.tableStep, ManagerEvent.address, isFree, Connection.slotStep,
        Option.isNone_none, if_true, Option.map_some, connectionAt_update]
      rfl
    | some live =>
      have isTaken : manager.connectionAt address = some _ := congrArg (Option.map _) free
      simp only [Sessions.tableStep, ManagerEvent.address, isTaken, Connection.slotStep,
        Option.isNone_some, Bool.false_eq_true, if_false, Option.map_none]
  | client address event =>
    cases alive : manager.clients address with
    | none =>
      have isFree : manager.connectionAt address = none := congrArg (Option.map _) alive
      simp only [step_gone alive, Sessions.tableStep, ManagerEvent.address, isFree,
        Connection.slotStep, Option.map_none]
    | some live =>
      obtain ⟨gemini, isEntry⟩ := owned.entry alive
      have isConnection : manager.connectionAt address =
          some (live.server, live.connection (some gemini)) := by
        rw [connectionAt, alive, isEntry]
        rfl
      simp only [owned.step_client alive isEntry, Sessions.tableStep, ManagerEvent.address,
        isConnection, Connection.slotStep, Option.map_map]
      congr 1
      funext connection
      have same : (connection.gemini.map (Entry.mk live.number)).map Entry.gemini =
          connection.gemini := (Option.map_map ..).trans Option.map_id_apply
      simp only [Function.comp_apply, connectionAt_update, same]
      split <;> rfl

theorem run_owned {events : List (ManagerEvent Server Address)}
    (ran : run (step handlers) {} events = some manager) : manager.Owned :=
  run_always Owned (fun _ _ _ owned stepped => owned.step stepped) start_owned ran

/-- The connections after a run of the `Manager`. -/
theorem run_connectionAt (events : List (ManagerEvent Server Address)) :
    run (Sessions.tableStep ManagerEvent.address (Connection.slotStep handlers)) (fun _ => none)
        events =
      (run (step handlers) {} events).map connectionAt :=
  run_view connectionAt Owned (fun _ _ _ owned stepped => owned.step stepped)
    (fun _ event owned => owned.connectionAt_step event) start_owned

/-- **Connections are isolated.** After every run, no null pointer was dereferenced, and every
client finds the entry that its own `on_accept` has made; and its connection is the one it would
have if the events at its address since then were the only ones. -/
theorem run_isolated {events : List (ManagerEvent Server Address)}
    (ran : run (step handlers) {} events = some manager) :
    manager.crashed = false ∧ ∀ address live, manager.clients address = some live →
      (∃ gemini, manager.requests address = some ⟨live.number, gemini⟩) ∧
      (∀ other rival, manager.clients other = some rival → live.number = rival.number →
        address = other) ∧
      ∃ alone, run (step handlers) {}
          (Sessions.own ManagerEvent.address ManagerEvent.accepts address events) = some alone ∧
        alone.connectionAt address = manager.connectionAt address := by
  have owned := run_owned ran
  refine ⟨owned.intact, fun address live alive => ⟨owned.entry alive,
    fun other rival isRival => owned.distinct address other live rival alive isRival, ?_⟩⟩
  have ranTable : run (Sessions.tableStep ManagerEvent.address (Connection.slotStep handlers))
      (fun _ => none) events = some manager.connectionAt := by
    rw [run_connectionAt, ran]
    rfl
  obtain ⟨table, ranAlone, same⟩ := Sessions.isolated Connection.slotStep_accept ranTable address
  rw [run_connectionAt, Option.map_eq_some_iff] at ranAlone
  obtain ⟨alone, isAlone, rfl⟩ := ranAlone
  exact ⟨alone, isAlone, same⟩

/-- Two clients in turn; the first leaves, and a third one gets its address. -/
def reuseEvents : List (ManagerEvent Unit Nat) :=
  [.accept () 7 0, .accept () 8 0, .client 7 (.received (some [1])),
    .client 8 (.received (some [2])), .client 8 (.onRead ⟨.ok (text "gem"), 1, true⟩),
    .client 7 (.onRead ⟨.ok (text "x\n"), 1, true⟩), .client 8 .loopTest, .client 7 .loopTest,
    .client 7 .closed, .accept () 7 0, .client 7 (.received (some [3])),
    .client 7 (.onRead ⟨.ok (text "gemini://h/"), 1, true⟩)]

theorem run_isolated_reuse : ∃ (manager : Manager Unit Nat) (live : LiveClient Unit),
    run (step fun _ => none) {} reuseEvents = some manager ∧ manager.clients 7 = some live ∧
      live.number = 2 ∧ (∃ gemini, manager.requests 7 = some ⟨live.number, gemini⟩) ∧
      (∀ other rival, manager.clients other = some rival → live.number = rival.number →
        7 = other) ∧
      ∃ alone, run (step fun _ => none) {}
          (Sessions.own ManagerEvent.address ManagerEvent.accepts 7 reuseEvents) = some alone ∧
        alone.connectionAt 7 = manager.connectionAt 7 :=
  ⟨_, _, rfl, rfl, rfl, (run_isolated (show run (step fun _ => none) {} reuseEvents = some _
    from rfl)).2 7 _ rfl⟩

end Manager

end GemCaps
