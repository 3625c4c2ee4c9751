/-
**The TCP handles and timers of all clients** (`SSLServer::__on_accept`, `load`, `listen`,
`SSLClient::__on_recv`, `__on_send`, `__on_timeout`, `__on_close`, `~SSLClient`, `on_tcp_close`,
`on_timeout_close`).

libuv knows a connection by its `uv_tcp_t` and a timeout by its `uv_timer_t`. Both come from pools, and
`data` leads from them to the `SSLClient`, whose address may have belonged to another one before.

`Handles.run_handedBack`: a callback finds the client for which its handle was initialised, and the
handles in use are those of the servers, of the clients, and of the closes that libuv still has to
report.
-/

import GemCaps.Connection.Server
import GemCaps.Memory.Footprint
import Mathlib.Logic.Function.Basic

set_option linter.unusedSectionVars false

namespace GemCaps

open Transition

/-- A handle of a client as libuv knows it, with the number of the connection it was initialised for. -/
structure Link (Pointer : Type) where
  handle : Pointer
  number : Nat
  closing : Bool := false
deriving DecidableEq

/-- An `SSLClient` that is alive, with its handles. -/
structure HandleOwner (Pointer Address : Type) where
  address : Address
  number : Nat
  client : Pointer
  timeout : Pointer
deriving DecidableEq

/-- `tcp_allocator` and `timer_allocator`, and who has their items. -/
structure Handles (Server Pointer Address : Type) where
  tcp : Pool Pointer
  timers : Pool Pointer
  /-- `uv_tcp_t::data` of the connections. -/
  tcpData : Pointer → Option Address := fun _ => none
  /-- `uv_timer_t::data`. -/
  timerData : Pointer → Option Address := fun _ => none
  /-- `SSLServer::server` where it is not null. -/
  listening : List (Server × Pointer) := []
  clients : List (HandleOwner Pointer Address) := []
  connections : List (Link Pointer) := []
  timeouts : List (Link Pointer) := []
  /-- The handles that were closed with `on_tcp_close`. -/
  dropped : List Pointer := []
  accepted : Nat := 0
  /-- The callbacks that have used a client: whose handle it was, and which client was found. -/
  found : List (Nat × Nat) := []
  /-- A callback has used a client that was deleted. -/
  dangling : Bool := false
  /-- libuv has stopped the program, because a handle was closed twice. -/
  aborted : Bool := false

/-- What happens to the handles; `iteration` and `chunk` are for `allocate`. -/
inductive HandleEvent (Server Pointer Address : Type) where
  /-- `load`, from the replacement of the handle on, with the result of `uv_tcp_bind`. -/
  | load (server : Server) (iteration : Iteration (Pointer × List Pointer)) (chunk : Pointer)
      (bind : Int)
  | listen (server : Server) (result : Int)
  /-- `__on_accept`, with the result of `uv_accept` and the address of the new client. -/
  | accept (server : Server) (address : Address) (iteration : Iteration (Pointer × List Pointer))
      (chunk : Pointer) (result : Int) (timerIteration : Iteration (Pointer × List Pointer))
      (timerChunk : Pointer)
  /-- A call of `close` or `crash` that comes to `uv_close` or `uv_tcp_close_reset`. -/
  | shut (address : Address)
  /-- `__on_recv`, or `__on_send`. -/
  | streamed (link : Link Pointer)
  | expired (link : Link Pointer)
  | closed (link : Link Pointer)
  | timerClosed (link : Link Pointer)
  | dropped (handle : Pointer)

section Links

variable {Pointer : Type} [DecidableEq Pointer]

/-- The handle and the number, which stay. -/
def Link.key (link : Link Pointer) : Pointer × Nat := (link.handle, link.number)

/-- `uv_close` on a handle. -/
def closeLink (handle : Pointer) (links : List (Link Pointer)) : List (Link Pointer) :=
  links.map fun link => if link.handle = handle then { link with closing := true } else link

/-- The handle is closing, and must not be closed again. -/
def isClosing (handle : Pointer) (links : List (Link Pointer)) : Bool :=
  links.any fun link => link.handle = handle && link.closing

end Links

namespace Handles

section Operations

variable {Server Pointer Address : Type} [DecidableEq Server] [DecidableEq Pointer]
  [DecidableEq Address] (itemAt : Pointer → Nat → Pointer) (allocSize : Nat)
  (tcpStack timerStack : Pointer) (handles : Handles Server Pointer Address)

/-- The program before the first server. -/
def start : Handles Server Pointer Address :=
  { tcp := Pool.create itemAt allocSize tcpStack, timers := Pool.create itemAt allocSize timerStack }

/-- `allocate()` with a chunk that is apart from what is live. -/
def lend (stack : Pointer) (pool : Pool Pointer) (iteration : Iteration (Pointer × List Pointer))
    (chunk : Pointer) : Option (Pointer × Pool Pointer) :=
  if (pool.take iteration).isNone → pool.Fresh itemAt allocSize stack chunk then
    pool.allocate itemAt allocSize iteration chunk
  else none

/-- The client at an address. -/
def find (address : Address) : Option (HandleOwner Pointer Address) :=
  handles.clients.find? (·.address = address)

/-- `uv_close(server, on_tcp_close)`; the server has no handle then. -/
def drop (server : Server) : Handles Server Pointer Address :=
  { handles with
    listening := handles.listening.filter (·.1 ≠ server)
    dropped := handles.dropped ++ (handles.listening.filter (·.1 = server)).map Prod.snd }

/-- `SSLServer::load`, from the replacement of the handle on. -/
def load (server : Server) (handle : Pointer) (tcp : Pool Pointer) (bind : Int) :
    Handles Server Pointer Address :=
  let rest := handles.drop server
  let made := { rest with tcp, listening := (server, handle) :: rest.listening }
  if bind = 0 then made else made.drop server

/-- `SSLServer::__on_accept`, where `uv_accept` succeeds. -/
def accept (address : Address) (conn timeout : Pointer) (tcp timers : Pool Pointer) :
    Handles Server Pointer Address :=
  { handles with
    tcp, timers
    tcpData := Function.update handles.tcpData conn (some address)
    timerData := Function.update handles.timerData timeout (some address)
    clients := ⟨address, handles.accepted, conn, timeout⟩ :: handles.clients
    connections := ⟨conn, handles.accepted, false⟩ :: handles.connections
    timeouts := ⟨timeout, handles.accepted, false⟩ :: handles.timeouts
    accepted := handles.accepted + 1 }

/-- The handle of a client is closed. -/
def shut (owner : HandleOwner Pointer Address) : Handles Server Pointer Address :=
  if isClosing owner.client handles.connections then { handles with aborted := true }
  else { handles with connections := closeLink owner.client handles.connections }

/-- `SSLClient::__on_recv` and `__on_send`, as far as they look for the client. -/
def onStream (link : Link Pointer) : Handles Server Pointer Address :=
  match handles.tcpData link.handle with
  | none => handles
  | some address =>
    match handles.find address with
    | none => { handles with dangling := true }
    | some owner => { handles with found := handles.found ++ [(link.number, owner.number)] }

/-- `SSLClient::__on_timeout`; `crash` comes at its end. -/
def onTimeout (link : Link Pointer) : Handles Server Pointer Address :=
  match handles.timerData link.handle with
  | none => { handles with timers := handles.timers.deallocate allocSize link.handle }
  | some address =>
    match handles.find address with
    | none => { handles with dangling := true }
    | some owner =>
      { handles with found := handles.found ++ [(link.number, owner.number)] }.shut owner

/-- `SSLClient::__on_close`, with `_on_client_close` and `~SSLClient`. -/
def onClose (link : Link Pointer) : Handles Server Pointer Address :=
  let rest := { handles with connections := handles.connections.erase link }
  match handles.tcpData link.handle with
  | none => { rest with tcp := handles.tcp.deallocate allocSize link.handle }
  | some address =>
    match handles.find address with
    | none => { rest with dangling := true }
    | some owner =>
      { rest with
        tcp := handles.tcp.deallocate allocSize link.handle
        tcpData := Function.update handles.tcpData link.handle none
        clients := handles.clients.erase owner
        timeouts := closeLink owner.timeout handles.timeouts
        found := handles.found ++ [(link.number, owner.number)]
        aborted := isClosing owner.timeout handles.timeouts }

/-- `on_timeout_close`. -/
def onTimeoutClose (link : Link Pointer) : Handles Server Pointer Address :=
  { handles with
    timers := handles.timers.deallocate allocSize link.handle
    timeouts := handles.timeouts.erase link }

/-- `on_tcp_close`. -/
def onTcpClose (handle : Pointer) : Handles Server Pointer Address :=
  { handles with
    tcp := handles.tcp.deallocate allocSize handle
    dropped := handles.dropped.erase handle }

/-- One event; `none` where it cannot come. -/
def step (event : HandleEvent Server Pointer Address) : Option (Handles Server Pointer Address) :=
  if handles.dangling || handles.aborted then none
  else match event with
    | .load server iteration chunk bind =>
      (lend itemAt allocSize tcpStack handles.tcp iteration chunk).map fun (handle, tcp) =>
        handles.load server handle tcp bind
    | .listen server result =>
      if server ∈ handles.listening.map Prod.fst then
        some (if result = 0 then handles else handles.drop server)
      else none
    | .accept server address iteration chunk result timerIteration timerChunk =>
      if server ∈ handles.listening.map Prod.fst ∧ handles.find address = none then
        (lend itemAt allocSize tcpStack handles.tcp iteration chunk).bind fun (conn, tcp) =>
          if result ≠ 0 then some { handles with tcp, dropped := handles.dropped ++ [conn] }
          else
            (lend itemAt allocSize timerStack handles.timers timerIteration timerChunk).map
              fun (timeout, timers) => handles.accept address conn timeout tcp timers
      else none
    | .shut address => (handles.find address).map handles.shut
    | .streamed link => if link ∈ handles.connections then some (handles.onStream link) else none
    | .expired link =>
      if link ∈ handles.timeouts ∧ link.closing = false then some (handles.onTimeout allocSize link)
      else none
    | .closed link =>
      if link ∈ handles.connections ∧ link.closing = true then some (handles.onClose allocSize link)
      else none
    | .timerClosed link =>
      if link ∈ handles.timeouts ∧ link.closing = true then
        some (handles.onTimeoutClose allocSize link)
      else none
    | .dropped handle =>
      if handle ∈ handles.dropped then some (handles.onTcpClose allocSize handle) else none

end Operations

end Handles

/-! ### Lists of handles -/

section Links

variable {Pointer Address : Type} [DecidableEq Pointer] {links : List (Link Pointer)}
  {link : Link Pointer} {handle : Pointer}

/-- A close changes nothing but the mark. -/
theorem map_closeLink {Field : Type} (field : Link Pointer → Field)
    (blind : ∀ link : Link Pointer, field { link with closing := true } = field link)
    (links : List (Link Pointer)) : (closeLink handle links).map field = links.map field := by
  unfold closeLink
  rw [List.map_map]
  refine List.map_congr_left fun link _ => ?_
  show field (if _ then _ else _) = _
  split
  · exact blind link
  · rfl

theorem keys_closeLink (links : List (Link Pointer)) :
    (closeLink handle links).map Link.key = links.map Link.key :=
  map_closeLink Link.key (fun _ => rfl) links

theorem handles_closeLink (links : List (Link Pointer)) :
    (closeLink handle links).map Link.handle = links.map Link.handle :=
  map_closeLink Link.handle (fun _ => rfl) links

/-- The handles without one of them. -/
theorem handle_ne_of_mem_erase (distinct : (links.map Link.handle).Nodup) (inside : link ∈ links)
    {other : Link Pointer} (remains : other ∈ links.erase link) : other.handle ≠ link.handle := by
  have split := (List.perm_cons_erase inside).map Link.handle
  have isGone := (List.nodup_cons.mp (split.nodup_iff.mp distinct)).1
  exact fun same => isGone (same ▸ List.mem_map_of_mem remains)

/-- **A close marks one handle.** -/
theorem perm_closeLink (distinct : (links.map Link.handle).Nodup) (inside : link ∈ links) :
    (closeLink link.handle links).Perm ({ link with closing := true } :: links.erase link) := by
  refine ((List.perm_cons_erase inside).map _).trans ?_
  rw [List.map_cons, if_pos rfl]
  refine List.Perm.cons _ (List.Perm.of_eq ?_)
  refine (List.map_congr_left fun other remains => ?_).trans (List.map_id _)
  exact if_neg (handle_ne_of_mem_erase distinct inside remains)

/-- The handles that are open when one of them is closed. -/
theorem perm_open_closeLink (distinct : (links.map Link.handle).Nodup) (inside : link ∈ links)
    (isOpen : link.closing = false) :
    (links.filter fun link => !link.closing).Perm
      (link :: (closeLink link.handle links).filter fun link => !link.closing) := by
  have before := (List.perm_cons_erase inside).filter fun link => !link.closing
  have after := (perm_closeLink distinct inside).filter fun link => !link.closing
  rw [List.filter_cons_of_pos (by simp [isOpen])] at before
  rw [List.filter_cons_of_neg (by simp)] at after
  exact before.trans (after.symm.cons link)

/-- The open handles stay when a closed one goes. -/
theorem perm_open_erase (inside : link ∈ links) (isClosed : link.closing = true) :
    (links.filter fun link => !link.closing).Perm
      ((links.erase link).filter fun link => !link.closing) := by
  have split := (List.perm_cons_erase inside).filter fun link => !link.closing
  rwa [List.filter_cons_of_neg (by simp [isClosed])] at split

end Links

/-! ### The invariant -/

namespace Handles

section Invariant

variable {Server Pointer Address : Type} [DecidableEq Server] [DecidableEq Pointer]
  [DecidableEq Address] (itemAt : Pointer → Nat → Pointer) (allocSize : Nat)
  (tcpStack timerStack : Pointer)

/-- Who has the TCP handles: the servers, the connections, and the closes to come. -/
def held (handles : Handles Server Pointer Address) : List Pointer :=
  handles.listening.map Prod.snd ++ (handles.connections.map Link.handle ++ handles.dropped)

/-- The invariant. -/
structure Kept (handles : Handles Server Pointer Address) : Prop where
  tcp : handles.tcp.Sound itemAt allocSize tcpStack
  timers : handles.timers.Sound itemAt allocSize timerStack
  intact : handles.dangling = false
  held : handles.held.Perm handles.tcp.inUse
  timed : (handles.timeouts.map Link.handle).Perm handles.timers.inUse
  addresses : (handles.clients.map HandleOwner.address).Nodup
  linked : (handles.connections.map Link.key).Perm
    (handles.clients.map fun owner => (owner.client, owner.number))
  guarded : ((handles.timeouts.filter fun link => !link.closing).map Link.key).Perm
    (handles.clients.map fun owner => (owner.timeout, owner.number))
  data : ∀ owner ∈ handles.clients, handles.tcpData owner.client = some owner.address ∧
    handles.timerData owner.timeout = some owner.address
  found : ∀ pair ∈ handles.found, pair.1 = pair.2

variable {itemAt allocSize tcpStack timerStack} {handles : Handles Server Pointer Address}
  {server : Server} {address : Address} {owner : HandleOwner Pointer Address} {link : Link Pointer}
  {handle : Pointer} {tcp : Pool Pointer}

namespace Kept

theorem start (tcpDistinct : (block itemAt allocSize tcpStack).Nodup)
    (timerDistinct : (block itemAt allocSize timerStack).Nodup) :
    (start itemAt allocSize tcpStack timerStack : Handles Server Pointer Address).Kept itemAt
      allocSize tcpStack timerStack where
  tcp := Pool.sound_create tcpDistinct
  timers := Pool.sound_create timerDistinct
  intact := rfl
  held := List.Perm.refl []
  timed := List.Perm.refl []
  addresses := List.nodup_nil
  linked := List.Perm.refl []
  guarded := List.Perm.refl []
  data := fun _ inside => absurd inside List.not_mem_nil
  found := fun _ inside => absurd inside List.not_mem_nil

/-- The client at the address of a client. -/
theorem find_address (kept : handles.Kept itemAt allocSize tcpStack timerStack)
    (inside : owner ∈ handles.clients) : handles.find owner.address = some owner := by
  have isSome : (handles.find owner.address).isSome = true :=
    List.find?_isSome.mpr ⟨owner, inside, decide_eq_true rfl⟩
  obtain ⟨other, isFound⟩ := Option.isSome_iff_exists.mp isSome
  have same : other.address = owner.address := by simpa using List.find?_some isFound
  rw [isFound, List.inj_on_of_nodup_map kept.addresses (List.mem_of_find?_eq_some isFound) inside same]

/-- The handles of the connections are apart. -/
theorem nodup_connections (kept : handles.Kept itemAt allocSize tcpStack timerStack) :
    (handles.connections.map Link.handle).Nodup := by
  have distinct := kept.held.nodup_iff.mpr kept.tcp.nodup_inUse
  exact (List.nodup_append'.mp (List.nodup_append'.mp distinct).2.1).1

theorem nodup_timeouts (kept : handles.Kept itemAt allocSize tcpStack timerStack) :
    (handles.timeouts.map Link.handle).Nodup :=
  kept.timed.nodup_iff.mpr kept.timers.nodup_inUse

/-- **A connection leads to its own client.** -/
theorem owner_of_connection (kept : handles.Kept itemAt allocSize tcpStack timerStack)
    (inside : link ∈ handles.connections) : ∃ owner ∈ handles.clients,
      handles.tcpData link.handle = some owner.address ∧ handles.find owner.address = some owner ∧
        owner.client = link.handle ∧ owner.number = link.number := by
  obtain ⟨owner, isOwner, same⟩ :=
    List.mem_map.mp (kept.linked.mem_iff.mp (List.mem_map_of_mem inside))
  obtain ⟨isHandle, isNumber⟩ := Prod.mk.inj same
  exact ⟨owner, isOwner, isHandle ▸ (kept.data owner isOwner).1, kept.find_address isOwner, isHandle,
    isNumber⟩

/-- **A timeout that is not closed leads to its own client.** -/
theorem owner_of_timeout (kept : handles.Kept itemAt allocSize tcpStack timerStack)
    (inside : link ∈ handles.timeouts) (isOpen : link.closing = false) : ∃ owner ∈ handles.clients,
      handles.timerData link.handle = some owner.address ∧ handles.find owner.address = some owner ∧
        owner.number = link.number := by
  have isGuarded : link ∈ handles.timeouts.filter fun link => !link.closing :=
    List.mem_filter.mpr ⟨inside, by simp [isOpen]⟩
  obtain ⟨owner, isOwner, same⟩ :=
    List.mem_map.mp (kept.guarded.mem_iff.mp (List.mem_map_of_mem isGuarded))
  obtain ⟨isHandle, isNumber⟩ := Prod.mk.inj same
  exact ⟨owner, isOwner, isHandle ▸ (kept.data owner isOwner).2, kept.find_address isOwner, isNumber⟩

/-- The handles of a client are in use. -/
theorem inUse_of_client (kept : handles.Kept itemAt allocSize tcpStack timerStack)
    (inside : owner ∈ handles.clients) :
    owner.client ∈ handles.tcp.inUse ∧ owner.timeout ∈ handles.timers.inUse := by
  constructor
  · obtain ⟨link, isLink, same⟩ := List.mem_map.mp (kept.linked.mem_iff.mpr
      (List.mem_map.mpr ⟨owner, inside, rfl⟩))
    obtain ⟨isHandle, _⟩ := Prod.mk.inj same
    refine kept.held.mem_iff.mp (List.mem_append_right _ (List.mem_append_left _ ?_))
    exact isHandle ▸ List.mem_map_of_mem isLink
  · obtain ⟨link, isLink, same⟩ := List.mem_map.mp (kept.guarded.mem_iff.mpr
      (List.mem_map.mpr ⟨owner, inside, rfl⟩))
    obtain ⟨isHandle, _⟩ := Prod.mk.inj same
    exact kept.timed.mem_iff.mp (isHandle ▸ List.mem_map_of_mem (List.mem_filter.mp isLink).1)

/-- A callback has found a client. -/
theorem note (kept : handles.Kept itemAt allocSize tcpStack timerStack) {first second : Nat}
    (same : second = first) :
    ({ handles with found := handles.found ++ [(first, second)] } :
      Handles Server Pointer Address).Kept itemAt allocSize tcpStack timerStack := by
  refine { kept with found := fun pair inside => ?_ }
  rcases List.mem_append.mp inside with old | last
  · exact kept.found pair old
  · obtain rfl := List.mem_singleton.mp last
    exact same.symm

/-! ### The steps -/

/-- A server's handle goes from the server to the closes to come. -/
theorem drop (kept : handles.Kept itemAt allocSize tcpStack timerStack) (server : Server) :
    (handles.drop server).Kept itemAt allocSize tcpStack timerStack := by
  refine { kept with held := ?_ }
  have parts := (List.filter_append_perm (fun entry => entry.1 = server) handles.listening).map
    Prod.snd
  refine List.Perm.trans (List.perm_iff_count.mpr fun handle => ?_) kept.held
  have counts := parts.count_eq handle
  simp only [Handles.held, Handles.drop, List.map_append, List.count_append, decide_not] at counts ⊢
  omega

/-- A handle of the pool becomes the handle of a server. -/
theorem load (kept : handles.Kept itemAt allocSize tcpStack timerStack)
    (sound : tcp.Sound itemAt allocSize tcpStack)
    (uses : tcp.inUse.Perm (handle :: handles.tcp.inUse)) (server : Server) (bind : Int) :
    (handles.load server handle tcp bind).Kept itemAt allocSize tcpStack timerStack := by
  have free := kept.drop server
  have made : ({ handles.drop server with
      tcp, listening := (server, handle) :: (handles.drop server).listening } :
        Handles Server Pointer Address).Kept itemAt allocSize tcpStack timerStack :=
    { free with tcp := sound, held := (free.held.cons handle).trans uses.symm }
  unfold Handles.load
  split
  · exact made
  · exact made.drop server

/-- A connection that is not accepted is closed at once. -/
theorem refuse (kept : handles.Kept itemAt allocSize tcpStack timerStack)
    (sound : tcp.Sound itemAt allocSize tcpStack)
    (uses : tcp.inUse.Perm (handle :: handles.tcp.inUse)) :
    ({ handles with tcp, dropped := handles.dropped ++ [handle] } :
      Handles Server Pointer Address).Kept itemAt allocSize tcpStack timerStack := by
  refine { kept with tcp := sound, held := List.Perm.trans ?_ uses.symm }
  refine List.Perm.trans (List.perm_iff_count.mpr fun other => ?_) (kept.held.cons handle)
  simp only [Handles.held, List.count_append, List.count_cons, List.count_nil]
  omega

/-- **A client comes, with a TCP handle and a timer that nobody has.** -/
theorem accept (kept : handles.Kept itemAt allocSize tcpStack timerStack)
    (isFree : handles.find address = none) {timers : Pool Pointer} {timeout : Pointer}
    (sound : tcp.Sound itemAt allocSize tcpStack)
    (uses : tcp.inUse.Perm (handle :: handles.tcp.inUse)) (unused : handle ∉ handles.tcp.inUse)
    (timersSound : timers.Sound itemAt allocSize timerStack)
    (timersUses : timers.inUse.Perm (timeout :: handles.timers.inUse))
    (timerUnused : timeout ∉ handles.timers.inUse) :
    (handles.accept address handle timeout tcp timers).Kept itemAt allocSize tcpStack timerStack where
  tcp := sound
  timers := timersSound
  intact := kept.intact
  held := by
    refine List.Perm.trans ?_ ((kept.held.cons handle).trans uses.symm)
    exact List.perm_middle
  timed := (kept.timed.cons timeout).trans timersUses.symm
  addresses := by
    refine List.nodup_cons.mpr ⟨fun inside => ?_, kept.addresses⟩
    obtain ⟨owner, isOwner, same⟩ := List.mem_map.mp inside
    exact List.find?_eq_none.mp isFree owner isOwner (decide_eq_true same)
  linked := kept.linked.cons _
  guarded := kept.guarded.cons _
  data := by
    intro owner inside
    rcases List.mem_cons.mp inside with rfl | isOld
    · exact ⟨Function.update_self .., Function.update_self ..⟩
    · obtain ⟨isClient, isTimer⟩ := kept.data owner isOld
      obtain ⟨clientUsed, timerUsed⟩ := kept.inUse_of_client isOld
      have clientOther : owner.client ≠ handle := fun same => unused (same ▸ clientUsed)
      have timerOther : owner.timeout ≠ timeout := fun same => timerUnused (same ▸ timerUsed)
      exact ⟨(Function.update_of_ne clientOther _ _).trans isClient,
        (Function.update_of_ne timerOther _ _).trans isTimer⟩
  found := kept.found

theorem shut (kept : handles.Kept itemAt allocSize tcpStack timerStack)
    (owner : HandleOwner Pointer Address) :
    (handles.shut owner).Kept itemAt allocSize tcpStack timerStack := by
  unfold Handles.shut
  split
  · exact { kept with }
  · refine { kept with held := ?_, linked := ?_ }
    · show (_ ++ ((closeLink _ _).map _ ++ _)).Perm _
      rw [handles_closeLink]
      exact kept.held
    · show ((closeLink _ _).map _).Perm _
      rw [keys_closeLink]
      exact kept.linked

theorem onStream (kept : handles.Kept itemAt allocSize tcpStack timerStack)
    (inside : link ∈ handles.connections) :
    (handles.onStream link).Kept itemAt allocSize tcpStack timerStack := by
  obtain ⟨owner, _, isData, isFound, _, isNumber⟩ := kept.owner_of_connection inside
  unfold Handles.onStream
  simp only [isData, isFound]
  exact kept.note isNumber

theorem onTimeout (kept : handles.Kept itemAt allocSize tcpStack timerStack)
    (inside : link ∈ handles.timeouts) (isOpen : link.closing = false) :
    (handles.onTimeout allocSize link).Kept itemAt allocSize tcpStack timerStack := by
  obtain ⟨owner, _, isData, isFound, isNumber⟩ := kept.owner_of_timeout inside isOpen
  unfold Handles.onTimeout
  simp only [isData, isFound]
  exact (kept.note isNumber).shut owner

/-- **A client goes**: its TCP handle is given back, and the close of its timer is to come. -/
theorem onClose (kept : handles.Kept itemAt allocSize tcpStack timerStack)
    (inside : link ∈ handles.connections) :
    (handles.onClose allocSize link).Kept itemAt allocSize tcpStack timerStack := by
  obtain ⟨owner, isOwner, isData, isFound, isHandle, isNumber⟩ := kept.owner_of_connection inside
  have connections := List.perm_cons_erase inside
  have clients := List.perm_cons_erase isOwner
  -- The connection and its client go together.
  have linked : ((handles.connections.erase link).map Link.key).Perm
      ((handles.clients.erase owner).map fun owner => (owner.client, owner.number)) := by
    have pairs := ((connections.map Link.key).symm.trans kept.linked).trans
      (clients.map fun owner => (owner.client, owner.number))
    rw [List.map_cons, List.map_cons, isHandle, isNumber] at pairs
    exact pairs.cons_inv
  have isUsed : link.handle ∈ handles.tcp.inUse := isHandle ▸ (kept.inUse_of_client isOwner).1
  have held : (handles.listening.map Prod.snd ++
      ((handles.connections.erase link).map Link.handle ++ handles.dropped)).Perm
        (handles.tcp.deallocate allocSize link.handle).inUse := by
    refine List.Perm.cons_inv (List.Perm.trans ?_ (kept.tcp.perm_inUse_deallocate isUsed))
    refine List.Perm.trans ?_ kept.held
    refine List.perm_middle.symm.trans (List.Perm.append_left _ ?_)
    exact ((connections.map Link.handle).append_right handles.dropped).symm
  -- Its timer is open until now.
  obtain ⟨timer, isTimer, same⟩ := List.mem_map.mp (kept.guarded.mem_iff.mpr
    (List.mem_map.mpr ⟨owner, isOwner, rfl⟩))
  obtain ⟨isTimeout, isTimerNumber⟩ := Prod.mk.inj same
  obtain ⟨timerInside, timerOpen⟩ := List.mem_filter.mp isTimer
  have guarded : (((closeLink owner.timeout handles.timeouts).filter
      fun link => !link.closing).map Link.key).Perm
        ((handles.clients.erase owner).map fun owner => (owner.timeout, owner.number)) := by
    have open' := perm_open_closeLink kept.nodup_timeouts timerInside (by simpa using timerOpen)
    have pairs := ((open'.map Link.key).symm.trans kept.guarded).trans
      (clients.map fun owner => (owner.timeout, owner.number))
    rw [List.map_cons, List.map_cons, isTimeout, same] at pairs
    exact pairs.cons_inv
  have data : ∀ other ∈ handles.clients.erase owner,
      Function.update handles.tcpData link.handle none other.client = some other.address ∧
        handles.timerData other.timeout = some other.address := by
    intro other remains
    obtain ⟨isClient, isTimer⟩ := kept.data other (List.mem_of_mem_erase remains)
    have apart : other.client ≠ link.handle := by
      obtain ⟨otherLink, isLink, otherSame⟩ := List.mem_map.mp (linked.mem_iff.mpr
        (List.mem_map.mpr ⟨other, remains, rfl⟩))
      have otherHandle : otherLink.handle = other.client := congrArg Prod.fst otherSame
      exact otherHandle ▸ handle_ne_of_mem_erase kept.nodup_connections inside isLink
    exact ⟨(Function.update_of_ne apart _ _).trans isClient, isTimer⟩
  have noted := (kept.note isNumber).found
  unfold Handles.onClose
  simp only [isData, isFound]
  refine ⟨(kept.tcp.deallocate link.handle).sound, kept.timers, kept.intact, held, ?_,
    kept.addresses.sublist (List.erase_sublist.map _), linked, guarded, data, noted⟩
  show ((closeLink _ _).map _).Perm _
  rw [handles_closeLink]
  exact kept.timed

/-- The timer of a client that is gone is given back. -/
theorem onTimeoutClose (kept : handles.Kept itemAt allocSize tcpStack timerStack)
    (inside : link ∈ handles.timeouts) (isClosed : link.closing = true) :
    (handles.onTimeoutClose allocSize link).Kept itemAt allocSize tcpStack timerStack := by
  have split := (List.perm_cons_erase inside).map Link.handle
  have isUsed : link.handle ∈ handles.timers.inUse :=
    kept.timed.mem_iff.mp (List.mem_map_of_mem inside)
  have timed : ((handles.timeouts.erase link).map Link.handle).Perm
      (handles.timers.deallocate allocSize link.handle).inUse :=
    List.Perm.cons_inv ((split.symm.trans kept.timed).trans (kept.timers.perm_inUse_deallocate isUsed))
  exact { kept with
    timers := (kept.timers.deallocate link.handle).sound
    timed := timed
    guarded := ((perm_open_erase inside isClosed).map Link.key).symm.trans kept.guarded }

theorem onTcpClose (kept : handles.Kept itemAt allocSize tcpStack timerStack)
    (inside : handle ∈ handles.dropped) :
    (handles.onTcpClose allocSize handle).Kept itemAt allocSize tcpStack timerStack := by
  have isUsed : handle ∈ handles.tcp.inUse :=
    kept.held.mem_iff.mp (List.mem_append_right _ (List.mem_append_right _ inside))
  have moved : (handle :: ({ handles with dropped := handles.dropped.erase handle } :
      Handles Server Pointer Address).held).Perm handles.held := by
    have split := List.perm_cons_erase inside
    refine List.perm_iff_count.mpr fun other => ?_
    have counts := split.count_eq other
    simp only [Handles.held, List.count_append, List.count_cons] at counts ⊢
    omega
  exact { kept with
    tcp := (kept.tcp.deallocate handle).sound
    held := List.Perm.cons_inv ((moved.trans kept.held).trans
      (kept.tcp.perm_inUse_deallocate isUsed)) }

/-- What `lend` gives. -/
theorem of_lend {pool next : Pool Pointer} {stack item chunk : Pointer}
    {iteration : Iteration (Pointer × List Pointer)} (positive : 0 < allocSize)
    (sound : pool.Sound itemAt allocSize stack)
    (lent : lend itemAt allocSize stack pool iteration chunk = some (item, next)) :
    next.Sound itemAt allocSize stack ∧ next.inUse.Perm (item :: pool.inUse) ∧
      item ∉ pool.inUse := by
  obtain ⟨fresh, allocated⟩ := Option.ite_none_right_eq_some.mp lent
  have hands := sound.allocate positive fresh allocated
  exact ⟨hands.sound, sound.perm_inUse_allocate positive fresh allocated, hands.unused⟩

theorem step (positive : 0 < allocSize) (handles : Handles Server Pointer Address)
    (event : HandleEvent Server Pointer Address) (next : Handles Server Pointer Address)
    (kept : handles.Kept itemAt allocSize tcpStack timerStack)
    (stepped : handles.step itemAt allocSize tcpStack timerStack event = some next) :
    next.Kept itemAt allocSize tcpStack timerStack := by
  unfold Handles.step at stepped
  split at stepped
  · cases stepped
  cases event with
  | load server iteration chunk bind =>
    obtain ⟨⟨handle, tcp⟩, lent, rfl⟩ := Option.map_eq_some_iff.mp stepped
    obtain ⟨sound, uses, _⟩ := of_lend positive kept.tcp lent
    exact kept.load sound uses server bind
  | listen server result =>
    obtain ⟨_, same⟩ := Option.ite_none_right_eq_some.mp stepped
    obtain rfl := Option.some.inj same
    split
    · exact kept
    · exact kept.drop server
  | accept server address iteration chunk result timerIteration timerChunk =>
    obtain ⟨⟨_, isFree⟩, stepped⟩ := Option.ite_none_right_eq_some.mp stepped
    obtain ⟨⟨conn, tcp⟩, lent, stepped⟩ := Option.bind_eq_some_iff.mp stepped
    obtain ⟨sound, uses, unused⟩ := of_lend positive kept.tcp lent
    dsimp only at stepped
    split at stepped
    · exact Option.some.inj stepped ▸ kept.refuse sound uses
    · obtain ⟨⟨timeout, timers⟩, timerLent, rfl⟩ := Option.map_eq_some_iff.mp stepped
      obtain ⟨timersSound, timersUses, timerUnused⟩ := of_lend positive kept.timers timerLent
      exact kept.accept isFree sound uses unused timersSound timersUses timerUnused
  | shut address =>
    obtain ⟨owner, _, rfl⟩ := Option.map_eq_some_iff.mp stepped
    exact kept.shut owner
  | streamed link =>
    obtain ⟨inside, same⟩ := Option.ite_none_right_eq_some.mp stepped
    exact Option.some.inj same ▸ kept.onStream inside
  | expired link =>
    obtain ⟨⟨inside, isOpen⟩, same⟩ := Option.ite_none_right_eq_some.mp stepped
    exact Option.some.inj same ▸ kept.onTimeout inside isOpen
  | closed link =>
    obtain ⟨⟨inside, _⟩, same⟩ := Option.ite_none_right_eq_some.mp stepped
    exact Option.some.inj same ▸ kept.onClose inside
  | timerClosed link =>
    obtain ⟨⟨inside, isClosed⟩, same⟩ := Option.ite_none_right_eq_some.mp stepped
    exact Option.some.inj same ▸ kept.onTimeoutClose inside isClosed
  | dropped handle =>
    obtain ⟨inside, same⟩ := Option.ite_none_right_eq_some.mp stepped
    exact Option.some.inj same ▸ kept.onTcpClose inside

end Kept

/-! ### Whole runs -/

/-- **Who has the handles.** No callback uses a client that is gone, and each finds the client for
which its handle was initialised. The TCP handles in use are those of the servers, of the clients and
of the closes to come, and the timers are those of the clients and of the closes to come. -/
theorem run_handedBack (positive : 0 < allocSize)
    (tcpDistinct : (block itemAt allocSize tcpStack).Nodup)
    (timerDistinct : (block itemAt allocSize timerStack).Nodup)
    {events : List (HandleEvent Server Pointer Address)} {final : Handles Server Pointer Address}
    (ran : run (Handles.step itemAt allocSize tcpStack timerStack)
      (Handles.start itemAt allocSize tcpStack timerStack) events = some final) :
    final.dangling = false ∧ (∀ pair ∈ final.found, pair.1 = pair.2) ∧
    (final.tcp.inUse.Nodup ∧ final.tcp.inUse.Perm (final.listening.map Prod.snd ++
      (final.clients.map HandleOwner.client ++ final.dropped))) ∧
    final.timers.inUse.Nodup ∧ final.timers.inUse.Perm (final.clients.map HandleOwner.timeout ++
      (final.timeouts.filter Link.closing).map Link.handle) := by
  have kept : final.Kept itemAt allocSize tcpStack timerStack :=
    run_always (Kept itemAt allocSize tcpStack timerStack) (Kept.step positive)
      (Kept.start tcpDistinct timerDistinct) ran
  refine ⟨kept.intact, kept.found, ⟨kept.tcp.nodup_inUse, ?_⟩, kept.timers.nodup_inUse, ?_⟩
  · have linked := kept.linked.map Prod.fst
    rw [List.map_map, List.map_map] at linked
    refine kept.held.symm.trans (List.Perm.append_left _ ?_)
    exact linked.append_right _
  · have guarded := kept.guarded.map Prod.fst
    rw [List.map_map, List.map_map] at guarded
    have parts := (List.filter_append_perm Link.closing final.timeouts).map Link.handle
    rw [List.map_append] at parts
    refine (kept.timed.symm.trans (parts.symm.trans List.perm_append_comm)).trans ?_
    exact guarded.append_right _

end Invariant

/-- A client goes while its timer is still to be closed, and another one gets its address and its TCP
handle. -/
def sameHandle : List (HandleEvent Nat Nat Nat) :=
  [.load 0 Pool.inOrder 100 0, .listen 0 0, .accept 0 7 Pool.inOrder 110 0 Pool.inOrder 110, .shut 7,
    .streamed ⟨0, 0, true⟩, .closed ⟨0, 0, true⟩, .accept 0 7 Pool.inOrder 120 0 Pool.inOrder 120,
    .timerClosed ⟨51, 0, true⟩, .expired ⟨50, 1, false⟩]

theorem run_handedBack_sameHandle : ∃ final,
    run (step (· + ·) 2 0 50) (start (· + ·) 2 0 50) sameHandle = some final ∧
      final.found = [(0, 0), (0, 0), (1, 1)] ∧
      final.tcp.inUse.Perm (final.listening.map Prod.snd ++
        (final.clients.map HandleOwner.client ++ final.dropped)) := by
  obtain ⟨final, ran, found⟩ : ∃ final,
      run (step (· + ·) 2 0 50) (start (· + ·) 2 0 50) sameHandle = some final ∧
        final.found = [(0, 0), (0, 0), (1, 1)] := ⟨_, rfl, rfl⟩
  exact ⟨final, ran, found, (run_handedBack (by decide) (by decide) (by decide) ran).2.2.1.2⟩

end Handles

end GemCaps
