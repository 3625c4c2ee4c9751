/-
**The writes of an `SSLClient`, down to the addresses** (`server.cpp`).

`SSLClient` numbers its writes. Here they are kept as the source keeps them: `write_requests` is a map
from the address of a `uv_write_t`, which the pool hands out again once it came back, and
`queued_writes` is a `size_t`. The calls on the two pools are recorded as they are made. The timer and
the receive buffer are left to `SSLClient`.

`run_writes`: after any run `queued_writes` is the number of entries of `write_requests` and was never
decremented at 0, and at the end of the destructor all that `_send` had taken from the pools is
returned, once each.
-/

import GemCaps.Connection.Client
import GemCaps.Library.Lending
import GemCaps.Memory.ReusableAllocator
import Mathlib.Data.Fintype.Card

namespace GemCaps

open Transition Lending

/-- A pointer; 0 is null. -/
abbrev Address := UInt64

/-- `uv_buf_t`, with what is in the buffer; `len` is the length of it. -/
structure UvBuf where
  base : Address
  bytes : Bytes
deriving DecidableEq

/-- What `SSLClient` and libuv keep of the writes. -/
structure WritingClient where
  /-- The pointer `client` is not null. -/
  client : Bool := true
  /-- `data` of the handle is the client; `__on_close` sets it to null. -/
  attached : Bool := true
  queuedWrites : UInt64 := 0
  queuedClose : Bool := false
  closing : Bool := false
  context : Option ClientContext
  writeRequests : List (Address × List UvBuf) := []
  /-- The writes for which libuv still owes `__on_send`. -/
  owed : List Address := []
  /-- The requests of the `__on_send` whose `on_write` has not returned, innermost first. -/
  running : List Address := []
  /-- The destructor has run. -/
  destroyed : Bool := false
  /-- What `queued_writes` was whenever it was decremented. -/
  decremented : List UInt64 := []
  bufferCalls : List (Call Address) := []
  requestCalls : List (Call Address) := []
deriving DecidableEq

namespace WritingClient

variable (client : WritingClient)

/-- `write_requests.insert_or_assign(req, buffers)`. -/
def insertOrAssign (entries : List (Address × List UvBuf)) (request : Address)
    (buffers : List UvBuf) : List (Address × List UvBuf) :=
  if request ∈ entries.map Prod.fst then
    entries.map fun entry => if entry.1 = request then (request, buffers) else entry
  else entries ++ [(request, buffers)]

/-- `write_req_allocator.deallocate(req)`. -/
def deallocate (request : Address) : WritingClient :=
  { client with requestCalls := client.requestCalls ++ [.giveBack request] }

/-- `close()`. -/
def close : WritingClient :=
  if 0 < client.queuedWrites ∧ client.queuedClose = false then { client with queuedClose := true }
  else { client with closing := true, queuedClose := false }

/-- `crash()`. -/
def crash : WritingClient := { client with closing := true, queuedClose := false }

/-- The first part of `__on_send`: the buffers go back, and the entry goes. -/
def forget (request : Address) : WritingClient :=
  match client.writeRequests.find? fun entry => entry.1 = request with
  | none => client
  | some found =>
    { client with
      bufferCalls := client.bufferCalls ++ (found.2.map UvBuf.base).map .giveBack
      writeRequests := client.writeRequests.filter fun entry => entry.1 != request }

/-- `if (--client->queued_writes < 0)`, which never holds of a `size_t`. -/
def uncount : WritingClient :=
  { client with
    decremented := client.decremented ++ [client.queuedWrites]
    queuedWrites := if client.queuedWrites - 1 < 0 then 0 else client.queuedWrites - 1 }

/-- The end of `__on_send`, after `on_write` has returned. -/
def onWriteEnd (request : Address) : WritingClient :=
  (if client.queuedClose then client.close else client).deallocate request

/-- What follows the decrement, up to the call of `on_write`; without that call, to the end. -/
def notify (request : Address) : WritingClient :=
  if client.queuedWrites = 0 then
    match client.context with
    | some _ => { client with running := request :: client.running }
    | none => client.onWriteEnd request
  else client.deallocate request

/-- `__on_send` up to the call of `on_write`. -/
def onSend (request : Address) : WritingClient :=
  if client.attached then (client.forget request).uncount.notify request
  else client.deallocate request

/-- `_send` up to `uv_try_write`; the pools hand out `bases` and `request`. -/
def register (data : Bytes) (bases : List Address) (request : Address) : WritingClient :=
  { client with
    bufferCalls := client.bufferCalls ++ bases.map .lend
    requestCalls := client.requestCalls ++ [.lend request]
    writeRequests := insertOrAssign client.writeRequests request
      (List.zipWith UvBuf.mk bases (chunks data.length data))
    queuedWrites := client.queuedWrites + 1 }

/-- `_send(buf, size)`. -/
def send (data : Bytes) (bases : List Address) (request : Address) (outcome : Outcome) :
    WritingClient :=
  let registered := client.register data bases request
  match outcome with
  | .wrote _ => registered.onSend request
  | .queued => { registered with owed := registered.owed ++ [request] }
  | .refused => registered

/-- `~SSLClient()`; the loop goes through `write_requests` in an order of its own. -/
def destroy (iteration : Iteration (Address × List UvBuf)) : WritingClient :=
  let crashed := if client.closing then client else client.crash
  let entries := iteration.order crashed.writeRequests
  { crashed with
    destroyed := true
    bufferCalls := crashed.bufferCalls ++
      (entries.flatMap fun entry => entry.2.map UvBuf.base).map .giveBack
    requestCalls := crashed.requestCalls ++ (entries.map Prod.fst).map .giveBack }

/-- What the pools can hand out to `_send`: a buffer for each chunk and a request, none of which the
client still has (`Pool.run_lends`). -/
def HandedOut (data : Bytes) (bases : List Address) (request : Address) : Prop :=
  bases.length = (chunks data.length data).length ∧ bases.Nodup ∧
    (∀ base ∈ bases, ¬ Out client.bufferCalls base) ∧
    request ≠ 0 ∧ ¬ Out client.requestCalls request

instance (data : Bytes) (bases : List Address) (request : Address) :
    Decidable (client.HandedOut data bases request) :=
  -- By the list: the addresses are finitely many, but too many to go through.
  have : Decidable (∀ base ∈ bases, ¬ Out client.bufferCalls base) := List.decidableBAll _ bases
  inferInstanceAs (Decidable (_ ∧ _))

end WritingClient

/-- What can happen to the writes of an `SSLClient`. -/
inductive WritingEvent where
  | send (data : Bytes) (bases : List Address) (request : Address) (outcome : Outcome)
  | close
  | crash
  /-- `on_write` returns to `__on_send`. -/
  | onWriteReturns
  /-- libuv completes a write. -/
  | sent (request : Address)
  /-- libuv runs `__on_close`. -/
  | closed
  /-- `on_close` returns to `__on_close`, and the server deletes the client. -/
  | onCloseReturns (iteration : Iteration (Address × List UvBuf))
  /-- `~SSLServer()` deletes the client. -/
  | destroyed (iteration : Iteration (Address × List UvBuf))

/-- One step; `none` where the event cannot happen. libuv runs callbacks only when no other code
runs, and the close callback after the writes are completed; it takes no writes for a handle that is
closed. -/
def WritingClient.step (client : WritingClient) (event : WritingEvent) : Option WritingClient :=
  if client.destroyed then none
  else
    match event with
    | .send data bases request outcome =>
      if client.client ∧ (client.attached ∨ outcome = .refused) ∧ outcome.fits data ∧
          client.HandedOut data bases request then
        some (client.send data bases request outcome)
      else none
    | .close => some client.close
    | .crash => some client.crash
    | .onWriteReturns =>
      match client.running with
      | [] => none
      | request :: others => some ({ client with running := others }.onWriteEnd request)
    | .sent request =>
      if client.running = [] ∧ request ∈ client.owed then
        some ({ client with owed := client.owed.erase request }.onSend request)
      else none
    | .closed =>
      if client.running = [] ∧ client.attached ∧ client.closing ∧ client.owed = [] then
        some { client with attached := false }
      else none
    | .onCloseReturns iteration =>
      if client.running = [] ∧ client.attached = false then
        some ({ client with client := false }.destroy iteration)
      else none
    | .destroyed iteration =>
      if client.running = [] ∧ client.attached then some (client.destroy iteration) else none

namespace WritingClient

/-- The keys of `write_requests`. -/
def requests (client : WritingClient) : List Address := client.writeRequests.map Prod.fst

/-- The buffers of all entries. -/
def buffers (client : WritingClient) : List Address :=
  client.writeRequests.flatMap fun entry => entry.2.map UvBuf.base

/-- The books are right, while the requests `inHand` belong to an `__on_send` that is running. -/
structure Exact (client : WritingClient) (inHand : List Address) : Prop where
  alive : client.destroyed = false
  counted : client.queuedWrites.toNat = client.writeRequests.length
  positive : ∀ value ∈ client.decremented, 0 < value
  nonNull : (0 : Address) ∉ client.requests
  owedOnce : client.owed.Nodup
  owedKnown : ∀ request ∈ client.owed, request ∈ client.requests
  detached : client.attached = false → client.owed = [] ∧ client.closing = true
  requestCalls : Kept client.requestCalls (inHand ++ client.running ++ client.requests)
  bufferCalls : Kept client.bufferCalls client.buffers

/-! ### The map -/

section Entries

variable {entries : List (Address × List UvBuf)} {request : Address}

theorem zipWith_base {bases : List Address} {contents : List Bytes}
    (many : bases.length = contents.length) :
    (List.zipWith UvBuf.mk bases contents).map UvBuf.base = bases := by
  rw [← List.map_uncurry_zip_eq_zipWith, List.map_map]
  exact List.map_fst_zip many.le

/-- The entry under a key that is there, and the others. -/
theorem exists_entry (distinct : (entries.map Prod.fst).Nodup)
    (isKey : request ∈ entries.map Prod.fst) :
    ∃ buffers, (entries.find? fun entry => entry.1 = request) = some (request, buffers) ∧
      entries.Perm ((request, buffers) :: entries.filter fun entry => entry.1 != request) := by
  obtain ⟨entry, inside, rfl⟩ := List.mem_map.mp isKey
  obtain ⟨before, after, rfl⟩ := List.append_of_mem inside
  rw [List.map_append, List.map_cons, List.nodup_middle, List.nodup_cons, List.mem_append,
    not_or] at distinct
  obtain ⟨⟨notBefore, notAfter⟩, _⟩ := distinct
  have before_ne : ∀ other ∈ before, other.1 ≠ entry.1 := fun other isOther same =>
    notBefore (same ▸ List.mem_map_of_mem isOther)
  have after_ne : ∀ other ∈ after, other.1 ≠ entry.1 := fun other isOther same =>
    notAfter (same ▸ List.mem_map_of_mem isOther)
  have others : ((before ++ entry :: after).filter fun other => other.1 != entry.1) =
      before ++ after := by
    rw [List.filter_append, List.filter_cons_of_neg (by simp),
      List.filter_eq_self.mpr fun other isOther => bne_iff_ne.mpr (before_ne other isOther),
      List.filter_eq_self.mpr fun other isOther => bne_iff_ne.mpr (after_ne other isOther)]
  refine ⟨entry.2, List.find?_eq_some_iff_append.mpr ⟨decide_eq_true rfl, before, after, rfl, ?_⟩, ?_⟩
  · intro other isOther
    rw [decide_eq_false (before_ne other isOther)]
    rfl
  · rw [others]
    exact List.perm_middle

theorem mem_keys_filter {other : Address} (apart : other ≠ request)
    (isKey : other ∈ entries.map Prod.fst) :
    other ∈ (entries.filter fun entry => entry.1 != request).map Prod.fst := by
  obtain ⟨entry, inside, rfl⟩ := List.mem_map.mp isKey
  exact List.mem_map_of_mem (List.mem_filter.mpr ⟨inside, bne_iff_ne.mpr apart⟩)

/-- Addresses are fewer than a `size_t` can count. -/
theorem length_lt_of_nodup {addresses : List Address} (distinct : addresses.Nodup)
    (nonNull : (0 : Address) ∉ addresses) : addresses.length < 2 ^ 64 := by
  have whole : (0 :: addresses).Nodup := List.nodup_cons.mpr ⟨nonNull, distinct⟩
  have bound := (whole.map fun _ _ => UInt64.toFin_inj.mp).length_le_card
  rwa [Fintype.card_fin, List.length_map] at bound

end Entries

/-! ### `_send` and `__on_send` -/

namespace Exact

variable {client : WritingClient} {inHand : List Address} {request : Address}

theorem distinct (exact : client.Exact inHand) : client.requests.Nodup :=
  (List.nodup_append'.mp exact.requestCalls.distinct).2.1

theorem close (exact : client.Exact inHand) : client.close.Exact inHand := by
  unfold WritingClient.close
  split
  · exact { exact with }
  · exact { exact with detached := fun isDetached => ⟨(exact.detached isDetached).1, rfl⟩ }

theorem crash (exact : client.Exact inHand) : client.crash.Exact inHand :=
  { exact with detached := fun isDetached => ⟨(exact.detached isDetached).1, rfl⟩ }

theorem deallocate (exact : client.Exact [request]) : (client.deallocate request).Exact [] :=
  { exact with requestCalls := exact.requestCalls.giveBack (List.Perm.refl _) }

theorem onWriteEnd (exact : client.Exact [request]) : (client.onWriteEnd request).Exact [] := by
  unfold WritingClient.onWriteEnd
  split
  · exact exact.close.deallocate
  · exact exact.deallocate

theorem notify (exact : client.Exact [request]) : (client.notify request).Exact [] := by
  unfold WritingClient.notify
  split
  · cases client.context with
    | none => exact exact.onWriteEnd
    | some context => exact { exact with }
  · exact exact.deallocate

/-- A write that is registered is counted. -/
theorem one_le (exact : client.Exact inHand) (isKey : request ∈ client.requests) :
    1 ≤ client.queuedWrites := by
  have some : 0 < client.requests.length := List.length_pos_of_mem isKey
  rw [requests, List.length_map, ← exact.counted] at some
  exact UInt64.le_iff_toNat_le.mpr some

/-- **A write that is completed**: its buffers are back, it is no longer counted, and its request is
in hand. -/
theorem uncount_forget (exact : client.Exact []) (isKey : request ∈ client.requests)
    (settled : request ∉ client.owed) : ((client.forget request).uncount).Exact [request] := by
  obtain ⟨buffers, found, whole⟩ := exists_entry exact.distinct isKey
  have length := whole.length_eq
  rw [List.length_cons, ← exact.counted] at length
  have counted := exact.one_le isKey
  have fewer : (client.queuedWrites - 1).toNat =
      (client.writeRequests.filter fun entry => entry.1 != request).length := by
    rw [UInt64.toNat_sub_of_le _ _ counted, length]
    rfl
  have keys := whole.map Prod.fst
  have held := whole.flatMap_right fun entry => entry.2.map UvBuf.base
  unfold WritingClient.forget
  rw [found]
  refine ⟨exact.alive, ?_, ?_, ?_, exact.owedOnce, ?_, exact.detached, ?_,
    exact.bufferCalls.giveBackAll held⟩
  · show (if client.queuedWrites - 1 < 0 then 0 else client.queuedWrites - 1).toNat =
      (client.writeRequests.filter fun entry => entry.1 != request).length
    rw [if_neg UInt64.not_lt_zero, fewer]
  · intro value met
    rcases List.mem_append.mp met with old | new
    · exact exact.positive value old
    · rw [List.mem_singleton.mp new]
      exact UInt64.lt_of_lt_of_le (by decide) counted
  · exact fun isNull => exact.nonNull (keys.mem_iff.mpr (List.mem_cons_of_mem _ isNull))
  · exact fun other isOwed => mem_keys_filter (fun same => settled (same ▸ isOwed))
      (exact.owedKnown other isOwed)
  · refine exact.requestCalls.perm ?_
    have moved : (client.running ++ client.requests).Perm (client.running ++ request :: _) :=
      keys.append_left _
    exact moved.trans List.perm_middle

theorem onSend (exact : client.Exact []) (attached : client.attached = true)
    (isKey : request ∈ client.requests) (settled : request ∉ client.owed) :
    (client.onSend request).Exact [] := by
  unfold WritingClient.onSend
  rw [if_pos attached]
  exact (exact.uncount_forget isKey settled).notify

section Register

variable {data : Bytes} {bases : List Address}

theorem isNew (exact : client.Exact []) (handed : client.HandedOut data bases request) :
    request ∉ client.requests := fun isKey =>
  handed.2.2.2.2 (exact.requestCalls.out_iff.mpr (List.mem_append_right _ isKey))

theorem writeRequests_register (exact : client.Exact [])
    (handed : client.HandedOut data bases request) :
    (client.register data bases request).writeRequests = client.writeRequests ++
      [(request, List.zipWith UvBuf.mk bases (chunks data.length data))] :=
  if_neg (exact.isNew handed)

theorem requests_register (exact : client.Exact []) (handed : client.HandedOut data bases request) :
    (client.register data bases request).requests = client.requests ++ [request] := by
  unfold WritingClient.requests
  rw [exact.writeRequests_register handed, List.map_append]
  rfl

/-- **A write that is registered.** -/
theorem register (exact : client.Exact []) (handed : client.HandedOut data bases request) :
    (client.register data bases request).Exact [] := by
  have requests := exact.requests_register handed
  have entries := exact.writeRequests_register handed
  obtain ⟨many, once, fresh, isAddress, freshRequest⟩ := handed
  have buffers : (client.register data bases request).buffers = client.buffers ++ bases := by
    unfold WritingClient.buffers
    rw [entries, List.flatMap_append, List.flatMap_singleton, zipWith_base many]
  have nonNull : (0 : Address) ∉ client.requests ++ [request] := by
    intro inside
    rcases List.mem_append.mp inside with old | new
    · exact exact.nonNull old
    · exact isAddress (List.mem_singleton.mp new).symm
  have lent : Kept (client.requestCalls ++ [.lend request])
      (client.running ++ (client.requests ++ [request])) := by
    have kept := exact.requestCalls.lend fun isOut =>
      freshRequest (exact.requestCalls.out_iff.mpr isOut)
    refine kept.perm ?_
    rw [← List.append_assoc]
    exact (List.perm_append_singleton request _).symm
  have room := length_lt_of_nodup (List.nodup_append'.mp lent.distinct).2.1 nonNull
  refine ⟨exact.alive, ?_, exact.positive, requests ▸ nonNull, exact.owedOnce, ?_, exact.detached, ?_,
    ?_⟩
  · show (client.queuedWrites + 1).toNat = (client.register data bases request).writeRequests.length
    have same : client.requests.length = client.writeRequests.length := List.length_map _
    rw [List.length_append, List.length_singleton, same, ← exact.counted] at room
    rw [UInt64.toNat_add, entries, List.length_append, List.length_singleton, ← exact.counted]
    exact Nat.mod_eq_of_lt room
  · exact fun other isOwed => requests ▸ List.mem_append_left _ (exact.owedKnown other isOwed)
  · rw [requests]
    exact lent
  · rw [buffers]
    have kept := exact.bufferCalls.lendAll (List.nodup_append'.mpr ⟨once, exact.bufferCalls.distinct,
      fun base isBase isHeld => fresh base isBase (exact.bufferCalls.out_iff.mpr isHeld)⟩)
    exact kept.perm List.perm_append_comm

end Register

theorem send {data : Bytes} {bases : List Address} {outcome : Outcome} (exact : client.Exact [])
    (takes : client.attached = true ∨ outcome = .refused)
    (handed : client.HandedOut data bases request) :
    (client.send data bases request outcome).Exact [] := by
  have registered := exact.register handed
  have isKey : request ∈ (client.register data bases request).requests :=
    exact.requests_register handed ▸ List.mem_append_right _ List.mem_cons_self
  have settled : request ∉ client.owed := fun isOwed =>
    exact.isNew handed (exact.owedKnown request isOwed)
  cases outcome with
  | wrote written => exact registered.onSend (takes.resolve_right Outcome.noConfusion) isKey settled
  | queued =>
    refine { registered with owedOnce := ?_, owedKnown := ?_, detached := ?_ }
    · have apart : client.owed.Disjoint [request] := List.disjoint_singleton.mpr settled
      exact List.nodup_append'.mpr ⟨exact.owedOnce, List.nodup_singleton request, apart⟩
    · intro other isOwed
      rcases List.mem_append.mp isOwed with old | new
      · exact registered.owedKnown other old
      · exact List.mem_singleton.mp new ▸ isKey
    · intro isDetached
      have attached : client.attached = true := takes.resolve_right Outcome.noConfusion
      exact absurd (attached.symm.trans isDetached) (by decide)
  | refused => exact registered

theorem attached_of_owed (exact : client.Exact []) (isOwed : request ∈ client.owed) :
    client.attached = true := by
  by_contra isDetached
  rw [(exact.detached (by simpa using isDetached)).1] at isOwed
  exact List.not_mem_nil isOwed

theorem erase (exact : client.Exact []) (isOwed : request ∈ client.owed) :
    Exact { client with owed := client.owed.erase request } [] :=
  { exact with
    owedOnce := exact.owedOnce.erase request
    owedKnown := fun other isOther => exact.owedKnown other (List.mem_of_mem_erase isOther)
    detached := fun isDetached =>
      absurd ((exact.attached_of_owed isOwed).symm.trans isDetached) (by decide) }

theorem sent (exact : client.Exact []) (isOwed : request ∈ client.owed) :
    ({ client with owed := client.owed.erase request }.onSend request).Exact [] :=
  (exact.erase isOwed).onSend (exact.attached_of_owed isOwed) (exact.owedKnown request isOwed)
    exact.owedOnce.not_mem_erase

end Exact

/-! ### The destructor -/

/-- The books after the destructor. -/
structure Settled (client : WritingClient) : Prop where
  destroyed : client.destroyed = true
  counted : client.queuedWrites.toNat = client.writeRequests.length
  positive : ∀ value ∈ client.decremented, 0 < value
  buffers : ReturnedOnce client.bufferCalls
  requests : ReturnedOnce client.requestCalls

/-- **The destructor returns what is left**, in whichever order it finds the entries. -/
theorem Exact.destroy {client : WritingClient} (exact : client.Exact []) (idle : client.running = [])
    (iteration : Iteration (Address × List UvBuf)) : (client.destroy iteration).Settled := by
  have crashed : (if client.closing then client else client.crash).Exact [] := by
    split
    · exact exact
    · exact exact.crash
  have stillIdle : (if client.closing then client else client.crash).running = [] := by
    split
    · exact idle
    · exact idle
  have order := iteration.perm (if client.closing then client else client.crash).writeRequests
  refine ⟨rfl, crashed.counted, crashed.positive, ?_, ?_⟩
  · refine (crashed.bufferCalls.giveBackAll ?_).returnedOnce
    rw [List.append_nil]
    exact (order.flatMap_right _).symm
  · refine (crashed.requestCalls.giveBackAll ?_).returnedOnce
    rw [List.append_nil, stillIdle]
    exact (order.map Prod.fst).symm

/-! ### Whole runs -/

/-- What a step can be. -/
inductive Stepped (client : WritingClient) : WritingEvent → WritingClient → Prop where
  | send {data : Bytes} {bases : List Address} {request : Address} {outcome : Outcome}
      (alive : client.client = true) (takes : client.attached = true ∨ outcome = .refused)
      (fits : outcome.fits data = true) (handed : client.HandedOut data bases request) :
      Stepped client (.send data bases request outcome) (client.send data bases request outcome)
  | close : Stepped client .close client.close
  | crash : Stepped client .crash client.crash
  | onWriteReturns {request : Address} {others : List Address}
      (running : client.running = request :: others) :
      Stepped client .onWriteReturns ({ client with running := others }.onWriteEnd request)
  | sent {request : Address} (idle : client.running = []) (isOwed : request ∈ client.owed) :
      Stepped client (.sent request)
        ({ client with owed := client.owed.erase request }.onSend request)
  | closed (idle : client.running = []) (attached : client.attached = true)
      (closing : client.closing = true) (completed : client.owed = []) :
      Stepped client .closed { client with attached := false }
  | onCloseReturns {iteration : Iteration (Address × List UvBuf)} (idle : client.running = [])
      (detached : client.attached = false) :
      Stepped client (.onCloseReturns iteration)
        ({ client with client := false }.destroy iteration)
  | destroyed {iteration : Iteration (Address × List UvBuf)} (idle : client.running = [])
      (attached : client.attached = true) :
      Stepped client (.destroyed iteration) (client.destroy iteration)

/-- **Every step is one of these**, and the client was not destroyed before. -/
theorem stepped_of_step {client next : WritingClient} {event : WritingEvent}
    (stepped : client.step event = some next) :
    client.destroyed = false ∧ Stepped client event next := by
  obtain ⟨alive, stepped⟩ := Option.ite_none_left_eq_some.mp stepped
  refine ⟨Bool.eq_false_iff.mpr alive, ?_⟩
  cases event with
  | send data bases request outcome =>
    obtain ⟨⟨alive, takes, fits, handed⟩, same⟩ := Option.ite_none_right_eq_some.mp stepped
    exact Option.some.inj same ▸ .send alive takes fits handed
  | close => exact Option.some.inj stepped ▸ .close
  | crash => exact Option.some.inj stepped ▸ .crash
  | onWriteReturns =>
    cases running : client.running with
    | nil =>
      simp only [running] at stepped
      cases stepped
    | cons request others =>
      simp only [running] at stepped
      exact Option.some.inj stepped ▸ .onWriteReturns running
  | sent request =>
    obtain ⟨⟨idle, isOwed⟩, same⟩ := Option.ite_none_right_eq_some.mp stepped
    exact Option.some.inj same ▸ .sent idle isOwed
  | closed =>
    obtain ⟨⟨idle, attached, closing, completed⟩, same⟩ := Option.ite_none_right_eq_some.mp stepped
    exact Option.some.inj same ▸ .closed idle attached closing completed
  | onCloseReturns iteration =>
    obtain ⟨⟨idle, detached⟩, same⟩ := Option.ite_none_right_eq_some.mp stepped
    exact Option.some.inj same ▸ .onCloseReturns idle detached
  | destroyed iteration =>
    obtain ⟨⟨idle, attached⟩, same⟩ := Option.ite_none_right_eq_some.mp stepped
    exact Option.some.inj same ▸ .destroyed idle attached

theorem exact_start (context : Option ClientContext) : Exact { context } [] where
  alive := rfl
  counted := rfl
  positive := fun _ inside => absurd inside List.not_mem_nil
  nonNull := List.not_mem_nil
  owedOnce := List.nodup_nil
  owedKnown := fun _ inside => absurd inside List.not_mem_nil
  detached := Bool.noConfusion
  requestCalls := kept_nil
  bufferCalls := kept_nil

/-- **Every step keeps the books**; those that delete the client settle them. -/
theorem Exact.step {client next : WritingClient} {event : WritingEvent} (exact : client.Exact [])
    (stepped : client.step event = some next) : next.Exact [] ∨ next.Settled := by
  cases (stepped_of_step stepped).2 with
  | send alive takes fits handed => exact .inl (exact.send takes handed)
  | close => exact .inl exact.close
  | crash => exact .inl exact.crash
  | @onWriteReturns request others running =>
    have requestCalls := exact.requestCalls
    rw [running] at requestCalls
    have inHand : Exact { client with running := others } [request] :=
      { exact with requestCalls := requestCalls }
    exact .inl inHand.onWriteEnd
  | sent idle isOwed => exact .inl (exact.sent isOwed)
  | closed idle attached closing completed =>
    exact .inl { exact with detached := fun _ => ⟨completed, closing⟩ }
  | onCloseReturns idle detached =>
    have released : Exact { client with client := false } [] := { exact with }
    exact .inr (released.destroy idle _)
  | destroyed idle attached => exact .inr (exact.destroy idle _)

/-- **The books of a run** are right, and settled once the client is destroyed. -/
theorem run_exact_or_settled {context : Option ClientContext} {events : List WritingEvent}
    {client : WritingClient} (ran : run step { context } events = some client) :
    client.Exact [] ∨ client.Settled := by
  refine run_always (fun client => client.Exact [] ∨ client.Settled) ?_
    (.inl (exact_start context)) ran
  rintro client event next (exact | settled) stepped
  · exact exact.step stepped
  · have alive := (stepped_of_step stepped).1
    exact absurd (settled.destroyed.symm.trans alive) (by decide)

/-- **Write bookkeeping is exact**: in any run `queued_writes` is the number of entries of
`write_requests` and was never decremented at 0, and once the destructor has run, every buffer and
every request that `_send` was lent went back to its pool exactly once. -/
theorem run_writes {context : Option ClientContext} {events : List WritingEvent}
    {client : WritingClient} (ran : run step { context } events = some client) :
    client.queuedWrites.toNat = client.writeRequests.length ∧
      (∀ value ∈ client.decremented, 0 < value) ∧
      (client.destroyed = true →
        ReturnedOnce client.bufferCalls ∧ ReturnedOnce client.requestCalls) := by
  rcases run_exact_or_settled ran with exact | settled
  · exact ⟨exact.counted, exact.positive,
      fun destroyed => absurd (destroyed.symm.trans exact.alive) (by decide)⟩
  · exact ⟨settled.counted, settled.positive, fun _ => ⟨settled.buffers, settled.requests⟩⟩

/-- A write is completed; its `on_write` sends a second one, in the buffer of the first, which is taken
at once; libuv refuses a third one, under the address of the first, and the destructor returns it. -/
def recycledRun : List WritingEvent :=
  [.send [1] [4096] 64 .queued, .sent 64, .send [2] [4096] 128 (.wrote 1), .onWriteReturns,
    .onWriteReturns, .send [3] [4096] 64 .refused, .close, .close, .closed,
    .onCloseReturns ⟨id, fun _ => List.Perm.refl _⟩]

theorem run_writes_recycled :
    ∃ client, run step { context := some .manager } recycledRun = some client ∧
      client.writeRequests.length = 1 ∧
      ReturnedOnce client.bufferCalls ∧ ReturnedOnce client.requestCalls := by
  have ran : run step { context := some .manager } recycledRun = some _ := rfl
  exact ⟨_, ran, rfl, (run_writes ran).2.2 rfl⟩

end WritingClient

end GemCaps
