/-
**From the TLS layer to libuv** (`SSLServer::__send`, `SSLClient::_send`).

wolfSSL passes what it has to send to `__send`, which returns how much it took, and comes back with
the rest. `_send` copies the bytes to buffers of at most 1024 bytes and first tries to write them at
once; if that takes none of them, libuv queues them all. `run_handed`: together the calls hand every
byte to libuv once and in order, and what libuv still has to write is in the buffers it was given.
-/

import GemCaps.Connection.Client
import Mathlib.Data.List.Nodup

namespace GemCaps

open Transition

/-! ### The buffers of one call -/

/-- The rounds of `_send` copy all the bytes. -/
theorem flatten_chunks {rounds : Nat} {data : Bytes} (enough : data.length ≤ rounds) :
    (chunks rounds data).flatten = data := by
  induction rounds generalizing data with
  | zero =>
    rw [List.length_eq_zero_iff.mp (Nat.le_zero.mp enough)]
    rfl
  | succ rounds ih =>
    unfold chunks
    by_cases empty : data = []
    · rw [if_pos empty, empty]
      rfl
    · have shorter : (data.drop 1024).length ≤ rounds := by
        have filled := List.length_pos_of_ne_nil empty
        rw [List.length_drop]
        omega
      rw [if_neg empty, List.flatten_cons, ih shorter, List.take_append_drop]

/-- **No buffer is empty, and none is longer than the memory behind it.** -/
theorem mem_chunks {rounds : Nat} {data buffer : Bytes} (inside : buffer ∈ chunks rounds data) :
    buffer ≠ [] ∧ buffer.length ≤ 1024 := by
  induction rounds generalizing data with
  | zero => cases inside
  | succ rounds ih =>
    unfold chunks at inside
    split at inside
    · cases inside
    · next filled =>
      rcases List.mem_cons.mp inside with rfl | later
      · refine ⟨?_, List.length_take_le _ _⟩
        intro none
        exact filled ((List.take_eq_nil_iff.mp none).resolve_left (by decide))
      · exact ih later

/-! ### The TLS layer -/

/-- The negative results of the callbacks that wolfSSL calls. -/
inductive CallbackError where
  /-- `WOLFSSL_CBIO_ERR_CONN_CLOSE`. -/
  | connClose
deriving DecidableEq

namespace SSLClient

/-- What `_send` returns. -/
def sendCount (data : Bytes) : Outcome → Nat
  | .wrote written => written
  | .queued | .refused => data.length

/-- The buffers of the request that `_send` inserts into `write_requests`. -/
def registered (client : SSLClient) (data : Bytes) : List Bytes :=
  ((client.register data).writeRequests.getLast?.map Prod.snd).getD []

theorem registered_eq (client : SSLClient) (data : Bytes) :
    client.registered data = chunks data.length data := by
  rw [registered, SSLClient.register, List.getLast?_concat]
  rfl

/-- `SSLServer::__send`, with the client behind `ctx`. -/
def ioSend (client : SSLClient) (data : Bytes) (outcome : Outcome) :
    Except CallbackError (SSLClient × Nat) :=
  if client.isOpen then .ok (client.send data outcome, sendCount data outcome)
  else .error .connClose

end SSLClient

/-- The buffers that one `_send` passes to libuv, and how many of their bytes libuv takes. -/
structure Handing where
  buffers : List Bytes
  taken : Nat

/-- The bytes that libuv takes. -/
def Handing.bytes (handing : Handing) : Bytes := handing.buffers.flatten.take handing.taken

/-- The calls `uv_try_write` and `uv_write` of one `_send`. -/
def Outcome.handing (buffers : List Bytes) : Outcome → Handing
  | .wrote written => ⟨buffers, written⟩
  | .queued => ⟨buffers, buffers.flatten.length⟩
  | .refused => ⟨buffers, 0⟩

/-- A connection with the output buffer of wolfSSL. -/
structure TlsStream where
  client : SSLClient
  /-- What wolfSSL has produced, and the part of it that no `__send` has taken. -/
  produced : Bytes := []
  pending : Bytes := []
  handings : List Handing := []

/-- What can happen to the stream. -/
inductive TlsEvent where
  /-- wolfSSL appends to its output buffer. -/
  | produce (data : Bytes)
  /-- wolfSSL calls `__send` with the first bytes that wait. -/
  | push (size : Nat) (outcome : Outcome)
  /-- Anything else that happens to the client. -/
  | client (event : ClientEvent)

namespace TlsStream

variable (stream : TlsStream)

/-- The bytes that libuv was given, call after call. -/
def handed : Bytes := stream.handings.flatMap Handing.bytes

/-- What can come of a write: `uv_try_write` writes something, and nothing while writes are queued,
or `uv_write` takes everything. -/
def Writes (data : Bytes) : Outcome → Prop
  | .wrote written => 0 < written ∧ written ≤ data.length ∧ stream.client.owed = []
  | .queued => True
  | .refused => False

instance (data : Bytes) : (outcome : Outcome) → Decidable (stream.Writes data outcome)
  | .wrote _ => inferInstanceAs (Decidable (_ ∧ _ ∧ _))
  | .queued => .isTrue trivial
  | .refused => .isFalse id

/-- wolfSSL calls `__send`; what is handed to libuv are the buffers of the new request. -/
def push (size : Nat) (outcome : Outcome) : TlsStream :=
  let data := stream.pending.take size
  match stream.client.ioSend data outcome with
  | .error _ => stream
  | .ok (client, count) =>
    { stream with
      client
      pending := stream.pending.drop count
      handings := stream.handings ++ [outcome.handing (stream.client.registered data)] }

/-- The events of a client that are no call of `__send`; libuv completes its writes in their
order. -/
def permits : ClientEvent → Bool
  | .send _ _ => false
  | .sent request => stream.client.owed.head? == some request
  | .close | .crash | .setTimeout _ | .onWriteReturns | .timeout | .closed => true

/-- One step; `none` where the event cannot happen. A `__send` has returned before wolfSSL calls it
again. -/
def step (stream : TlsStream) : TlsEvent → Option TlsStream
  | .produce data =>
    some { stream with produced := stream.produced ++ data, pending := stream.pending ++ data }
  | .push size outcome =>
    if stream.client.onWrites = 0 ∧ stream.Writes (stream.pending.take size) outcome then
      some (stream.push size outcome)
    else none
  | .client event =>
    if stream.permits event then (stream.client.step event).map fun client => { stream with client }
    else none

end TlsStream

/-! ### What libuv still has to write -/

namespace SSLClient

variable {client next : SSLClient}

/-- The bytes in the buffers that are kept for a write. -/
def held (client : SSLClient) (request : Nat) : Bytes :=
  (client.writeRequests.filter fun entry => entry.1 == request).flatMap fun entry => entry.2.flatten

/-- The bytes of the writes that libuv has not completed. -/
def queued (client : SSLClient) : Bytes := client.owed.flatMap client.held

/-- The requests in use have different numbers, all of them given out. -/
structure Numbered (client : SSLClient) : Prop where
  requests : ∀ entry ∈ client.writeRequests, entry.1 < client.nextRequest
  owed : ∀ request ∈ client.owed, request < client.nextRequest
  distinct : client.owed.Nodup

/-- The writes and their buffers are the same. -/
structure SameWrites (client next : SSLClient) : Prop where
  writeRequests : next.writeRequests = client.writeRequests
  nextRequest : next.nextRequest = client.nextRequest
  owed : next.owed = client.owed

theorem SameWrites.trans {last : SSLClient} (first : SameWrites client next)
    (second : SameWrites next last) : SameWrites client last :=
  ⟨second.writeRequests.trans first.writeRequests, second.nextRequest.trans first.nextRequest,
    second.owed.trans first.owed⟩

theorem SameWrites.held (same : SameWrites client next) : next.held = client.held := by
  funext request
  unfold SSLClient.held
  rw [same.writeRequests]

theorem SameWrites.queued (same : SameWrites client next) : next.queued = client.queued := by
  unfold SSLClient.queued
  rw [same.held, same.owed]

theorem SameWrites.numbered (same : SameWrites client next) (numbered : client.Numbered) :
    next.Numbered := by
  obtain ⟨requests, owed, distinct⟩ := numbered
  refine ⟨?_, ?_, ?_⟩
  · rwa [same.writeRequests, same.nextRequest]
  · rwa [same.owed, same.nextRequest]
  · rwa [same.owed]

theorem close_sameWrites : SameWrites client client.close := by
  unfold close
  split
  · exact ⟨rfl, rfl, rfl⟩
  · exact ⟨rfl, rfl, rfl⟩

theorem onSendEnd_sameWrites : SameWrites client client.onSendEnd := by
  unfold onSendEnd
  split
  · exact close_sameWrites
  · exact ⟨rfl, rfl, rfl⟩

theorem notify_sameWrites : SameWrites client client.notify := by
  rcases client.notify_cases with ⟨_, same⟩ | ⟨_, _, same⟩ | ⟨_, _, same⟩
  · rw [same]
    exact ⟨rfl, rfl, rfl⟩
  · rw [same]
    exact ⟨rfl, rfl, rfl⟩
  · rw [same]
    exact onSendEnd_sameWrites

theorem resetTimeout_sameWrites : SameWrites client client.resetTimeout := by
  unfold resetTimeout
  split
  · exact ⟨rfl, rfl, rfl⟩
  · exact ⟨rfl, rfl, rfl⟩

/-- **The events that neither start nor complete a write.** -/
theorem step_sameWrites {event : ClientEvent} (stepped : client.step event = some next)
    (noSend : ∀ data outcome, event ≠ .send data outcome) (noSent : ∀ request, event ≠ .sent request) :
    SameWrites client next := by
  cases stepped_of_step stepped with
  | send data outcome isOpen => exact absurd rfl (noSend data outcome)
  | sent request idle isOwed => exact absurd rfl (noSent request)
  | close => exact close_sameWrites
  | onWriteReturns running =>
    obtain ⟨writeRequests, nextRequest, owed⟩ := client.onSendEnd_sameWrites
    exact ⟨writeRequests, nextRequest, owed⟩
  | crash | setTimeout time | timeout idle armed | closed idle alive closing completed =>
    exact ⟨rfl, rfl, rfl⟩

theorem Numbered.register (numbered : client.Numbered) (data : Bytes) :
    (client.register data).Numbered := by
  refine ⟨?_, ?_, numbered.distinct⟩
  · intro entry inside
    rcases List.mem_append.mp inside with old | new
    · exact (numbered.requests entry old).trans (Nat.lt_succ_self _)
    · rw [List.mem_singleton.mp new]
      exact Nat.lt_succ_self _
  · intro request inside
    exact (numbered.owed request inside).trans (Nat.lt_succ_self _)

theorem Numbered.forget (numbered : client.Numbered) (request : Nat) :
    (client.forget request).Numbered :=
  ⟨fun entry inside => numbered.requests entry (List.mem_filter.mp inside).1, numbered.owed,
    numbered.distinct⟩

/-- The buffers of a write that is registered: the bytes that were passed to `_send`. -/
theorem Numbered.held_register (numbered : client.Numbered) (data : Bytes) :
    (client.register data).held client.nextRequest = data := by
  have none : (client.writeRequests.filter fun entry => entry.1 == client.nextRequest) = [] := by
    refine List.filter_eq_nil_iff.mpr fun entry inside => ?_
    rw [beq_iff_eq]
    exact Nat.ne_of_lt (numbered.requests entry inside)
  unfold held SSLClient.register
  rw [List.filter_append, none, List.nil_append]
  simpa using flatten_chunks (Nat.le_refl data.length)

/-- The other writes keep their buffers. -/
theorem held_register_of_ne (data : Bytes) {request : Nat} (other : request ≠ client.nextRequest) :
    (client.register data).held request = client.held request := by
  have noMatch : (client.nextRequest == request) = false := beq_false_of_ne (Ne.symm other)
  unfold held SSLClient.register
  rw [List.filter_append, List.filter_cons_of_neg (by rw [noMatch]; exact Bool.false_ne_true),
    List.filter_nil, List.append_nil]

theorem held_forget_of_ne {request done : Nat} (other : request ≠ done) :
    (client.forget done).held request = client.held request := by
  unfold held SSLClient.forget
  rw [List.filter_filter]
  refine congrArg _ (List.filter_congr fun entry _ => ?_)
  by_cases same : entry.1 = request
  · simp [same, other]
  · simp [same]

/-- **A write that is done at once** takes its request away again. -/
theorem Numbered.send_wrote (numbered : client.Numbered) (data : Bytes) (written : Nat) :
    (client.send data (.wrote written)).Numbered ∧
      (client.send data (.wrote written)).owed = client.owed := by
  have reset : SameWrites client client.resetTimeout := resetTimeout_sameWrites
  have registered := (reset.numbered numbered).register data
  have notified : SameWrites _ ((client.resetTimeout.register data).forget client.nextRequest).notify :=
    notify_sameWrites
  exact ⟨notified.numbered (registered.forget _), notified.owed.trans reset.owed⟩

/-- **A write that is queued** stands behind the others, with its bytes. -/
theorem Numbered.send_queued (numbered : client.Numbered) (data : Bytes) :
    (client.send data .queued).Numbered ∧
      (client.send data .queued).queued = client.queued ++ data := by
  have reset : SameWrites client client.resetTimeout := resetTimeout_sameWrites
  have fresh : client.resetTimeout.Numbered := reset.numbered numbered
  obtain ⟨requests, owed, distinct⟩ := fresh.register data
  have number : client.resetTimeout.nextRequest = client.nextRequest := reset.nextRequest
  have isNew : client.nextRequest ∉ client.resetTimeout.owed := by
    intro inside
    exact absurd (fresh.owed _ inside) (Nat.not_lt.mpr (Nat.le_of_eq number))
  constructor
  · refine ⟨requests, ?_, ?_⟩
    · intro request inside
      rcases List.mem_append.mp inside with old | new
      · exact owed request old
      · rw [List.mem_singleton.mp new, ← number]
        exact Nat.lt_succ_self _
    · show (client.resetTimeout.owed ++ [client.nextRequest]).Nodup
      exact List.Nodup.append distinct (List.nodup_singleton _)
        (List.disjoint_singleton.mpr isNew)
  · have others : client.resetTimeout.owed.flatMap (client.resetTimeout.register data).held =
        client.resetTimeout.owed.flatMap client.resetTimeout.held := by
      refine List.flatMap_congr fun request inside => held_register_of_ne data ?_
      exact Nat.ne_of_lt (fresh.owed request inside)
    have last : (client.resetTimeout.register data).held client.nextRequest = data :=
      number ▸ fresh.held_register data
    calc (client.send data .queued).queued
        = (client.resetTimeout.owed ++ [client.nextRequest]).flatMap
            (client.resetTimeout.register data).held := rfl
      _ = client.resetTimeout.queued ++ data := by
          rw [List.flatMap_append, others, List.flatMap_singleton, last]
          rfl
      _ = client.queued ++ data := by rw [reset.queued]

/-- **libuv completes the first write**: its buffers go, and the others stay. -/
theorem Numbered.sent (numbered : client.Numbered) {request : Nat}
    (first : client.owed.head? = some request)
    (stepped : client.step (.sent request) = some next) :
    next.Numbered ∧ client.queued = client.held request ++ next.queued := by
  obtain ⟨_, same⟩ := Option.ite_none_right_eq_some.mp stepped
  obtain rfl := Option.some.inj same
  obtain ⟨rest, isOwed⟩ := List.head?_eq_some_iff.mp first
  have erased : client.owed.erase request = rest := by rw [isOwed, List.erase_cons_head]
  obtain ⟨isNew, distinct⟩ := List.nodup_cons.mp (isOwed ▸ numbered.distinct)
  have shorter : ({ client with owed := rest } : SSLClient).Numbered :=
    ⟨numbered.requests, fun other inside => numbered.owed other (isOwed ▸ List.mem_cons_of_mem _ inside),
      distinct⟩
  have notified : SameWrites _ (({ client with owed := rest } : SSLClient).forget request).notify :=
    notify_sameWrites
  have kept : rest.flatMap (({ client with owed := rest } : SSLClient).forget request).held =
      rest.flatMap client.held := by
    refine List.flatMap_congr fun other inside => held_forget_of_ne ?_
    rintro rfl
    exact isNew inside
  rw [erased]
  refine ⟨notified.numbered (shorter.forget request), ?_⟩
  show client.queued = _ ++ (({ client with owed := rest } : SSLClient).forget request).notify.queued
  rw [notified.queued]
  show client.owed.flatMap client.held = client.held request ++ rest.flatMap _
  rw [isOwed, List.flatMap_cons, kept]

end SSLClient

/-! ### One step -/

namespace TlsStream

variable {stream next : TlsStream}

/-- What was handed to libuv and what still waits is what was produced; libuv has still to write the
last part of what it was handed; and the buffers fit. -/
structure Handed (stream : TlsStream) : Prop where
  numbered : stream.client.Numbered
  conserved : stream.handed ++ stream.pending = stream.produced
  queued : stream.client.queued <:+ stream.handed
  buffers : ∀ handing ∈ stream.handings, ∀ buffer ∈ handing.buffers,
    buffer ≠ [] ∧ buffer.length ≤ 1024

/-- A call of `_send` hands over a front part of its bytes, and returns how long that is. -/
theorem handing_bytes {data : Bytes} {outcome : Outcome} (writes : stream.Writes data outcome) :
    (outcome.handing (stream.client.registered data)).bytes =
        data.take (SSLClient.sendCount data outcome) ∧
      SSLClient.sendCount data outcome ≤ data.length := by
  have whole : (stream.client.registered data).flatten = data := by
    rw [SSLClient.registered_eq]
    exact flatten_chunks (Nat.le_refl data.length)
  cases outcome with
  | wrote written =>
    refine ⟨?_, writes.2.1⟩
    show (stream.client.registered data).flatten.take written = data.take written
    rw [whole]
  | queued =>
    refine ⟨?_, Nat.le_refl _⟩
    show (stream.client.registered data).flatten.take (stream.client.registered data).flatten.length =
      data.take data.length
    rw [whole]
  | refused => exact writes.elim

theorem handing_buffers (buffers : List Bytes) (outcome : Outcome) :
    (outcome.handing buffers).buffers = buffers := by
  cases outcome with
  | wrote written => rfl
  | queued => rfl
  | refused => rfl

/-- The writes after a call of `_send`. -/
theorem Handed.send (isHanded : stream.Handed) {data : Bytes} {outcome : Outcome}
    (writes : stream.Writes data outcome) :
    (stream.client.send data outcome).Numbered ∧
      (stream.client.send data outcome).queued <:+
        stream.handed ++ (outcome.handing (stream.client.registered data)).bytes := by
  cases outcome with
  | wrote written =>
    obtain ⟨numbered, owed⟩ := isHanded.numbered.send_wrote data written
    refine ⟨numbered, ?_⟩
    unfold SSLClient.queued
    rw [owed, writes.2.2]
    exact List.nil_suffix
  | queued =>
    obtain ⟨numbered, queued⟩ := isHanded.numbered.send_queued data
    have whole : (Outcome.queued.handing (stream.client.registered data)).bytes = data :=
      (handing_bytes writes).1.trans (List.take_length ..)
    refine ⟨numbered, ?_⟩
    rw [queued, whole]
    exact (List.suffix_append_self_iff).mpr isHanded.queued
  | refused => exact writes.elim

/-- **A call of `__send`.** -/
theorem Handed.push (isHanded : stream.Handed) {size : Nat} {outcome : Outcome}
    (writes : stream.Writes (stream.pending.take size) outcome) :
    (stream.push size outcome).Handed := by
  unfold TlsStream.push SSLClient.ioSend
  by_cases isOpen : stream.client.isOpen = true
  · obtain ⟨bytes, bounded⟩ := handing_bytes writes
    obtain ⟨numbered, queued⟩ := isHanded.send writes
    have count : SSLClient.sendCount (stream.pending.take size) outcome ≤ size :=
      bounded.trans (List.length_take_le _ _)
    rw [List.take_take, Nat.min_eq_left count] at bytes
    have handed : ∀ client pending, ({ stream with
        client, pending,
        handings := stream.handings ++
          [outcome.handing (stream.client.registered (stream.pending.take size))] } :
          TlsStream).handed = stream.handed ++
        (outcome.handing (stream.client.registered (stream.pending.take size))).bytes := by
      intro client pending
      simp [TlsStream.handed]
    simp only [isOpen, if_true]
    refine ⟨numbered, ?_, ?_, ?_⟩
    · rw [handed, bytes, List.append_assoc, List.take_append_drop]
      exact isHanded.conserved
    · rw [handed]
      exact queued
    · intro handing inside
      rcases List.mem_append.mp inside with old | new
      · exact isHanded.buffers handing old
      · rw [List.mem_singleton.mp new, handing_buffers, SSLClient.registered_eq]
        exact fun buffer inside => mem_chunks inside
  · simp only [isOpen, if_false, Bool.false_eq_true]
    exact isHanded

/-- **One step.** -/
theorem Handed.step (isHanded : stream.Handed) {event : TlsEvent}
    (stepped : stream.step event = some next) : next.Handed := by
  obtain ⟨numbered, conserved, queued, buffers⟩ := isHanded
  cases event with
  | produce data =>
    obtain rfl := Option.some.inj stepped
    refine ⟨numbered, ?_, queued, buffers⟩
    rw [← conserved]
    exact (List.append_assoc ..).symm
  | push size outcome =>
    obtain ⟨⟨_, writes⟩, same⟩ := Option.ite_none_right_eq_some.mp stepped
    exact Option.some.inj same ▸ Handed.push ⟨numbered, conserved, queued, buffers⟩ writes
  | client event =>
    obtain ⟨permits, same⟩ := Option.ite_none_right_eq_some.mp stepped
    obtain ⟨client, isClient, rfl⟩ := Option.map_eq_some_iff.mp same
    by_cases completes : ∃ request, event = .sent request
    · obtain ⟨request, rfl⟩ := completes
      obtain ⟨stillNumbered, split⟩ := numbered.sent (beq_iff_eq.mp permits) isClient
      refine ⟨stillNumbered, conserved, ?_, buffers⟩
      exact (List.suffix_append _ client.queued).trans (split ▸ queued)
    · have noSend : ∀ data outcome, event ≠ .send data outcome := by
        rintro data outcome rfl
        cases permits
      have same := SSLClient.step_sameWrites isClient noSend fun request isSent =>
        completes ⟨request, isSent⟩
      refine ⟨same.numbered numbered, conserved, ?_, buffers⟩
      show client.queued <:+ stream.handed
      rw [same.queued]
      exact queued

/-- A connection that was just accepted. -/
def start (timeoutTime : Nat) (context : Option ClientContext) : TlsStream :=
  ⟨{ timeoutTime, context }, [], [], []⟩

/-- Five bytes: two are written at once, and three are queued and completed. -/
def pieces : List TlsEvent :=
  [.produce (text "20 ok"), .push 5 (.wrote 2), .client .onWriteReturns, .push 3 .queued,
    .client (.sent 1), .client .onWriteReturns]

end TlsStream

end GemCaps
