/-
**The writes under addresses are the writes under numbers.**

`SSLClient` numbers its writes where the source has the addresses of the `uv_write_t`, and these come
back. `Numbered number writing client`: `client` is `writing` with every request replaced by its
number. A write that is registered gets the next number, whatever its address was used for before, and
every step of `WritingClient` is one of `SSLClient` (`Numbered.step`).

`run_numbered`: every run of `WritingClient` in which `_send` is called on an open client, as
`SSLServer::__send` does, is a run of `SSLClient`.
-/

import GemCaps.Connection.Writes
import Mathlib.Logic.Function.Basic

namespace GemCaps

open Transition

namespace WritingClient

/-- The client holds what the writing client holds, with the requests numbered. -/
structure Numbered (number : Address → Nat) (writing : WritingClient) (client : SSLClient) : Prop where
  attached : client.client = writing.attached
  queuedWrites : client.queuedWrites = writing.queuedWrites.toNat
  queuedClose : client.queuedClose = writing.queuedClose
  closing : client.closing = writing.closing
  context : client.context = writing.context
  writeRequests : client.writeRequests =
    writing.writeRequests.map fun entry => (number entry.1, entry.2.map UvBuf.bytes)
  owed : client.owed = writing.owed.map number
  onWrites : client.onWrites = writing.running.length
  apart : ∀ first ∈ writing.requests, ∀ second ∈ writing.requests,
    number first = number second → first = second
  below : ∀ request ∈ writing.requests, number request < client.nextRequest

/-- What an event is for `SSLClient`. -/
def numberedEvents (number : Address → Nat) (writing : WritingClient) : WritingEvent → List ClientEvent
  | .send data _ _ outcome => [.send data outcome]
  | .close => [.close]
  | .crash => [.crash]
  | .onWriteReturns => [.onWriteReturns]
  | .sent request => [.sent (number request)]
  | .closed => [.closed]
  | .onCloseReturns _ | .destroyed _ => if writing.closing then [] else [.crash]

/-- `_send` is called on an open client. -/
def Guarded (writing : WritingClient) : WritingEvent → Prop
  | .send _ _ _ _ => writing.client = true ∧ writing.closing = false
  | _ => True

theorem zipWith_bytes {bases : List Address} {contents : List Bytes}
    (many : bases.length = contents.length) :
    (List.zipWith UvBuf.mk bases contents).map UvBuf.bytes = contents := by
  rw [← List.map_uncurry_zip_eq_zipWith, List.map_map]
  exact List.map_snd_zip many.ge

theorem onWriteEnd_pop (writing : WritingClient) (request : Address) (others : List Address) :
    { writing with running := others }.onWriteEnd request =
      { writing.onWriteEnd request with running := others } := by
  unfold onWriteEnd WritingClient.close
  split
  · split <;> rfl
  · rfl

theorem map_erase_of_apart {number : Address → Nat} {addresses : List Address} {request : Address}
    (apart : ∀ other ∈ addresses, number other = number request → other = request) :
    (addresses.map number).erase (number request) = (addresses.erase request).map number := by
  induction addresses with
  | nil => rfl
  | cons first addresses ih =>
    obtain ⟨isFirst, others⟩ := List.forall_mem_cons.mp apart
    by_cases same : first = request
    · rw [same, List.map_cons, List.erase_cons_head, List.erase_cons_head]
    · have differs : number first ≠ number request := fun equal => same (isFirst equal)
      rw [List.map_cons, List.erase_cons_tail (by simpa using differs),
        List.erase_cons_tail (by simpa using same), List.map_cons, ih others]

namespace Numbered

variable {number : Address → Nat} {writing next : WritingClient} {client : SSLClient}
  {request : Address}

theorem queues_iff (numbered : Numbered number writing client) :
    0 < client.queuedWrites ↔ 0 < writing.queuedWrites := by
  rw [numbered.queuedWrites, UInt64.lt_iff_toNat_lt]
  rfl

theorem empty_iff (numbered : Numbered number writing client) :
    client.queuedWrites = 0 ↔ writing.queuedWrites = 0 := by
  rw [numbered.queuedWrites, ← UInt64.toNat_inj]
  rfl

theorem close (numbered : Numbered number writing client) :
    Numbered number writing.close client.close := by
  unfold WritingClient.close SSLClient.close
  simp only [numbered.queues_iff, numbered.queuedClose]
  split
  · exact { numbered with queuedClose := rfl }
  · exact { numbered with closing := rfl, queuedClose := rfl }

theorem crash (numbered : Numbered number writing client) :
    Numbered number writing.crash client.crash :=
  { numbered with closing := rfl, queuedClose := rfl }

theorem onWriteEnd (numbered : Numbered number writing client) :
    Numbered number (writing.onWriteEnd request) client.onSendEnd := by
  unfold WritingClient.onWriteEnd SSLClient.onSendEnd
  rw [numbered.queuedClose]
  split
  · exact { numbered.close with }
  · exact { numbered with }

theorem notify (numbered : Numbered number writing client) :
    Numbered number (writing.notify request) client.notify := by
  unfold WritingClient.notify SSLClient.notify
  simp only [numbered.empty_iff, numbered.context]
  split
  · cases writing.context with
    | none => exact numbered.onWriteEnd
    | some context =>
      exact { numbered with context := rfl, onWrites := congrArg (· + 1) numbered.onWrites }
  · exact { numbered with }

/-- **A write that is completed**, under its address and under its number. -/
theorem forget (numbered : Numbered number writing client) (exact : writing.Exact [])
    (isKey : request ∈ writing.requests) :
    Numbered number (writing.forget request).uncount (client.forget (number request)) := by
  obtain ⟨buffers, found, whole⟩ := exists_entry exact.distinct isKey
  have counted := exact.one_le isKey
  have some : client.queuedWrites ≠ 0 := by
    rw [ne_eq, numbered.empty_iff]
    exact UInt64.pos_iff_ne_zero.mp (UInt64.lt_of_lt_of_le (by decide) counted)
  have isOthers : ∀ other ∈ (writing.writeRequests.filter fun entry => entry.1 != request).map
      Prod.fst, other ∈ writing.requests := by
    intro other isOther
    obtain ⟨entry, inside, rfl⟩ := List.mem_map.mp isOther
    exact List.mem_map_of_mem (List.mem_of_mem_filter inside)
  unfold WritingClient.forget SSLClient.forget
  rw [found]
  refine { numbered with queuedWrites := ?_, writeRequests := ?_, apart := ?_, below := ?_ }
  · show (if client.queuedWrites = 0 then 2 ^ 64 - 1 else client.queuedWrites - 1) =
      (if writing.queuedWrites - 1 < 0 then 0 else writing.queuedWrites - 1).toNat
    rw [if_neg some, if_neg UInt64.not_lt_zero, UInt64.toNat_sub_of_le _ _ counted,
      numbered.queuedWrites]
    rfl
  · show client.writeRequests.filter _ = (writing.writeRequests.filter _).map _
    rw [numbered.writeRequests, List.filter_map]
    refine congrArg _ (List.filter_congr fun entry inside => ?_)
    have isRequest : entry.1 ∈ writing.requests := List.mem_map_of_mem inside
    show (number entry.1 != number request) = (entry.1 != request)
    rw [Bool.eq_iff_iff, bne_iff_ne, bne_iff_ne]
    exact not_congr ⟨numbered.apart entry.1 isRequest request isKey, congrArg number⟩
  · exact fun first isFirst second isSecond =>
      numbered.apart first (isOthers first isFirst) second (isOthers second isSecond)
  · exact fun other isOther => numbered.below other (isOthers other isOther)

theorem onSend (numbered : Numbered number writing client) (exact : writing.Exact [])
    (attached : writing.attached = true) (isKey : request ∈ writing.requests) :
    Numbered number (writing.onSend request) (client.onSend (number request)) := by
  unfold WritingClient.onSend
  rw [if_pos attached]
  exact (numbered.forget exact isKey).notify

theorem resetTimeout (numbered : Numbered number writing client) :
    Numbered number writing client.resetTimeout := by
  unfold SSLClient.resetTimeout
  split
  · exact numbered
  · exact { numbered with }

section Register

variable {data : Bytes} {bases : List Address}

/-- **A write that is registered** gets the next number. -/
theorem register (numbered : Numbered number writing client) (exact : writing.Exact [])
    (handed : writing.HandedOut data bases request) :
    Numbered (Function.update number request client.nextRequest)
      (writing.register data bases request) (client.register data) := by
  have isNew := exact.isNew handed
  have same : ∀ other ∈ writing.requests,
      Function.update number request client.nextRequest other = number other :=
    fun other isOld => Function.update_of_ne (ne_of_mem_of_not_mem isOld isNew) ..
  have cases : ∀ other ∈ (writing.register data bases request).requests,
      other ∈ writing.requests ∨ other = request := by
    intro other isKey
    rw [exact.requests_register handed] at isKey
    exact (List.mem_append.mp isKey).imp_right List.mem_singleton.mp
  refine { numbered with
    queuedWrites := ?_, writeRequests := ?_, owed := ?_, apart := ?_, below := ?_ }
  · show client.queuedWrites + 1 = (writing.queuedWrites + 1).toNat
    have counted := (exact.register handed).counted
    rw [exact.writeRequests_register handed, List.length_append, ← exact.counted] at counted
    rw [numbered.queuedWrites]
    exact counted.symm
  · show client.writeRequests ++ [(client.nextRequest, chunks data.length data)] = _
    rw [exact.writeRequests_register handed, List.map_append, numbered.writeRequests]
    congr 1
    · refine List.map_congr_left fun entry inside => ?_
      rw [same entry.1 (List.mem_map_of_mem inside)]
    · rw [List.map_singleton, zipWith_bytes handed.1, Function.update_self]
  · show client.owed = writing.owed.map _
    rw [numbered.owed]
    exact List.map_congr_left fun other isOwed => (same other (exact.owedKnown other isOwed)).symm
  · intro first isFirst second isSecond equal
    rcases cases first isFirst with old | rfl <;> rcases cases second isSecond with old' | rfl
    · rw [same first old, same second old'] at equal
      exact numbered.apart first old second old' equal
    · rw [same first old, Function.update_self] at equal
      exact absurd equal (numbered.below first old).ne
    · rw [same second old', Function.update_self] at equal
      exact absurd equal.symm (numbered.below second old').ne
    · rfl
  · intro other isKey
    rcases cases other isKey with old | rfl
    · rw [same other old]
      exact (numbered.below other old).trans (Nat.lt_succ_self _)
    · rw [Function.update_self]
      exact Nat.lt_succ_self _

theorem send {outcome : Outcome} (numbered : Numbered number writing client)
    (exact : writing.Exact []) (attached : writing.attached = true)
    (handed : writing.HandedOut data bases request) :
    Numbered (Function.update number request client.nextRequest)
      (writing.send data bases request outcome) (client.send data outcome) := by
  have next : client.resetTimeout.nextRequest = client.nextRequest := by
    unfold SSLClient.resetTimeout
    split <;> rfl
  have registered := numbered.resetTimeout.register exact handed
  have isKey : request ∈ (writing.register data bases request).requests :=
    exact.requests_register handed ▸ List.mem_append_right _ List.mem_cons_self
  rw [next] at registered
  have isNumber : Function.update number request client.nextRequest request = client.nextRequest :=
    Function.update_self ..
  cases outcome with
  | wrote written =>
    have sent := registered.onSend (exact.register handed) attached isKey
    rw [isNumber] at sent
    exact sent
  | queued =>
    refine { registered with owed := ?_ }
    show client.resetTimeout.owed ++ [client.nextRequest] = (writing.owed ++ [request]).map _
    rw [List.map_append, List.map_singleton, isNumber]
    exact congrArg (· ++ [client.nextRequest]) registered.owed
  | refused => exact registered

end Register

theorem sent (numbered : Numbered number writing client) (exact : writing.Exact [])
    (isOwed : request ∈ writing.owed) :
    Numbered number ({ writing with owed := writing.owed.erase request }.onSend request)
      ({ client with owed := client.owed.erase (number request) }.onSend (number request)) := by
  have attached := exact.attached_of_owed isOwed
  have isKey := exact.owedKnown request isOwed
  have erased : Numbered number { writing with owed := writing.owed.erase request }
      { client with owed := client.owed.erase (number request) } := by
    refine { numbered with owed := ?_ }
    show client.owed.erase (number request) = (writing.owed.erase request).map number
    rw [numbered.owed]
    exact map_erase_of_apart fun other isOther =>
      numbered.apart other (exact.owedKnown other isOther) request isKey
  exact erased.onSend (exact.erase isOwed) attached isKey

/-- The destructor, which crashes a client that is not closing. -/
theorem destroy (numbered : Numbered number writing client)
    (iteration : Iteration (Address × List UvBuf)) :
    ∃ crashed, run SSLClient.step client (if writing.closing then [] else [.crash]) = some crashed ∧
      Numbered number (writing.destroy iteration) crashed := by
  unfold WritingClient.destroy
  cases writing.closing with
  | true => exact ⟨client, rfl, { numbered with }⟩
  | false => exact ⟨client.crash, rfl, { numbered.crash with }⟩

/-- **A step under addresses is a step under numbers.** -/
theorem step {event : WritingEvent} (numbered : Numbered number writing client)
    (exact : writing.Exact []) (guarded : writing.Guarded event)
    (stepped : writing.step event = some next) :
    ∃ renumber result,
      run SSLClient.step client (numberedEvents number writing event) = some result ∧
      Numbered renumber next result := by
  cases (stepped_of_step stepped).2 with
  | @send data bases request outcome alive takes fits handed =>
    obtain ⟨_, isOpen⟩ := guarded
    have attached : writing.attached = true := by
      by_contra isDetached
      have closing := (exact.detached (by simpa using isDetached)).2
      exact absurd (closing.symm.trans isOpen) (by decide)
    refine ⟨_, client.send data outcome, ?_, numbered.send exact attached handed⟩
    have both : client.isOpen = true ∧ outcome.fits data = true := by
      unfold SSLClient.isOpen
      rw [numbered.attached, numbered.closing, attached, isOpen]
      exact ⟨rfl, fits⟩
    exact (run_singleton ..).trans (if_pos both)
  | close => exact ⟨number, client.close, rfl, numbered.close⟩
  | crash => exact ⟨number, client.crash, rfl, numbered.crash⟩
  | @onWriteReturns request others running =>
    have waits : client.onWrites = others.length + 1 := by
      rw [numbered.onWrites, running]
      rfl
    have ended : Numbered number (writing.onWriteEnd request) client.onSendEnd := numbered.onWriteEnd
    refine ⟨number, _, (run_singleton ..).trans (if_pos (by omega)), ?_⟩
    rw [onWriteEnd_pop]
    refine { ended with onWrites := ?_ }
    show client.onWrites - 1 = others.length
    rw [waits]
    rfl
  | @sent request idle isOwed =>
    refine ⟨number, _, (run_singleton ..).trans (if_pos ⟨?_, ?_⟩), numbered.sent exact isOwed⟩
    · rw [numbered.onWrites, idle]
      rfl
    · rw [numbered.owed]
      exact List.mem_map_of_mem isOwed
  | closed idle attached closing completed =>
    refine ⟨number, { client with client := false, reading := false },
      (run_singleton ..).trans (if_pos ⟨?_, ?_, ?_, ?_⟩), { numbered with attached := rfl }⟩
    · rw [numbered.onWrites, idle]
      rfl
    · exact numbered.attached.trans attached
    · exact numbered.closing.trans closing
    · rw [numbered.owed, completed]
      rfl
  | @onCloseReturns iteration idle detached =>
    have released : Numbered number { writing with client := false } client := { numbered with }
    obtain ⟨crashed, ran, after⟩ := released.destroy iteration
    exact ⟨number, crashed, ran, after⟩
  | @destroyed iteration idle attached =>
    obtain ⟨crashed, ran, after⟩ := numbered.destroy iteration
    exact ⟨number, crashed, ran, after⟩

end Numbered

theorem numbered_start (context : Option ClientContext) (timeoutTime : Nat) :
    Numbered (fun _ => 0) { context } { context, timeoutTime } where
  attached := rfl
  queuedWrites := rfl
  queuedClose := rfl
  closing := rfl
  context := rfl
  writeRequests := rfl
  owed := rfl
  onWrites := rfl
  apart := fun _ isFirst => absurd isFirst List.not_mem_nil
  below := fun _ inside => absurd inside List.not_mem_nil

/-- **Every run under addresses is a run under numbers**, where `_send` is called on an open client. -/
theorem run_numbered {context : Option ClientContext} {timeoutTime : Nat}
    {events : List WritingEvent} {writing : WritingClient}
    (guarded : Along step Guarded { context } events)
    (ran : run step { context } events = some writing) :
    ∃ number clientEvents client,
      run SSLClient.step { context, timeoutTime } clientEvents = some client ∧
      Numbered number writing client := by
  have numbered : ∃ number clientEvents client,
      run SSLClient.step { context, timeoutTime } clientEvents = some client ∧
        Numbered number writing client ∧ (writing.Exact [] ∨ writing.Settled) := by
    refine run_invariant (fun writing => ∃ number clientEvents client,
      run SSLClient.step { context, timeoutTime } clientEvents = some client ∧
        Numbered number writing client ∧ (writing.Exact [] ∨ writing.Settled)) ?_ ?_ guarded ran
    · rintro state event next ⟨number, clientEvents, client, past, numbered, exact | settled⟩ isGuarded
        stepped
      · obtain ⟨renumber, result, later, after⟩ := numbered.step exact isGuarded stepped
        exact ⟨renumber, _, result, (run_append_eq_some _).mpr ⟨client, past, later⟩, after,
          exact.step stepped⟩
      · have alive := (stepped_of_step stepped).1
        exact absurd (settled.destroyed.symm.trans alive) (by decide)
    · exact ⟨fun _ => 0, [], { context, timeoutTime }, rfl, numbered_start context timeoutTime,
        .inl (exact_start context)⟩
  obtain ⟨number, clientEvents, client, past, after, _⟩ := numbered
  exact ⟨number, clientEvents, client, past, after⟩

end WritingClient

end GemCaps
