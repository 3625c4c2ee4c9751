/-
**Requests in contexts of one pool** (`request_allocator` and the callbacks of `filehandler.cpp`).

`Serving` gives every request variables of its own. In the program they are in a `RequestContext` that
`request_allocator` hands out and that an earlier request may have used: a callback gets the address
of a context, and finds the client, the handler and the file there. Whatever is sent goes to the client
that the context names. A new client may get the address of one that is gone. Only the contexts in the
pool itself are constructed; the program is over when a request gets another one.

* `Requests.step`: one callback, with the memory it works on.
* `step_stale`: what an older request has left in a context does not matter.
-/

import GemCaps.Files.Release
import GemCaps.Memory.Loans
import Mathlib.Logic.Function.Basic

namespace GemCaps

open Transition

/-- `RequestContext`; its `uv_fs_t` is in `inFlight` while libuv works on it. -/
structure RequestContext (Address : Type) where
  client : Address
  handler : FileHandler
  file : Bytes
  fd : Int
  offset : Nat

/-- An operation that libuv works on, and the client for whose request it was started. -/
structure Flight (Pointer Address : Type) where
  context : Pointer
  operation : Operation
  starter : Address
deriving DecidableEq

/-- A `CGIRunner` that `run_cgi` made. -/
structure HeapRunner (Pointer Address : Type) where
  context : Pointer
  cgi : CGIRunner
  starter : Address

/-- A client with its request; `past` are the callbacks of the request, and `trace` is all that was
done through its address since then. -/
structure ServedClient where
  handler : FileHandler
  request : Request
  callback : Option CloseCallback
  connected : Bool := true
  trace : List Action
  past : List ServingEvent := []

/-- The memory of the program; `memory` is what the contexts of the pool itself hold. -/
structure Requests (Pointer Address : Type) where
  pool : Pool Pointer
  memory : Pointer → RequestContext Address
  clients : Address → Option ServedClient := fun _ => none
  inFlight : List (Flight Pointer Address) := []
  runners : List (HeapRunner Pointer Address) := []
  crashed : Bool := false

/-- What happens to the requests. -/
inductive RequestsEvent (Pointer Address : Type) where
  /-- `FileHandler::handle`; `iteration` and `chunk` are for `allocate`. -/
  | handle (address : Address) (handler : FileHandler) (request : Request)
      (iteration : Iteration (Pointer × List Pointer)) (chunk : Pointer)
  | callback (flight : Flight Pointer Address) (event : ServingEvent)
  | running (index : Nat) (event : ServingEvent)
  | closed (address : Address)

/-- The callback of an operation on a `uv_fs_t`. -/
def ServingEvent.ofFile : ServingEvent → Bool
  | .statDone _ _ | .scanDone _ _ | .openDone _ | .readDone _ _ | .closeDone => true
  | .pipeRead _ _ | .processExit | .pipeClosed | .connectionClosed => false

/-- A callback of the pipe or the process of a `CGIRunner`. -/
def ServingEvent.ofRunner : ServingEvent → Bool
  | .pipeRead _ _ | .processExit | .pipeClosed => true
  | .statDone _ _ | .scanDone _ _ | .openDone _ | .readDone _ _ | .closeDone | .connectionClosed =>
    false

/-- Something of it can still call back. -/
def CGIRunner.busy (runner : CGIRunner) : Bool := runner.alive || runner.response || runner.closing

namespace Requests

section Operations

variable {Pointer Address : Type} [DecidableEq Pointer] [DecidableEq Address] (system : System)
  (itemAt : Pointer → Nat → Pointer) (allocSize : Nat) (stack : Pointer)
  (requests : Requests Pointer Address)

/-- The program before the first request; nothing is known of what the memory holds. -/
def create (memory : Pointer → RequestContext Address) : Requests Pointer Address :=
  { pool := Pool.create itemAt allocSize stack, memory }

/-- What a callback sees through the address of its context. -/
def seen (context : RequestContext Address) (client : ServedClient) (pending : Option Operation)
    (runner : Option CGIRunner) : Serving :=
  { request := client.request, file := context.file, fd := context.fd, offset := context.offset
    pending, runner, callback := client.callback, connected := client.connected, trace := client.trace }

/-- What a callback has done to a client. -/
def added (client : ServedClient) (next : Serving) : List Action := next.trace.drop client.trace.length

/-- What a callback leaves in its context, with the client that the context names, and in the pool. -/
def commit (pointer : Pointer) (client : ServedClient) (next : Serving) : Requests Pointer Address :=
  let context := requests.memory pointer
  { requests with
    pool :=
      if .release .context ∈ added client next then requests.pool.deallocate allocSize pointer
      else requests.pool
    memory := Function.update requests.memory pointer
      { context with file := next.file, fd := next.fd, offset := next.offset }
    clients := Function.update requests.clients context.client (some
      { client with callback := next.callback, connected := next.connected, trace := next.trace })
    crashed := next.crashed }

/-- Note that a callback belongs to the request of a client. -/
def note (starter : Address) (event : ServingEvent) : Requests Pointer Address :=
  { requests with
    clients := Function.update requests.clients starter ((requests.clients starter).map fun client =>
      { client with past := client.past ++ [event] }) }

/-- `FileHandler::handle` for a client at this address. The contexts of a heap chunk are raw memory
without a `std::string`: assigning to `file` there is the end of the program. -/
def handle (address : Address) (handler : FileHandler) (request : Request)
    (iteration : Iteration (Pointer × List Pointer)) (chunk : Pointer) :
    Option (Requests Pointer Address) :=
  let served := Serving.handle handler request
  let client : ServedClient :=
    { handler, request, callback := served.callback, trace := served.trace }
  let clients := Function.update requests.clients address (some client)
  if .acquire .context ∈ served.trace then
    if (requests.pool.take iteration).isNone → requests.pool.Fresh itemAt allocSize stack chunk then
      (requests.pool.allocate itemAt allocSize iteration chunk).map fun both =>
        if both.1 ∈ block itemAt allocSize stack then
          { requests with
            pool := both.2
            memory := Function.update requests.memory both.1
              { requests.memory both.1 with client := address, handler, file := served.file }
            clients
            inFlight := requests.inFlight ++ (served.pending.map (⟨both.1, ·, address⟩)).toList }
        else { requests with pool := both.2, crashed := true }
    else none
  else some { requests with clients }

/-- The callback of an operation. -/
def callback (flight : Flight Pointer Address) (event : ServingEvent) :
    Option (Requests Pointer Address) := do
  let context := requests.memory flight.context
  let client ← requests.clients context.client
  let next ← (seen context client (some flight.operation) none).step system context.handler event
  let after := (requests.commit allocSize flight.context client next).note flight.starter event
  return { after with
    inFlight := requests.inFlight.erase flight ++
      (next.pending.map (⟨flight.context, ·, flight.starter⟩)).toList
    runners := requests.runners ++
      (next.runner.map (⟨flight.context, ·, flight.starter⟩)).toList }

/-- A callback of a `CGIRunner`. -/
def running (index : Nat) (event : ServingEvent) : Option (Requests Pointer Address) := do
  let runner ← requests.runners[index]?
  let context := requests.memory runner.context
  let client ← requests.clients context.client
  let next ← (seen context client none (some runner.cgi)).step system context.handler event
  let cgi ← next.runner
  let after := (requests.commit allocSize runner.context client next).note runner.starter event
  return { after with runners := requests.runners.set index { runner with cgi } }

/-- `on_close`; the context of a client is the `Manager`, so that no callback of a request runs. -/
def closed (address : Address) : Option (Requests Pointer Address) := do
  let client ← requests.clients address
  if client.connected then
    return { requests with
      clients := Function.update requests.clients address
        (some { client with connected := false, past := client.past ++ [.connectionClosed] }) }
  else none

/-- One event; `none` where it cannot come. -/
def step (event : RequestsEvent Pointer Address) : Option (Requests Pointer Address) :=
  if requests.crashed then none
  else match event with
    | .handle address handler request iteration chunk =>
      if (requests.clients address).all fun client => !client.connected then
        requests.handle itemAt allocSize stack address handler request iteration chunk
      else none
    | .callback flight event =>
      if flight ∈ requests.inFlight ∧ event.ofFile then requests.callback system allocSize flight event
      else none
    | .running index event =>
      if event.ofRunner then requests.running system allocSize index event else none
    | .closed address => requests.closed address

/-- No callback that can still come names the client at this address. -/
def Unreferenced (address : Address) : Prop :=
  (∀ flight ∈ requests.inFlight, (requests.memory flight.context).client ≠ address) ∧
    ∀ runner ∈ requests.runners, runner.cgi.busy = true →
      (requests.memory runner.context).client ≠ address

/-- A new client does not get an address that a callback still names. -/
def Placed (event : RequestsEvent Pointer Address) : Prop :=
  match event with
  | .handle address _ _ _ _ => requests.Unreferenced address
  | .callback _ _ | .running _ _ | .closed _ => True

instance : (event : RequestsEvent Pointer Address) → Decidable (requests.Placed event)
  | .handle _ _ _ _ _ => inferInstanceAs (Decidable (_ ∧ _))
  | .callback _ _ | .running _ _ | .closed _ => inferInstanceAs (Decidable True)

end Operations

end Requests

/-! ### What is left in a context -/

namespace Serving

variable {system : System} {handler : FileHandler} {serving next : Serving} {event : ServingEvent}

/-- What an older request has left in the context. -/
def stale (serving : Serving) (fd : Int) (offset : Nat) : Serving := { serving with fd, offset }

section Stale

variable {fd : Int} {offset : Nat}

theorem interrupt_stale (runner : CGIRunner) :
    (serving.stale fd offset).interrupt runner = (serving.interrupt runner).stale fd offset := by
  unfold interrupt
  split <;> rfl

theorem closeRunner_stale (runner : CGIRunner) :
    (serving.stale fd offset).closeRunner runner = (serving.closeRunner runner).stale fd offset := by
  unfold closeRunner
  rw [interrupt_stale]
  split <;> rfl

theorem onPipeRead_stale (runner : CGIRunner) (nread : Int) (data : Bytes) :
    (serving.stale fd offset).onPipeRead runner nread data =
      (serving.onPipeRead runner nread data).stale fd offset := by
  unfold onPipeRead
  rw [closeRunner_stale]
  split <;> rfl

theorem pipe_stale :
    (serving.stale fd offset).pipe system = (serving.pipe system).stale fd offset := by
  unfold pipe
  split <;> rfl

theorem spawn_stale (runner : CGIRunner) :
    (serving.stale fd offset).spawn system runner =
      (serving.spawn system runner).stale fd offset := by
  unfold spawn
  split
  · rfl
  · split
    · exact @closeRunner_stale { serving.act [.spawn runner.executor, .send cgiError] with
        runner := some runner } fd offset runner
    · rfl

theorem runCgi_stale :
    (serving.stale fd offset).runCgi system handler =
      (serving.runCgi system handler).stale fd offset := by
  have prepared := @pipe_stale system { serving.act [.setClientCloseCallback .runnerClosed] with
    callback := some .runnerClosed } fd offset
  unfold runCgi run
  refine Eq.trans ?_ (spawn_stale _)
  exact congrArg (fun ready => Serving.spawn system ready _) prepared

theorem readFile_stale :
    (serving.stale fd offset).readFile system handler =
      (serving.readFile system handler).stale fd offset := by
  unfold readFile
  rw [runCgi_stale, apply_ite (stale · fd offset)]
  rfl

theorem handleOnStat_stale (result : Int) (mode : Nat) :
    (serving.stale fd offset).handleOnStat system handler result mode =
      (serving.handleOnStat system handler result mode).stale fd offset := by
  unfold handleOnStat
  rw [readFile_stale]
  simp only [apply_ite (stale · fd offset)]
  rfl

theorem listDirectory_stale (folders children : List Bytes) :
    (serving.stale fd offset).listDirectory handler folders children =
      (serving.listDirectory handler folders children).stale fd offset := by
  unfold listDirectory
  rw [apply_ite (stale · fd offset)]
  rfl

theorem dirOnScan_stale (result : Int) (entries : List Dirent) :
    (serving.stale fd offset).dirOnScan system handler result entries =
      (serving.dirOnScan system handler result entries).stale fd offset := by
  have same : (serving.stale fd offset).file = serving.file := rfl
  unfold dirOnScan
  by_cases failed : result < 0
  · rw [if_pos failed, if_pos failed]
    rfl
  · rw [if_neg failed, if_neg failed]
    cases ends : (scan handler serving.file entries [] []).2 with
    | accepted newFile =>
      simp only [same, ends]
      exact @readFile_stale system handler
        { serving.act (scan handler serving.file entries [] []).1 with file := newFile } fd offset
    | exhausted folders children =>
      simp only [same, ends]
      exact @listDirectory_stale handler (serving.act (scan handler serving.file entries [] []).1)
        fd offset folders children

/-- `file_on_open` sets both values before they are used. -/
theorem fileOnOpen_stale {result : Int} (isOpen : 0 ≤ result) :
    (serving.stale fd offset).fileOnOpen system result = serving.fileOnOpen system result := by
  have succeeded : ¬ result < 0 := Int.not_lt.mpr isOpen
  unfold fileOnOpen
  rw [if_neg succeeded, if_neg succeeded]
  rfl

end Stale

/-- The file of the context is being read. -/
def Reads (serving : Serving) : Prop := ∃ fd offset, serving.pending = some (.read fd offset)

/-- Reading a file does not start with a read. -/
theorem Reading.not_reads (reading : Reading system handler serving next)
    (idle : serving.pending = none) : ¬ next.Reads := by
  rintro ⟨fd, offset, pending⟩
  cases reading with
  | quiet quietly => simp [quietly.pending, idle] at pending
  | opens plain => simp [start] at pending
  | spawns executable env prepared quietly =>
    simp [quietly.pending, act, prepared.pending, idle] at pending

theorem handleOnStat_not_reads (result : Int) (mode : Nat) :
    ¬ (serving.finish.handleOnStat system handler result mode).Reads := by
  rcases handleOnStat_cases system handler serving.finish result mode with
    ⟨response, same⟩ | ⟨_, same⟩ | ⟨_, same⟩
  · rw [same]
    rintro ⟨fd, offset, pending⟩
    cases pending
  · rw [same]
    rintro ⟨fd, offset, pending⟩
    simp [readDir, start] at pending
  · rw [same]
    exact (readFile_reading system handler serving.finish).not_reads rfl

theorem dirOnScan_not_reads (result : Int) (entries : List Dirent) :
    ¬ (serving.finish.dirOnScan system handler result entries).Reads := by
  rcases dirOnScan_cases system handler serving.finish result entries with
    ⟨_, said, same, _⟩ | ⟨_, entry, _, verdicts, same, _⟩
  · rw [same]
    rintro ⟨fd, offset, pending⟩
    cases pending
  · rw [same]
    exact (readFile_reading system handler _).not_reads rfl

@[simp] theorem stale_crashed (fd : Int) (offset : Nat) :
    (serving.stale fd offset).crashed = serving.crashed := rfl

@[simp] theorem stale_pending (fd : Int) (offset : Nat) :
    (serving.stale fd offset).pending = serving.pending := rfl

@[simp] theorem stale_runner (fd : Int) (offset : Nat) :
    (serving.stale fd offset).runner = serving.runner := rfl

@[simp] theorem stale_connected (fd : Int) (offset : Nat) :
    (serving.stale fd offset).connected = serving.connected := rfl

/-- Any other callback does the same whatever the context holds. -/
theorem step_stale_of_idle {fd : Int} {offset : Nat} (idle : ¬ serving.Reads)
    (other : ∀ result, event = .openDone result → result < 0) :
    (serving.stale fd offset).step system handler event =
      (serving.step system handler event).map (stale · fd offset) := by
  cases alive : serving.crashed with
  | true =>
    rw [step_of_crashed alive, Option.map_none]
    exact step_of_crashed alive
  | false =>
    unfold Serving.step
    simp only [stale_crashed, alive, stale_pending, stale_runner, stale_connected,
      Bool.false_eq_true, if_false]
    split
    · exact congrArg some (@handleOnStat_stale system handler serving.finish fd offset _ _)
    · exact congrArg some (@dirOnScan_stale system handler serving.finish fd offset _ _)
    · next result path isOpen =>
      have failed : result < 0 := other result rfl
      refine congrArg some ?_
      unfold fileOnOpen
      rw [if_pos failed, if_pos failed]
      rfl
    · next isRead => exact absurd ⟨_, _, isRead⟩ idle
    · rfl
    · rw [onPipeRead_stale]
      split <;> rfl
    · unfold onExit
      rw [closeRunner_stale]
      split <;> rfl
    · split <;> rfl
    · show (if serving.connected = true then some ((serving.onClose .manager).stale fd offset)
        else none) = _
      split <;> rfl
    · simp

theorem step_openDone (result : Int) :
    serving.step system handler (.openDone result) =
      if serving.crashed then none
      else match serving.pending with
        | some (.openFile _) => some (serving.finish.fileOnOpen system result)
        | _ => none := by
  unfold Serving.step
  refine if_congr Iff.rfl rfl ?_
  rcases serving.pending with _ | (_ | _ | _ | _ | _) <;> rfl

theorem step_stale_of_open {fd : Int} {offset : Nat} {result : Int} (succeeded : 0 ≤ result) :
    (serving.stale fd offset).step system handler (.openDone result) =
      serving.step system handler (.openDone result) := by
  rw [step_openDone, step_openDone]
  have same := @fileOnOpen_stale system serving.finish fd offset result succeeded
  exact congrArg (fun opened => if serving.crashed then none
    else match serving.pending with
      | some (.openFile _) => some opened
      | _ => none) same

/-- A read goes on, or starts when the file has been opened. -/
theorem Stepped.reads_cases (stepped : Stepped system handler serving event next)
    (reads : next.Reads) : serving.Reads ∨ ∃ result, event = .openDone result ∧ 0 ≤ result := by
  cases stepped with
  | statDone result mode waits => exact absurd reads (handleOnStat_not_reads result mode)
  | scanDone result entries waits => exact absurd reads (dirOnScan_not_reads result entries)
  | openDone result waits =>
    refine .inr ⟨result, rfl, Int.not_lt.mp fun failed => ?_⟩
    unfold fileOnOpen at reads
    rw [if_pos failed] at reads
    obtain ⟨fd, offset, pending⟩ := reads
    cases pending
  | readDone result data waits => exact .inl ⟨_, _, waits⟩
  | closeDone waits =>
    obtain ⟨fd, offset, pending⟩ := reads
    cases pending
  | running runs quietly other =>
    obtain ⟨fd, offset, pending⟩ := reads
    exact .inl ⟨fd, offset, quietly.pending ▸ pending⟩
  | connectionClosed => exact .inl reads

/-- **What an older request has left in the context does not matter**: as long as the file is not
being read, the step is the same, and once it is read the values are those of this request. -/
theorem step_stale {fd : Int} {offset : Nat}
    (settled : serving.Reads → fd = serving.fd ∧ offset = serving.offset)
    (stepped : (serving.stale fd offset).step system handler event = some next) :
    ∃ exactly, serving.step system handler event = some exactly ∧
      next = exactly.stale next.fd next.offset ∧
      (exactly.Reads → next.fd = exactly.fd ∧ next.offset = exactly.offset) := by
  by_cases reads : serving.Reads
  · obtain ⟨rfl, rfl⟩ := settled reads
    exact ⟨next, stepped, rfl, fun _ => ⟨rfl, rfl⟩⟩
  · by_cases isOpen : ∃ result, event = .openDone result ∧ 0 ≤ result
    · obtain ⟨result, rfl, succeeded⟩ := isOpen
      rw [step_stale_of_open succeeded] at stepped
      exact ⟨next, stepped, rfl, fun _ => ⟨rfl, rfl⟩⟩
    · rw [step_stale_of_idle reads fun result same => Int.not_le.mp fun succeeded =>
        isOpen ⟨result, same, succeeded⟩] at stepped
      obtain ⟨exactly, isExactly, rfl⟩ := Option.map_eq_some_iff.mp stepped
      refine ⟨exactly, isExactly, rfl, fun reading => ?_⟩
      exact absurd ((stepped_of_step isExactly).reads_cases reading) (not_or.mpr ⟨reads, isOpen⟩)

end Serving

end GemCaps
