/-
**Every request has its context for itself.**

The requests of all clients share `request_allocator`, and a callback knows no more than the address
of a context (`Files.Contexts`). `Requests.run_private`: in every interleaving, the client of a request
has seen what it would have seen had its request been served with variables of its own, by the
callbacks of the operations that were started for it, as long as no new client gets an address that a
callback still names. The context of a request is given back only when nothing of the request can call
back any more (`released_of_step`), and `allocate` returns nothing that is in use. The run is over when
a request gets a context that is not constructed.
-/

import GemCaps.Files.Contexts

namespace GemCaps

open Transition

namespace Serving

variable {system : System} {handler : FileHandler} {request : Request} {serving next : Serving}
  {event : ServingEvent}

theorem run_request {events : List ServingEvent}
    (ran : Transition.run (step system handler) (handle handler request) events = some serving) :
    serving.request = request :=
  run_always (fun serving => serving.request = request)
    (fun _ _ _ same stepped => (step_request stepped).trans same) (handle_request handler request) ran

theorem step_connectionClosed (alive : serving.crashed = false)
    (isOpen : serving.connected = true) :
    serving.step system handler .connectionClosed = some { serving with connected := false } := by
  unfold Serving.step
  rw [if_neg (by simp [alive])]
  exact if_pos isOpen

/-! ### The runner -/

/-- A request with a runner waits for no operation. -/
def Alone (serving : Serving) : Prop := serving.pending = none ∨ serving.runner = none

theorem Reading.alone (reading : Reading system handler serving next)
    (idle : serving.pending = none) (noRunner : serving.runner = none) : next.Alone := by
  cases reading with
  | quiet quietly => exact .inl (quietly.pending.trans idle)
  | opens plain => exact .inr noRunner
  | spawns executable env prepared quietly =>
    exact .inl (quietly.pending.trans (prepared.pending.trans idle))

theorem fileOnOpen_runner (result : Int) :
    (serving.fileOnOpen system result).runner = serving.runner := by
  unfold fileOnOpen
  split
  · rfl
  · split <;> rfl

theorem fileOnRead_runner (result : Int) (data : Bytes) :
    (serving.fileOnRead result data).runner = serving.runner := by
  unfold fileOnRead
  split <;> rfl

theorem Alone.step (alone : serving.Alone)
    (stepped : serving.step system handler event = some next) : next.Alone := by
  have noRunner : ∀ operation, serving.pending = some operation → serving.runner = none :=
    fun operation waits => alone.resolve_left (by simp [waits])
  cases stepped_of_step stepped with
  | statDone result mode waits =>
    rcases handleOnStat_cases system handler serving.finish result mode with
      ⟨response, same⟩ | ⟨_, same⟩ | ⟨_, same⟩
    · rw [same]
      exact .inl rfl
    · rw [same]
      exact .inr (noRunner _ waits)
    · rw [same]
      exact (readFile_reading system handler serving.finish).alone rfl (noRunner _ waits)
  | scanDone result entries waits =>
    rcases dirOnScan_cases system handler serving.finish result entries with
      ⟨_, said, same, _⟩ | ⟨_, entry, _, verdicts, same, _⟩
    · rw [same]
      exact .inl rfl
    · rw [same]
      exact (readFile_reading system handler _).alone rfl (noRunner _ waits)
  | openDone result waits => exact .inr ((fileOnOpen_runner result).trans (noRunner _ waits))
  | readDone result data waits => exact .inr ((fileOnRead_runner result data).trans (noRunner _ waits))
  | closeDone waits => exact .inl rfl
  | running runs quietly other => exact .inl (quietly.pending.trans (alone.resolve_right runs))
  | connectionClosed => exact alone

theorem run_alone {events : List ServingEvent}
    (ran : Transition.run (step system handler) (handle handler request) events = some serving) :
    serving.Alone := by
  refine run_always Alone (fun serving event next alone stepped => alone.step stepped) ?_ ran
  by_cases admitted : Admitted handler request
  · rw [handle_of_admitted admitted]
    exact .inr rfl
  · obtain ⟨trace, same, _⟩ := handle_of_not_admitted admitted
    rw [same]
    exact .inr rfl

/-- The first state of a request. -/
structure Starts (serving : Serving) : Prop where
  runner : serving.runner = none
  connected : serving.connected = true
  intact : serving.crashed = false
  unread : ¬ serving.Reads
  idle : .acquire .context ∉ serving.trace → serving.pending = none

theorem handle_starts (handler : FileHandler) (request : Request) :
    (handle handler request).Starts := by
  by_cases admitted : Admitted handler request
  · rw [handle_of_admitted admitted]
    refine ⟨rfl, rfl, rfl, ?_, fun notAcquired => absurd ?_ notAcquired⟩
    · rintro ⟨fd, offset, pending⟩
      cases pending
    · simp
  · obtain ⟨trace, same, _⟩ := handle_of_not_admitted admitted
    rw [same]
    refine ⟨rfl, rfl, rfl, ?_, fun _ => rfl⟩
    rintro ⟨fd, offset, pending⟩
    cases pending

/-! ### The release -/

/-- **When a callback gives the context back**, nothing of the request can call back any more. -/
theorem released_of_step {events : List ServingEvent}
    (ran : Transition.run (step system handler) (handle handler request) events = some serving)
    (stepped : serving.step system handler event = some next)
    (released : .release .context ∈ next.trace.drop serving.trace.length) :
    next.pending = none ∧ next.runner = none := by
  by_cases admitted : Admitted handler request
  · have phase : Phase handler request events serving :=
      run_history (Phase handler request)
        (.inl ⟨.inl (waiting_handle admitted), fun ⟨_, _, inside, _⟩ => nomatch inside⟩)
        (fun _ _ _ _ phase stepped => phase_step phase stepped) ran
    have isReleased : Action.release .context ∈ next.trace := List.mem_of_mem_drop released
    have holds : ¬ Held next := fun held =>
      absurd isReleased (List.count_eq_zero.mp held.released)
    rcases phase_step phase stepped with ⟨waiting | leaked, _⟩ | ⟨dropped, _⟩
    · exact absurd waiting.held holds
    · exact absurd leaked.held holds
    · exact ⟨dropped.pending, dropped.runner⟩
  · obtain ⟨trace, same, _⟩ := handle_of_not_admitted admitted
    rw [same] at ran
    have rests : serving.pending = none ∧ serving.runner = none := by
      refine run_always (fun serving : Serving => serving.pending = none ∧ serving.runner = none) ?_
        ⟨rfl, rfl⟩ ran
      rintro state event next ⟨pending, runner⟩ stepped
      rw [step_of_idle pending runner stepped]
      exact ⟨pending, runner⟩
    rw [step_of_idle rests.1 rests.2 stepped]
    exact rests

/-- Only a runner of which something can still call back does so. -/
theorem busy_of_step {runner : CGIRunner} (isRunner : serving.runner = some runner)
    (ofRunner : event.ofRunner = true)
    (stepped : serving.step system handler event = some next) : runner.busy = true := by
  unfold Serving.step at stepped
  rw [isRunner] at stepped
  split at stepped
  · cases stepped
  · unfold CGIRunner.busy
    cases event with
    | pipeRead nread data =>
      obtain ⟨isOpen, _⟩ := Option.ite_none_right_eq_some.mp stepped
      simp [isOpen.1]
    | processExit =>
      obtain ⟨alive, _⟩ := Option.ite_none_right_eq_some.mp stepped
      simp [alive]
    | pipeClosed =>
      obtain ⟨closing, _⟩ := Option.ite_none_right_eq_some.mp stepped
      simp [closing]
    | statDone _ _ | scanDone _ _ | openDone _ | readDone _ _ | closeDone | connectionClosed =>
      cases ofRunner

end Serving

/-! ### The invariant -/

namespace Requests

section Invariant

variable {Pointer Address : Type} [DecidableEq Pointer] [DecidableEq Address] (system : System)
  (itemAt : Pointer → Nat → Pointer) (allocSize : Nat) (stack : Pointer)

/-- The context holds what the request needs, and is in use. -/
structure Holds (requests : Requests Pointer Address) (address : Address) (handler : FileHandler)
    (context : Pointer) (serving : Serving) : Prop where
  inUse : context ∈ requests.pool.inUse
  client : (requests.memory context).client = address
  handler : (requests.memory context).handler = handler
  file : (requests.memory context).file = serving.file
  settled : serving.Reads →
    (requests.memory context).fd = serving.fd ∧ (requests.memory context).offset = serving.offset

/-- The client stands where a request with variables of its own would have brought it. -/
structure Mirrors (requests : Requests Pointer Address) (address : Address) (client : ServedClient)
    (context : Pointer) (serving : Serving) : Prop where
  ran : run (Serving.step system client.handler) (Serving.handle client.handler client.request)
    client.past = some serving
  callback : client.callback = serving.callback
  connected : client.connected = serving.connected
  trace : client.trace = serving.trace
  crashed : serving.crashed = true → requests.crashed = true
  flights : requests.inFlight.filter (·.starter = address) =
    (serving.pending.map (⟨context, ·, address⟩)).toList
  runners : (requests.runners.filter fun runner => runner.starter = address ∧ runner.cgi.busy) =
    ((serving.runner.filter CGIRunner.busy).map (⟨context, ·, address⟩)).toList
  held : serving.pending ≠ none ∨ (∃ runner ∈ serving.runner, runner.busy = true) →
    requests.Holds address client.handler context serving

/-- The invariant. -/
structure Kept (requests : Requests Pointer Address) : Prop where
  sound : requests.pool.Sound itemAt allocSize stack
  started : ∀ flight ∈ requests.inFlight, (requests.clients flight.starter).isSome = true
  ofClient : ∀ runner ∈ requests.runners, runner.cgi.busy = true →
    (requests.clients runner.starter).isSome = true
  mirrors : ∀ address client, requests.clients address = some client →
    ∃ context serving, requests.Mirrors system address client context serving

variable {system itemAt allocSize stack} {requests after : Requests Pointer Address}
  {address : Address} {client : ServedClient} {context : Pointer} {serving : Serving}

omit [DecidableEq Pointer] in
/-- A client that is changed is still there, and so are the others. -/
theorem isSome_update {new : ServedClient} {other : Address}
    (isSome : (requests.clients other).isSome = true) :
    (Function.update requests.clients address (some new) other).isSome = true := by
  rw [Function.update_apply]
  split
  · rfl
  · exact isSome

omit [DecidableEq Pointer] in
/-- What does not concern a client leaves it as it is. -/
theorem Mirrors.frame (mirrors : requests.Mirrors system address client context serving)
    (crashed : requests.crashed = true → after.crashed = true)
    (flights : after.inFlight.filter (·.starter = address) =
      requests.inFlight.filter (·.starter = address))
    (runners : (after.runners.filter fun runner => runner.starter = address ∧ runner.cgi.busy) =
      requests.runners.filter fun runner => runner.starter = address ∧ runner.cgi.busy)
    (untouched : ∀ pointer ∈ requests.pool.inUse, (requests.memory pointer).client = address →
      pointer ∈ after.pool.inUse ∧ after.memory pointer = requests.memory pointer) :
    after.Mirrors system address client context serving := by
  refine ⟨mirrors.ran, mirrors.callback, mirrors.connected, mirrors.trace,
    fun broken => crashed (mirrors.crashed broken), flights.trans mirrors.flights,
    runners.trans mirrors.runners, fun active => ?_⟩
  have holds := mirrors.held active
  obtain ⟨inUse, same⟩ := untouched context holds.inUse holds.client
  exact ⟨inUse, same ▸ holds.client, same ▸ holds.handler, same ▸ holds.file, same ▸ holds.settled⟩

omit [DecidableEq Pointer] in
/-- An operation of a client is the one that its request waits for, with its context. -/
theorem Mirrors.flight (mirrors : requests.Mirrors system address client context serving)
    {flight : Flight Pointer Address} (inside : flight ∈ requests.inFlight)
    (isStarter : flight.starter = address) :
    serving.pending = some flight.operation ∧ flight = ⟨context, flight.operation, address⟩ := by
  have isOwn : flight ∈ requests.inFlight.filter (·.starter = address) :=
    List.mem_filter.mpr ⟨inside, decide_eq_true isStarter⟩
  rw [mirrors.flights, Option.mem_toList, Option.map_eq_some_iff] at isOwn
  obtain ⟨operation, pending, rfl⟩ := isOwn
  exact ⟨pending, rfl⟩

omit [DecidableEq Pointer] in
/-- So is a runner of which something can still call back. -/
theorem Mirrors.runner (mirrors : requests.Mirrors system address client context serving)
    {runner : HeapRunner Pointer Address} (inside : runner ∈ requests.runners)
    (busy : runner.cgi.busy = true) (isStarter : runner.starter = address) :
    serving.runner = some runner.cgi ∧ runner = ⟨context, runner.cgi, address⟩ := by
  have isOwn : runner ∈ requests.runners.filter fun runner =>
      runner.starter = address ∧ runner.cgi.busy :=
    List.mem_filter.mpr ⟨inside, decide_eq_true ⟨isStarter, busy⟩⟩
  rw [mirrors.runners, Option.mem_toList, Option.map_eq_some_iff] at isOwn
  obtain ⟨cgi, isCgi, rfl⟩ := isOwn
  exact ⟨(Option.filter_eq_some_iff.mp isCgi).1, rfl⟩

omit [DecidableEq Pointer] in
theorem Mirrors.alive (mirrors : requests.Mirrors system address client context serving)
    (intact : requests.crashed = false) : serving.crashed = false := by
  by_contra broken
  have crashed := mirrors.crashed (Bool.not_eq_false _ ▸ broken)
  rw [intact] at crashed
  cases crashed

omit [DecidableEq Pointer] in
/-- What a callback of the request sees in its context. -/
theorem Mirrors.seen_eq (mirrors : requests.Mirrors system address client context serving)
    (holds : requests.Holds address client.handler context serving)
    (intact : requests.crashed = false) {pending : Option Operation} {runner : Option CGIRunner}
    (isPending : serving.pending = pending) (isRunner : serving.runner = runner) :
    seen (requests.memory context) client pending runner =
      serving.stale (requests.memory context).fd (requests.memory context).offset := by
  have isRequest := Serving.run_request mirrors.ran
  have alive := mirrors.alive intact
  unfold seen Serving.stale
  rw [holds.file, mirrors.callback, mirrors.connected, mirrors.trace, ← isRequest, ← isPending,
    ← isRunner, ← alive]

/-! ### Callbacks -/

section Callback

variable {pending : Option Operation} {runner : Option CGIRunner} {event : ServingEvent}
  {next : Serving}

/-- The client after a callback of its request. -/
def called (client : ServedClient) (event : ServingEvent) (next : Serving) : ServedClient :=
  { client with
    callback := next.callback
    connected := next.connected
    trace := next.trace
    past := client.past ++ [event] }

theorem clients_note_commit (isClient : (requests.memory context).client = address) :
    ((requests.commit allocSize context client next).note address event).clients =
      Function.update requests.clients address (some (called client event next)) := by
  unfold note commit
  simp only [isClient, Function.update_self, Option.map_some, Function.update_idem]
  rfl

/-- The other contexts after a callback. -/
theorem untouched_of_commit {pointer : Pointer} (apart : pointer ≠ context)
    (inUse : pointer ∈ requests.pool.inUse) :
    pointer ∈ (requests.commit allocSize context client next).pool.inUse ∧
      (requests.commit allocSize context client next).memory pointer = requests.memory pointer := by
  refine ⟨?_, Function.update_of_ne apart _ _⟩
  show pointer ∈ (if _ then requests.pool.deallocate allocSize context else requests.pool).inUse
  split
  · exact Pool.mem_inUse_deallocate apart inUse
  · exact inUse

variable {flights : List (Flight Pointer Address)} {runners : List (HeapRunner Pointer Address)}

/-- **A callback of a request is a step of this request.** -/
theorem Mirrors.called (mirrors : requests.Mirrors system address client context serving)
    (holds : requests.Holds address client.handler context serving)
    (intact : requests.crashed = false) (isPending : serving.pending = pending)
    (isRunner : serving.runner = runner)
    (stepped : (seen (requests.memory context) client pending runner).step system
      (requests.memory context).handler event = some next)
    (ofFlights : flights.filter (·.starter = address) =
      (next.pending.map (⟨context, ·, address⟩)).toList)
    (ofRunners : (runners.filter fun runner => runner.starter = address ∧ runner.cgi.busy) =
      ((next.runner.filter CGIRunner.busy).map (⟨context, ·, address⟩)).toList) :
    ∃ exactly, ({ (requests.commit allocSize context client next).note address event with
      inFlight := flights, runners } : Requests Pointer Address).Mirrors system address
        (Requests.called client event next) context exactly := by
  rw [mirrors.seen_eq holds intact isPending isRunner, holds.handler] at stepped
  obtain ⟨exactly, isExactly, same, settled⟩ := Serving.step_stale holds.settled stepped
  have isPendingNext : next.pending = exactly.pending := (congrArg Serving.pending same :)
  have isRunnerNext : next.runner = exactly.runner := (congrArg Serving.runner same :)
  have isTrace : next.trace = exactly.trace := (congrArg Serving.trace same :)
  have ran : run (Serving.step system client.handler) (Serving.handle client.handler client.request)
      (client.past ++ [event]) = some exactly :=
    (run_concat_eq_some _).mpr ⟨serving, mirrors.ran, isExactly⟩
  have memory : ((requests.commit allocSize context client next).note address event).memory context =
      { requests.memory context with file := next.file, fd := next.fd, offset := next.offset } :=
    Function.update_self ..
  refine ⟨exactly, ran, (congrArg Serving.callback same :), (congrArg Serving.connected same :),
    isTrace, fun broken => (congrArg Serving.crashed same :).trans broken, ?_, ?_, fun active => ?_⟩
  · rw [← isPendingNext]
    exact ofFlights
  · rw [← isRunnerNext]
    exact ofRunners
  · -- What can still be called back holds on to its context.
    have notReleased : Action.release .context ∉ added client next := by
      unfold added
      rw [isTrace, mirrors.trace]
      intro released
      obtain ⟨idle, noRunner⟩ := Serving.released_of_step mirrors.ran isExactly released
      rcases active with waits | ⟨runner, runs, _⟩
      · exact waits idle
      · rw [noRunner] at runs
        cases runs
    have inUse : context ∈ ((requests.commit allocSize context client next).note address
        event).pool.inUse := by
      show context ∈ (if _ then requests.pool.deallocate allocSize context else requests.pool).inUse
      rw [if_neg notReleased]
      exact holds.inUse
    exact ⟨inUse, memory ▸ holds.client, memory ▸ holds.handler,
      memory ▸ (congrArg Serving.file same :), memory ▸ settled⟩

/-- The invariant after a callback, which leaves the other requests as they are. -/
theorem Kept.callback (kept : requests.Kept system itemAt allocSize stack)
    (intact : requests.crashed = false) (isClient : requests.clients address = some client)
    (mirrors : requests.Mirrors system address client context serving)
    (holds : requests.Holds address client.handler context serving)
    (isPending : serving.pending = pending) (isRunner : serving.runner = runner)
    (stepped : (seen (requests.memory context) client pending runner).step system
      (requests.memory context).handler event = some next)
    (ofFlights : flights.filter (·.starter = address) =
      (next.pending.map (⟨context, ·, address⟩)).toList)
    (ofRunners : (runners.filter fun runner => runner.starter = address ∧ runner.cgi.busy) =
      ((next.runner.filter CGIRunner.busy).map (⟨context, ·, address⟩)).toList)
    (otherFlights : ∀ other ≠ address,
      flights.filter (·.starter = other) = requests.inFlight.filter (·.starter = other))
    (otherRunners : ∀ other ≠ address,
      (runners.filter fun runner => runner.starter = other ∧ runner.cgi.busy) =
        requests.runners.filter fun runner => runner.starter = other ∧ runner.cgi.busy) :
    ({ (requests.commit allocSize context client next).note address event with
      inFlight := flights, runners } : Requests Pointer Address).Kept system itemAt allocSize stack := by
  have clients := @clients_note_commit _ _ _ _ allocSize requests address client context event next
    holds.client
  have known : ∀ other, (requests.clients other).isSome = true →
      (((requests.commit allocSize context client next).note address event).clients
        other).isSome = true := by
    rw [clients]
    exact fun other => isSome_update
  have own : ∀ other, other = address → (requests.clients other).isSome = true :=
    fun other isOwn => isOwn ▸ isClient ▸ rfl
  refine ⟨?_, fun flight inside => known _ ?_, fun heap inside busy => known _ ?_,
    fun other found isFound => ?_⟩
  · show (if _ then requests.pool.deallocate allocSize context else requests.pool).Sound _ _ _
    split
    · exact (kept.sound.deallocate context).sound
    · exact kept.sound
  · by_cases isOwn : flight.starter = address
    · exact own _ isOwn
    · have wasInside : flight ∈ requests.inFlight.filter (·.starter = flight.starter) := by
        rw [← otherFlights _ isOwn]
        exact List.mem_filter.mpr ⟨inside, decide_eq_true rfl⟩
      exact kept.started flight (List.mem_filter.mp wasInside).1
  · by_cases isOwn : heap.starter = address
    · exact own _ isOwn
    · have wasInside : heap ∈ requests.runners.filter fun runner =>
          runner.starter = heap.starter ∧ runner.cgi.busy := by
        rw [← otherRunners _ isOwn]
        exact List.mem_filter.mpr ⟨inside, decide_eq_true ⟨rfl, busy⟩⟩
      exact kept.ofClient heap (List.mem_filter.mp wasInside).1 busy
  · have isFound : Function.update requests.clients address
        (some (Requests.called client event next)) other = some found := clients ▸ isFound
    by_cases isOwn : other = address
    · subst isOwn
      rw [Function.update_self, Option.some.injEq] at isFound
      exact isFound ▸ ⟨context, mirrors.called holds intact isPending isRunner stepped ofFlights
        ofRunners⟩
    · rw [Function.update_of_ne isOwn] at isFound
      obtain ⟨otherContext, otherServing, otherMirrors⟩ := kept.mirrors other found isFound
      refine ⟨otherContext, otherServing, otherMirrors.frame (fun crashed => ?_)
        (otherFlights other isOwn) (otherRunners other isOwn) fun pointer inUse isOther => ?_⟩
      · rw [intact] at crashed
        cases crashed
      · refine untouched_of_commit (fun isContext => isOwn ?_) inUse
        rw [← isOther, isContext]
        exact holds.client

end Callback

/-! ### The steps -/

omit [DecidableEq Pointer] in
/-- The operation that a callback starts, in the list of a client. -/
theorem filter_started (operation : Option Operation) (starter other : Address) :
    ((operation.map (⟨context, ·, starter⟩)).toList.filter fun flight :
        Flight Pointer Address => flight.starter = other) =
      if starter = other then (operation.map (⟨context, ·, starter⟩)).toList else [] := by
  cases operation with
  | none => simp
  | some operation => by_cases same : starter = other <;> simp [same]

omit [DecidableEq Pointer] in
/-- The runner that a callback makes. -/
theorem filter_made (cgi : Option CGIRunner) (starter other : Address) :
    ((cgi.map (⟨context, ·, starter⟩)).toList.filter fun runner : HeapRunner Pointer Address =>
        runner.starter = other ∧ runner.cgi.busy) =
      if starter = other then ((cgi.filter CGIRunner.busy).map (⟨context, ·, starter⟩)).toList
      else [] := by
  cases cgi with
  | none => simp
  | some cgi =>
    by_cases same : starter = other
    · cases busy : cgi.busy <;> simp [same, busy, Option.filter]
    · simp [same]

theorem Kept.step_callback (kept : requests.Kept system itemAt allocSize stack)
    (intact : requests.crashed = false) {flight : Flight Pointer Address} {event : ServingEvent}
    (inside : flight ∈ requests.inFlight)
    (called : requests.callback system allocSize flight event = some after) :
    after.Kept system itemAt allocSize stack := by
  obtain ⟨client, isClient⟩ := Option.isSome_iff_exists.mp (kept.started flight inside)
  obtain ⟨context, serving, mirrors⟩ := kept.mirrors _ client isClient
  obtain ⟨pending, isFlight⟩ := mirrors.flight inside rfl
  have active : serving.pending ≠ none := by simp [pending]
  have holds := mirrors.held (.inl active)
  have noRunner := (Serving.run_alone mirrors.ran).resolve_left active
  obtain rfl : flight.context = context := congrArg Flight.context isFlight
  obtain ⟨found, isFound, rest⟩ := Option.bind_eq_some_iff.mp called
  obtain ⟨next, stepped, same⟩ := Option.bind_eq_some_iff.mp rest
  obtain rfl := Option.some.inj same
  rw [holds.client, isClient, Option.some.injEq] at isFound
  subst isFound
  have single := mirrors.flights
  have none := mirrors.runners
  rw [pending, Option.map_some, Option.toList_some, ← isFlight] at single
  rw [noRunner] at none
  refine kept.callback intact isClient mirrors holds pending noRunner stepped ?_ ?_
    (fun other isOther => ?_) fun other isOther => ?_
  · rw [List.filter_append, ← List.erase_filter, single, List.erase_cons_head, List.nil_append,
      filter_started, if_pos rfl]
  · rw [List.filter_append, none, filter_made, if_pos rfl]
    rfl
  · have notOther : flight ∉ requests.inFlight.filter (·.starter = other) := fun isOwn =>
      isOther (of_decide_eq_true (List.mem_filter.mp isOwn).2).symm
    rw [List.filter_append, ← List.erase_filter, List.erase_of_not_mem notOther, filter_started,
      if_neg (Ne.symm isOther), List.append_nil]
  · rw [List.filter_append, filter_made, if_neg (Ne.symm isOther), List.append_nil]

section Lists

omit [DecidableEq Pointer] [DecidableEq Address]

variable {α : Type} {items : List α} {index : Nat} {old new : α} {p : α → Bool}

/-- The only item of its kind, changed. -/
theorem filter_set_of_single (isOld : items[index]? = some old) (single : items.filter p = [old])
    (holds : p old = true) : (items.set index new).filter p = [new].filter p := by
  obtain ⟨inside, rfl⟩ := List.getElem?_eq_some_iff.mp isOld
  have split : items = items.take index ++ items[index] :: items.drop (index + 1) := by
    rw [List.getElem_cons_drop, List.take_append_drop]
  have parts := congrArg (List.filter p) split
  rw [single, List.filter_append, List.filter_cons_of_pos holds] at parts
  have lengths := congrArg List.length parts
  rw [List.length_append, List.length_singleton, List.length_cons] at lengths
  have noneBefore : (items.take index).filter p = [] := List.length_eq_zero_iff.mp (by omega)
  have noneAfter : (items.drop (index + 1)).filter p = [] := List.length_eq_zero_iff.mp (by omega)
  rw [List.set_eq_take_append_cons_drop, if_pos inside, List.filter_append, noneBefore,
    List.nil_append, List.filter_cons, List.filter_cons, noneAfter, List.filter_nil]

/-- An item of another kind, changed to one of another kind. -/
theorem filter_set_of_neg (isOld : items[index]? = some old) (wasOther : p old = false)
    (isOther : p new = false) : (items.set index new).filter p = items.filter p := by
  obtain ⟨inside, rfl⟩ := List.getElem?_eq_some_iff.mp isOld
  have split : items = items.take index ++ items[index] :: items.drop (index + 1) := by
    rw [List.getElem_cons_drop, List.take_append_drop]
  rw [List.set_eq_take_append_cons_drop, if_pos inside, List.filter_append,
    List.filter_cons_of_neg (by simp [isOther])]
  conv_rhs => rw [split, List.filter_append, List.filter_cons_of_neg (by simp [wasOther])]

end Lists

theorem Kept.step_running (kept : requests.Kept system itemAt allocSize stack)
    (intact : requests.crashed = false) {index : Nat} {event : ServingEvent}
    (ofRunner : event.ofRunner = true)
    (called : requests.running system allocSize index event = some after) :
    after.Kept system itemAt allocSize stack := by
  obtain ⟨runner, isRunner, rest⟩ := Option.bind_eq_some_iff.mp called
  obtain ⟨found, isFound, rest⟩ := Option.bind_eq_some_iff.mp rest
  obtain ⟨next, stepped, rest⟩ := Option.bind_eq_some_iff.mp rest
  obtain ⟨cgi, isCgi, same⟩ := Option.bind_eq_some_iff.mp rest
  obtain rfl := Option.some.inj same
  have inside := List.mem_of_getElem? isRunner
  have busy : runner.cgi.busy = true := Serving.busy_of_step rfl ofRunner stepped
  obtain ⟨client, isClient⟩ := Option.isSome_iff_exists.mp (kept.ofClient runner inside busy)
  obtain ⟨context, serving, mirrors⟩ := kept.mirrors _ client isClient
  obtain ⟨isCgiOfServing, isHeap⟩ := mirrors.runner inside busy rfl
  have holds := mirrors.held (.inr ⟨runner.cgi, isCgiOfServing, busy⟩)
  have idle : serving.pending = none :=
    (Serving.run_alone mirrors.ran).resolve_right (by simp [isCgiOfServing])
  obtain rfl : runner.context = context := congrArg HeapRunner.context isHeap
  rw [holds.client, isClient, Option.some.injEq] at isFound
  subst isFound
  have idleNext : next.pending = none := by
    cases Serving.stepped_of_step stepped with
    | running runs quietly other => exact quietly.pending
    | statDone | scanDone | openDone | readDone | closeDone | connectionClosed => cases ofRunner
  have single := mirrors.runners
  have none := mirrors.flights
  rw [isCgiOfServing, Option.filter_some_pos busy, Option.map_some, Option.toList_some,
    ← isHeap] at single
  rw [idle] at none
  refine kept.callback intact isClient mirrors holds idle isCgiOfServing stepped ?_ ?_
    (fun _ _ => rfl) fun other isOther => ?_
  · rw [idleNext]
    exact none
  · rw [filter_set_of_single isRunner single (by simp [busy]), isCgi]
    exact (filter_made (some cgi) runner.starter runner.starter).trans (if_pos rfl)
  · refine filter_set_of_neg isRunner ?_ ?_ <;> simp [Ne.symm isOther]

theorem Kept.of_unreferenced (kept : requests.Kept system itemAt allocSize stack)
    (unreferenced : requests.Unreferenced address) :
    requests.inFlight.filter (·.starter = address) = [] ∧
      (requests.runners.filter fun runner => runner.starter = address ∧ runner.cgi.busy) = [] := by
  constructor
  · refine List.filter_eq_nil_iff.mpr fun flight inside isStarter => ?_
    obtain ⟨client, isClient⟩ := Option.isSome_iff_exists.mp (kept.started flight inside)
    obtain ⟨context, serving, mirrors⟩ := kept.mirrors _ client isClient
    obtain ⟨pending, isFlight⟩ := mirrors.flight inside rfl
    have holds := mirrors.held (.inl (by simp [pending]))
    rw [← show flight.context = context from congrArg Flight.context isFlight] at holds
    exact unreferenced.1 flight inside (holds.client.trans (of_decide_eq_true isStarter))
  · refine List.filter_eq_nil_iff.mpr fun runner inside isOwn => ?_
    obtain ⟨isStarter, busy⟩ := of_decide_eq_true isOwn
    obtain ⟨client, isClient⟩ := Option.isSome_iff_exists.mp (kept.ofClient runner inside busy)
    obtain ⟨context, serving, mirrors⟩ := kept.mirrors _ client isClient
    obtain ⟨isCgi, isHeap⟩ := mirrors.runner inside busy rfl
    have holds := mirrors.held (.inr ⟨runner.cgi, isCgi, busy⟩)
    rw [← show runner.context = context from congrArg HeapRunner.context isHeap] at holds
    exact unreferenced.2 runner inside busy (holds.client.trans isStarter)

/-- The invariant when the request of a new client is taken, with a new context if it needs one. -/
theorem Kept.start (kept : requests.Kept system itemAt allocSize stack)
    (unreferenced : requests.Unreferenced address)
    {handler : FileHandler} {request : Request} {pool : Pool Pointer}
    {memory : Pointer → RequestContext Address} (sound : pool.Sound itemAt allocSize stack)
    (held : (Serving.handle handler request).pending ≠ none →
      context ∈ pool.inUse ∧ (memory context).client = address ∧ (memory context).handler = handler ∧
        (memory context).file = (Serving.handle handler request).file)
    (untouched : ∀ pointer ∈ requests.pool.inUse,
      pointer ∈ pool.inUse ∧ memory pointer = requests.memory pointer) :
    ({ requests with
      pool, memory
      clients := Function.update requests.clients address (some
        { handler, request, callback := (Serving.handle handler request).callback
          trace := (Serving.handle handler request).trace })
      inFlight := requests.inFlight ++
        ((Serving.handle handler request).pending.map (⟨context, ·, address⟩)).toList } :
      Requests Pointer Address).Kept system itemAt allocSize stack := by
  have starts := Serving.handle_starts handler request
  obtain ⟨noFlight, noRunner⟩ := kept.of_unreferenced unreferenced
  refine ⟨sound, fun flight inside => ?_, fun runner inside busy =>
    isSome_update (kept.ofClient runner inside busy), fun other found isFound => ?_⟩
  · rcases List.mem_append.mp inside with isOld | isNew
    · exact isSome_update (kept.started flight isOld)
    · rw [Option.mem_toList, Option.map_eq_some_iff] at isNew
      obtain ⟨operation, _, rfl⟩ := isNew
      show (Function.update requests.clients address _ address).isSome = true
      rw [Function.update_self]
      rfl
  · by_cases isOwn : other = address
    · subst isOwn
      change Function.update requests.clients other _ other = some found at isFound
      rw [Function.update_self, Option.some.injEq] at isFound
      subst isFound
      refine ⟨context, Serving.handle handler request, rfl, rfl, starts.connected.symm, rfl,
        fun broken => ?_, ?_, ?_, fun active => ?_⟩
      · rw [starts.intact] at broken
        cases broken
      · rw [List.filter_append, noFlight, List.nil_append, filter_started, if_pos rfl]
      · rw [noRunner, starts.runner]
        rfl
      · have waits : (Serving.handle handler request).pending ≠ none :=
          active.resolve_right fun ⟨runner, runs, _⟩ => by
            rw [starts.runner] at runs
            cases runs
        obtain ⟨inUse, isClient, isHandler, isFile⟩ := held waits
        exact ⟨inUse, isClient, isHandler, isFile, fun reads => absurd reads starts.unread⟩
    · have isFound : requests.clients other = some found :=
        (Function.update_of_ne isOwn _ _).symm.trans isFound
      obtain ⟨otherContext, otherServing, mirrors⟩ := kept.mirrors other found isFound
      refine ⟨otherContext, otherServing, mirrors.frame (fun crashed => crashed) ?_ rfl
        fun pointer inUse _ => untouched pointer inUse⟩
      rw [List.filter_append, filter_started, if_neg (Ne.symm isOwn), List.append_nil]

theorem Kept.step_handle (kept : requests.Kept system itemAt allocSize stack)
    (positive : 0 < allocSize) (unreferenced : requests.Unreferenced address)
    {handler : FileHandler} {request : Request}
    {iteration : Iteration (Pointer × List Pointer)} {chunk : Pointer}
    (handled : requests.handle itemAt allocSize stack address handler request iteration chunk =
      some after) : after.Kept system itemAt allocSize stack := by
  unfold handle at handled
  dsimp only at handled
  split at handled
  case isTrue acquires =>
    obtain ⟨fresh, handled⟩ := Option.ite_none_right_eq_some.mp handled
    obtain ⟨⟨item, pool⟩, allocated, rfl⟩ := Option.map_eq_some_iff.mp handled
    have hands := kept.sound.allocate positive fresh allocated
    split
    · refine kept.start unreferenced hands.sound (fun _ => ?_) fun pointer inUse => ?_
      · rw [Function.update_self]
        exact ⟨hands.used, rfl, rfl, rfl⟩
      · have apart : pointer ≠ item := fun same => hands.unused (same ▸ inUse)
        exact ⟨Pool.mem_inUse_of_allocate allocated inUse, Function.update_of_ne apart _ _⟩
    · refine ⟨hands.sound, kept.started, kept.ofClient, fun other found isFound => ?_⟩
      obtain ⟨otherContext, otherServing, mirrors⟩ := kept.mirrors other found isFound
      exact ⟨otherContext, otherServing, mirrors.frame (fun _ => rfl) rfl rfl
        fun _ inUse _ => ⟨Pool.mem_inUse_of_allocate allocated inUse, rfl⟩⟩
  case isFalse idle =>
    obtain rfl := Option.some.inj handled
    have isIdle := (Serving.handle_starts handler request).idle idle
    have started := @Kept.start _ _ _ _ system itemAt allocSize stack requests address stack kept
      unreferenced handler request requests.pool requests.memory kept.sound
      (fun waits => absurd isIdle waits) fun pointer inUse => ⟨inUse, rfl⟩
    rw [isIdle] at started
    simpa using started

theorem Kept.step_closed (kept : requests.Kept system itemAt allocSize stack)
    (intact : requests.crashed = false) (closed : requests.closed address = some after) :
    after.Kept system itemAt allocSize stack := by
  obtain ⟨client, isClient, rest⟩ := Option.bind_eq_some_iff.mp closed
  obtain ⟨isOpen, same⟩ := Option.ite_none_right_eq_some.mp rest
  obtain rfl := Option.some.inj same
  refine ⟨kept.sound, fun flight inside => isSome_update (kept.started flight inside),
    fun runner inside busy => isSome_update (kept.ofClient runner inside busy),
    fun other found isFound => ?_⟩
  change Function.update requests.clients address _ other = some found at isFound
  by_cases isOwn : other = address
  · subst isOwn
    rw [Function.update_self, Option.some.injEq] at isFound
    subst isFound
    obtain ⟨context, serving, mirrors⟩ := kept.mirrors other client isClient
    have stepped := @Serving.step_connectionClosed system client.handler serving
      (mirrors.alive intact) (mirrors.connected ▸ isOpen)
    refine ⟨context, { serving with connected := false },
      (run_concat_eq_some _).mpr ⟨serving, mirrors.ran, stepped⟩, mirrors.callback, rfl,
      mirrors.trace, mirrors.crashed, mirrors.flights, mirrors.runners, fun active => ?_⟩
    have holds := mirrors.held active
    exact ⟨holds.inUse, holds.client, holds.handler, holds.file, holds.settled⟩
  · rw [Function.update_of_ne isOwn] at isFound
    obtain ⟨otherContext, otherServing, otherMirrors⟩ := kept.mirrors other found isFound
    exact ⟨otherContext, otherServing, otherMirrors.frame id rfl rfl fun _ inUse _ => ⟨inUse, rfl⟩⟩

/-! ### Whole runs -/

theorem Kept.step (positive : 0 < allocSize) (requests : Requests Pointer Address)
    (event : RequestsEvent Pointer Address) (next : Requests Pointer Address)
    (kept : requests.Kept system itemAt allocSize stack) (placed : requests.Placed event)
    (stepped : requests.step system itemAt allocSize stack event = some next) :
    next.Kept system itemAt allocSize stack := by
  unfold Requests.step at stepped
  cases intact : requests.crashed with
  | true =>
    rw [if_pos intact] at stepped
    cases stepped
  | false =>
    rw [if_neg (by simp [intact])] at stepped
    cases event with
    | handle address handler request iteration chunk =>
      obtain ⟨_, handled⟩ := Option.ite_none_right_eq_some.mp stepped
      exact kept.step_handle positive placed handled
    | callback flight event =>
      obtain ⟨⟨inside, _⟩, called⟩ := Option.ite_none_right_eq_some.mp stepped
      exact kept.step_callback intact inside called
    | running index event =>
      obtain ⟨ofRunner, called⟩ := Option.ite_none_right_eq_some.mp stepped
      exact kept.step_running intact ofRunner called
    | closed address => exact kept.step_closed intact stepped

theorem kept_create (distinct : (block itemAt allocSize stack).Nodup)
    (memory : Pointer → RequestContext Address) :
    (create itemAt allocSize stack memory).Kept system itemAt allocSize stack :=
  ⟨Pool.sound_create distinct, fun _ inside => absurd inside List.not_mem_nil,
    fun _ inside => absurd inside List.not_mem_nil, fun _ _ isClient => nomatch isClient⟩

/-- **Every request has its context for itself**, whatever the contexts hold at first and in whatever
order the callbacks come, if no new client gets an address that a callback still names: what was done
to a client is what the callbacks of its own request do, from variables of its own, and every operation
finds in its context the client and the handler for which it was started. -/
theorem run_private (positive : 0 < allocSize) (distinct : (block itemAt allocSize stack).Nodup)
    {memory : Pointer → RequestContext Address} {events : List (RequestsEvent Pointer Address)}
    {final : Requests Pointer Address}
    (placed : Along (step system itemAt allocSize stack) Placed
      (create itemAt allocSize stack memory) events)
    (ran : run (step system itemAt allocSize stack) (create itemAt allocSize stack memory) events =
      some final) :
    (∀ address client, final.clients address = some client → ∃ serving,
      run (Serving.step system client.handler) (Serving.handle client.handler client.request)
        client.past = some serving ∧
      client.trace = serving.trace ∧ client.callback = serving.callback ∧
      client.connected = serving.connected ∧
      (final.inFlight.filter (·.starter = address)).map Flight.operation = serving.pending.toList) ∧
    ∀ flight ∈ final.inFlight, (final.memory flight.context).client = flight.starter ∧
      ∃ client, final.clients flight.starter = some client ∧
        (final.memory flight.context).handler = client.handler := by
  have kept : final.Kept system itemAt allocSize stack :=
    run_invariant (Kept system itemAt allocSize stack) (Kept.step positive)
      (kept_create distinct memory) placed ran
  refine ⟨fun address client isClient => ?_, fun flight inside => ?_⟩
  · obtain ⟨context, serving, mirrors⟩ := kept.mirrors address client isClient
    refine ⟨serving, mirrors.ran, mirrors.trace, mirrors.callback, mirrors.connected, ?_⟩
    rw [mirrors.flights]
    cases serving.pending <;> rfl
  · obtain ⟨client, isClient⟩ := Option.isSome_iff_exists.mp (kept.started flight inside)
    obtain ⟨context, serving, mirrors⟩ := kept.mirrors _ client isClient
    obtain ⟨pending, isFlight⟩ := mirrors.flight inside rfl
    have holds := mirrors.held (.inl (by simp [pending]))
    rw [← show flight.context = context from congrArg Flight.context isFlight] at holds
    exact ⟨holds.client, client, isClient, holds.handler⟩

end Invariant

/-- Nothing was served before. -/
def emptyMemory : Nat → RequestContext Nat := fun _ => ⟨0, Serving.listingHandler, [], 0, 0⟩

/-- A directory is listed and a file is opened. The first client leaves, and the next one gets its
address and its context. -/
def threeClients : List (RequestsEvent Nat Nat) :=
  [.handle 0 Serving.listingHandler { path := text "/a/" } Pool.inOrder 10,
    .handle 1 Serving.listingHandler { path := text "/b" } Pool.inOrder 10,
    .callback ⟨0, .stat (handed (text "/srv/b")), 1⟩ (.statDone 0 0o100000),
    .callback ⟨1, .stat (handed (text "/srv/a")), 0⟩ (.statDone 0 0o040000),
    .callback ⟨1, .scandir (handed (text "/srv/a")), 0⟩ (.scanDone 0 []), .closed 0,
    .handle 0 Serving.listingHandler { path := text "/c" } Pool.inOrder 10]

theorem run_private_threeClients : ∃ final,
    run (step plainSystem (· + ·) 2 0) (create (· + ·) 2 0 emptyMemory) threeClients = some final ∧
      final.inFlight.map Flight.context = [0, 1] ∧
      ∀ flight ∈ final.inFlight, (final.memory flight.context).client = flight.starter := by
  have placed : Along (step plainSystem (· + ·) 2 0) Placed (create (· + ·) 2 0 emptyMemory)
      threeClients := by decide +kernel
  obtain ⟨final, ran, contexts⟩ : ∃ final, run (step plainSystem (· + ·) 2 0)
      (create (· + ·) 2 0 emptyMemory) threeClients = some final ∧
    final.inFlight.map Flight.context = [0, 1] := ⟨_, rfl, rfl⟩
  have mirrored := (run_private (by decide) (by decide) placed ran).2
  exact ⟨final, ran, contexts, fun flight inside => (mirrored flight inside).1⟩

/-- A client leaves while its file is looked up, and the next one gets its address. -/
def sameAddress : List (RequestsEvent Nat Nat) :=
  [.handle 0 Serving.listingHandler { path := text "/a" } Pool.inOrder 10, .closed 0,
    .handle 0 Serving.listingHandler { path := text "/b" } Pool.inOrder 10,
    .callback ⟨1, .stat (handed (text "/srv/a")), 0⟩ (.statDone 0 0o100000),
    .callback ⟨1, .openFile (handed (text "/srv/a")), 0⟩ (.openDone 3),
    .callback ⟨1, .read 3 0, 0⟩ (.readDone 1 [97])]

/-- Without this condition the client that asked for one file is sent another one. -/
theorem run_sameAddress : ∃ final client,
    run (step plainSystem (· + ·) 2 0) (create (· + ·) 2 0 emptyMemory) sameAddress = some final ∧
      final.clients 0 = some client ∧ client.request.path = text "/b" ∧
      .start (.openFile (handed (text "/srv/a"))) ∈ client.trace ∧
      .start (.openFile (handed (text "/srv/b"))) ∉ client.trace ∧ .send [97] ∈ client.trace := by
  refine ⟨_, _, rfl, rfl, rfl, ?_, ?_, ?_⟩ <;> decide +kernel

end Requests

end GemCaps
