/-
**The first decision of `Manager::on_read`.**

`on_read` waits, crashes the connection, or dispatches a request (`decision`); which of these depends
on the header as it has grown so far. `run_decides`: a connection that only receives does what the
first decision on its reads says. The length is tested before the bytes behind the line are cut off,
so the decision also depends on how many of them come with the line end:
`firstDecision_eq_iff`.
-/

import GemCaps.Connection.Manager
import GemCaps.Library.Feeding

namespace GemCaps

open Feeding Transition

/-- What `on_read` does with a header that is complete. -/
inductive Decision where
  | crash
  | dispatch (request : Request)
deriving DecidableEq

/-- What `on_read` decides once the header has grown; `none` waits for more. -/
def decision (request : Request) : Option Decision :=
  if 1024 < request.header.length then some .crash
  else match find request.header lf 0 with
    | none => none
    | some pos =>
      match parseHost { request with header := request.header.take (pos + 1) } with
      | none => some .crash
      | some request => some (.dispatch request)

/-- The request that `on_accept` creates, with this header. -/
def withHeader (header : Bytes) : Request := { header }

/-- The first decision on a stream that is read in these pieces. -/
def firstDecision (reads : List Bytes) : Option Decision :=
  feed (fun header => decision (withHeader header)) [] reads

/-- What is decided on a line that fits. -/
def settle (line : Bytes) : Decision :=
  match parseHost (withHeader line) with
  | none => .crash
  | some request => .dispatch request

/-! ### The decision -/

theorem decision_withHeader (header : Bytes) :
    decision (withHeader header) = lineDecision 1024 lf .crash settle header := by
  have unfolded : decision (withHeader header) =
      if 1024 < header.length then some .crash
      else (find header lf 0).map fun pos => settle (header.take (pos + 1)) := by
    unfold decision
    show (if 1024 < header.length then _ else _) = _
    refine if_congr Iff.rfl rfl ?_
    show (match find header lf 0 with | none => _ | some pos => _) = _
    cases find header lf 0 with
    | none => rfl
    | some pos =>
      rw [Option.map_some, settle]
      show (match parseHost (withHeader (header.take (pos + 1))) with | none => _ | some _ => _) = _
      cases parseHost (withHeader (header.take (pos + 1))) <;> rfl
  rw [unfolded, lineDecision]
  refine if_congr Iff.rfl rfl ?_
  cases found : find header lf 0 with
  | none =>
    have noLf : lf ∉ header := find_eq_none_iff.mp found
    rw [if_neg noLf]
    rfl
  | some pos =>
    obtain ⟨front, back, here, noLf, isPos⟩ := exists_of_find_eq_some found
    rw [List.drop_zero] at here
    have inside : lf ∈ header := by simp [here]
    have cut : header.take (pos + 1) = line lf header := by
      rw [isPos, here, line, Cutting.before_append_cons noLf, Nat.zero_add, List.append_cons,
        List.take_left' (by simp)]
    rw [if_pos inside, Option.map_some, cut]

/-- **The first decision on a stream with a line end.** -/
theorem firstDecision_eq {reads : List Bytes} (comes : lf ∈ reads.flatten) :
    firstDecision reads =
      some (if arrived lf reads ≤ 1024 then settle (line lf reads.flatten) else .crash) := by
  rw [firstDecision, funext decision_withHeader, feed_line .crash settle List.not_mem_nil comes]
  simp

/-! ### The runs of a connection -/

/-- The steps by which a connection receives its request: it neither fails nor ends, and nobody calls
it. -/
def ConnectionEvent.receives : ConnectionEvent → Bool
  | .received (some _) | .loopTest | .record _ _ | .onWriteReturns | .sent _ => true
  | .onRead ⟨.ok _, _, _⟩ | .onRead ⟨.error .wantRead, _, _⟩ | .onRead ⟨.error .wantWrite, _, _⟩ => true
  | .onRead ⟨.error .failed, _, _⟩ => false
  | .received none | .send _ | .close | .setClientCloseCallback _ | .timeout | .closed => false

/-- What a step reads. -/
def ConnectionEvent.read : ConnectionEvent → Option Bytes
  | .onRead ⟨.ok data, _, _⟩ => some data
  | _ => none

/-- The pieces that a run reads. -/
def reads (events : List ConnectionEvent) : List Bytes := events.filterMap ConnectionEvent.read

theorem reads_concat (past : List ConnectionEvent) (event : ConnectionEvent) :
    reads (past ++ [event]) = reads past ++ event.read.toList := by
  rw [reads, List.filterMap_append]
  cases same : event.read with
  | none => rw [List.filterMap_cons_none same]; rfl
  | some data => rw [List.filterMap_cons_some same]; rfl

/-- One more piece. -/
theorem firstDecision_concat (reads : List Bytes) (data : Bytes) :
    firstDecision (reads ++ [data]) =
      (firstDecision reads).or (decision (withHeader (reads.flatten ++ data))) := by
  rw [firstDecision, feed_append, List.nil_append, feed_cons, feed_nil, Option.or_none]
  rfl

namespace Connection

variable {connection next : Connection} {handlers : Handlers}

/-- What a decision makes of a connection that has dispatched nothing yet. -/
def Obeys (handlers : Handlers) (connection : Connection) : Decision → Prop
  | .crash => connection.client.closing = true ∧ connection.dispatched = []
  | .dispatch request => ∃ ready : Connection, ready.dispatched = [] ∧
      ready.gemini.map GeminiConnection.request = some request ∧
      ∃ gemini, gemini.request = request ∧ connection = ready.dispatch handlers gemini

theorem onHeader_of_waits {gemini : GeminiConnection} (waits : decision gemini.request = none) :
    connection.onHeader handlers gemini = { connection with gemini := some gemini } := by
  unfold decision at waits
  simp only [onHeader]
  by_cases long : 1024 < gemini.request.header.length
  · rw [if_pos long] at waits
    cases waits
  · rw [if_neg long] at waits ⊢
    cases found : find gemini.request.header lf 0 with
    | none => rfl
    | some pos =>
      simp only [found] at waits
      split at waits <;> cases waits

theorem onHeader_obeys {gemini : GeminiConnection} {verdict : Decision}
    (fresh : connection.dispatched = []) (decided : decision gemini.request = some verdict) :
    (connection.onHeader handlers gemini).Obeys handlers verdict := by
  unfold decision at decided
  simp only [onHeader]
  by_cases long : 1024 < gemini.request.header.length
  · rw [if_pos long] at decided ⊢
    obtain rfl := Option.some.inj decided
    exact ⟨rfl, fresh⟩
  · rw [if_neg long] at decided ⊢
    cases found : find gemini.request.header lf 0 with
    | none =>
      simp only [found] at decided
      cases decided
    | some pos =>
      simp only [found] at decided ⊢
      cases accepted : parseHost { gemini.request with
          header := gemini.request.header.take (pos + 1) } with
      | none =>
        simp only [accepted, Option.some.injEq] at decided ⊢
        exact decided ▸ ⟨rfl, fresh⟩
      | some request =>
        simp only [accepted, Option.some.injEq] at decided ⊢
        exact decided ▸ ⟨{ connection with
          client := connection.client.stopListening
          gemini := some { gemini with request } }, fresh, rfl, { gemini with request }, rfl, rfl⟩

/-- A read that brings data grows the header. -/
theorem onRead_ok (header data : Bytes) (consumed : Nat) (wantRead : Bool) :
    connection.onRead handlers { request := withHeader header } ⟨.ok data, consumed, wantRead⟩ =
      ({ connection with
        client := { connection.client with buffer := (connection.client.buffer.read consumed).1 }
        wantRead } : Connection).onHeader handlers { request := withHeader (header ++ data) } := rfl

/-- A connection that has read these pieces and not decided. -/
structure Reading (pieces : List Bytes) (connection : Connection) : Prop where
  gemini : connection.gemini = some { request := withHeader pieces.flatten }
  fresh : connection.dispatched = []

/-- One step of a connection that receives, while nothing is decided. -/
theorem Reading.step {past : List ConnectionEvent} {event : ConnectionEvent}
    (reading : connection.Reading (reads past)) (managed : connection.Managed)
    (receives : event.receives = true) (undecided : firstDecision (reads (past ++ [event])) = none)
    (stepped : connection.step handlers event = some next) :
    next.Reading (reads (past ++ [event])) := by
  rw [reads_concat] at undecided ⊢
  cases managed.stepped stepped with
  | client client phase context silent =>
    have unread : event.read = none := by
      cases event <;> first | rfl | cases silent
    rw [unread, Option.toList_none, List.append_nil]
    exact ⟨reading.gemini, reading.fresh⟩
  | @onRead gemini isOpen outcome =>
    obtain rfl := Option.some.inj (isOpen.symm.trans reading.gemini)
    obtain ⟨result, consumed, wantRead⟩ := outcome
    cases result with
    | error error =>
      cases error with
      | failed => cases receives
      | wantRead | wantWrite =>
        rw [show (ConnectionEvent.onRead ⟨.error _, consumed, wantRead⟩).read = none from rfl,
          Option.toList_none, List.append_nil]
        exact ⟨reading.gemini, reading.fresh⟩
    | ok data =>
      have isRead : (ConnectionEvent.onRead ⟨.ok data, consumed, wantRead⟩).read = some data := rfl
      rw [isRead, Option.toList_some, firstDecision_concat, Option.or_eq_none_iff] at undecided
      have waits : decision (withHeader ((reads past).flatten ++ data)) = none := undecided.2
      rw [isRead, Option.toList_some, onRead_ok, onHeader_of_waits waits]
      exact ⟨by simp, reading.fresh⟩
  | send | setClientCloseCallback | closed => cases receives

theorem run_reading {timeoutTime : Nat} {events : List ConnectionEvent}
    (ran : run (step handlers) (accept timeoutTime) events = some connection)
    (receives : ∀ event ∈ events, event.receives = true)
    (undecided : firstDecision (reads events) = none) : connection.Reading (reads events) := by
  refine (run_history (fun past connection => connection.Managed ∧
    ((∀ event ∈ past, event.receives = true) → firstDecision (reads past) = none →
      connection.Reading (reads past))) ⟨accept_managed timeoutTime, fun _ _ => ⟨rfl, rfl⟩⟩
    ?_ ran).2 receives undecided
  rintro past state event next ⟨managed, reading⟩ stepped
  refine ⟨managed.step stepped, fun receives undecided => ?_⟩
  have earlier : firstDecision (reads past) = none := by
    rw [reads_concat] at undecided
    cases isRead : event.read with
    | none => rwa [isRead, Option.toList_none, List.append_nil] at undecided
    | some data =>
      rw [isRead, Option.toList_some, firstDecision_concat, Option.or_eq_none_iff] at undecided
      exact undecided.1
  exact (reading (fun event inside => receives event (List.mem_append_left _ inside))
    earlier).step managed (receives event (List.mem_append_right _ List.mem_cons_self)) undecided
    stepped

/-- **A connection does what the first decision on its reads says.** -/
theorem run_decides {timeoutTime : Nat} {events : List ConnectionEvent} {data : Bytes}
    {consumed : Nat} {wantRead : Bool} {verdict : Decision}
    (ran : run (step handlers) (accept timeoutTime) events = some connection)
    (receives : ∀ event ∈ events, event.receives = true)
    (undecided : firstDecision (reads events) = none)
    (decided : firstDecision (reads events ++ [data]) = some verdict)
    (stepped : connection.step handlers (.onRead ⟨.ok data, consumed, wantRead⟩) = some next) :
    ∃ read : Connection, read.Obeys handlers verdict ∧ next = { read with phase := .read } := by
  have reading := run_reading ran receives undecided
  rw [firstDecision_concat, undecided, Option.none_or] at decided
  simp only [Connection.step, reading.gemini] at stepped
  obtain ⟨_, same⟩ := Option.ite_none_right_eq_some.mp stepped
  refine ⟨_, ?_, (Option.some.inj same).symm⟩
  rw [onRead_ok]
  exact onHeader_obeys reading.fresh decided

end Connection

/-! ### The limit and the bytes behind the line -/

/-- A request that is dispatched has the line for its header. -/
theorem header_of_settle {header : Bytes} {request : Request}
    (settled : settle header = .dispatch request) : request.header = header := by
  unfold settle at settled
  cases accepted : parseHost (withHeader header) with
  | none =>
    rw [accepted] at settled
    cases settled
  | some parsed =>
    rw [accepted] at settled
    obtain rfl := Decision.dispatch.inj settled
    exact parseHost_header accepted

theorem settle_eq_crash_iff (header : Bytes) :
    settle header = .crash ↔ parseHost (withHeader header) = none := by
  unfold settle
  cases parseHost (withHeader header) <;> simp

/-- **When the first decision does not depend on the segmentation**: the line is malformed, or the
reads up to the line end stay within 1024 bytes in both runs or in neither. The two streams share
their first line, and what comes behind it is arbitrary. -/
theorem firstDecision_eq_iff {reads others : List Bytes} (comes : lf ∈ reads.flatten)
    (comesToo : lf ∈ others.flatten) (same : line lf reads.flatten = line lf others.flatten) :
    (firstDecision reads = firstDecision others ∧ ∀ request,
        firstDecision reads = some (.dispatch request) → request.header = line lf reads.flatten) ↔
      (parseHost (withHeader (line lf reads.flatten)) = none ∨
        (arrived lf reads ≤ 1024 ↔ arrived lf others ≤ 1024)) := by
  rw [firstDecision_eq comes, firstDecision_eq comesToo, ← same, ← settle_eq_crash_iff,
    Option.some.injEq]
  have header : ∀ request, some (if arrived lf reads ≤ 1024 then settle (line lf reads.flatten)
      else .crash) = some (Decision.dispatch request) → request.header = line lf reads.flatten := by
    intro request dispatched
    rw [Option.some.injEq] at dispatched
    split at dispatched
    · exact header_of_settle dispatched
    · cases dispatched
  rw [and_iff_left header]
  by_cases malformed : settle (line lf reads.flatten) = .crash
  · rw [malformed, ite_self, ite_self]
    simp
  · by_cases fits : arrived lf reads ≤ 1024 <;> by_cases fitsToo : arrived lf others ≤ 1024 <;>
      simp [fits, fitsToo, malformed, Ne.symm malformed]

/-- A request line, and as many bytes behind it as one read takes. -/
def longStream : Bytes := text "gemini://h/\r\n" ++ List.replicate 1012 space

theorem firstDecision_eq_iff_pair :
    (firstDecision [text "gemini:", text "//h/\r\nx"] = firstDecision [text "gemini://h/\r\n"] ∧
      ∀ request, firstDecision [text "gemini:", text "//h/\r\nx"] = some (.dispatch request) →
        request.header = line lf (text "gemini://h/\r\nx")) ↔
    (parseHost (withHeader (line lf (text "gemini://h/\r\nx"))) = none ∨
      (arrived lf [text "gemini:", text "//h/\r\nx"] ≤ 1024 ↔
        arrived lf [text "gemini://h/\r\n"] ≤ 1024)) :=
  firstDecision_eq_iff (by decide) (by decide) (by decide)

/-- The first byte alone and then the rest, or the line alone and then the rest: the connection is
crashed, or the request is dispatched. -/
theorem firstDecision_longStream :
    [longStream.take 1, longStream.drop 1].flatten = longStream ∧
      [longStream.take 13, longStream.drop 13].flatten = longStream ∧
      (∀ piece ∈ [longStream.take 1, longStream.drop 1, longStream.take 13, longStream.drop 13],
        0 < piece.length ∧ piece.length ≤ 1024) ∧
      firstDecision [longStream.take 1, longStream.drop 1] = some .crash ∧
      ∃ request, firstDecision [longStream.take 13, longStream.drop 13] =
        some (.dispatch request) ∧ request.header = text "gemini://h/\r\n" := by
  have whole : [longStream.take 1, longStream.drop 1].flatten = longStream := by decide +kernel
  have wholeToo : [longStream.take 13, longStream.drop 13].flatten = longStream := by
    decide +kernel
  have comes : lf ∈ longStream := by decide +kernel
  have late : arrived lf [longStream.take 1, longStream.drop 1] = 1025 := by decide +kernel
  have early : arrived lf [longStream.take 13, longStream.drop 13] = 13 := by decide +kernel
  have first : line lf longStream = text "gemini://h/\r\n" := by decide +kernel
  refine ⟨whole, wholeToo, by decide +kernel, ?_, ?_⟩
  · rw [firstDecision_eq (whole.symm ▸ comes), late]
    rfl
  · rw [firstDecision_eq (wholeToo.symm ▸ comes), early, wholeToo, first]
    exact ⟨_, rfl, rfl⟩

end GemCaps
