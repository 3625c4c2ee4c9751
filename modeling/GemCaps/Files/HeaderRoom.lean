/-
**Whether a redirect header fits its array.**

`on_read` accepts a header of at most 1024 bytes, and of these the marker and the LF are no part of the
path. A redirect header has five characters besides its target, and an array of 1024 characters and a
NUL. `run_redirectsFit_iff`: what does not fit is the canonical path of 1020 bytes that only replaces
backslashes, and a directory whose path has 1019 bytes or more and no separator behind it.
-/

import GemCaps.Connection.Dispatch
import GemCaps.Files.Redirects
import GemCaps.Path.Length
import GemCaps.Request.Literal

namespace GemCaps

open GemCaps.Path Transition

/-! ### What `on_read` accepts -/

/-- A request that was parsed from a header of at most 1024 bytes. -/
def Accepted (request : Request) : Prop :=
  ∃ line : Request, line.header.length ≤ 1024 ∧ parseHost line = some request

theorem Accepted.length_path {request : Request} (accepted : Accepted request) :
    request.path.length ≤ 1020 := by
  obtain ⟨line, short, parsed⟩ := accepted
  rcases parseHost_length parsed with empty | bound
  · rw [empty]
    exact Nat.zero_le 1020
  · omega

namespace Connection

variable {connection next : Connection} {handlers : Handlers}

/-- Only accepted requests have been dispatched. -/
def DispatchesAccepted (connection : Connection) : Prop :=
  ∀ entry ∈ connection.dispatched, Accepted entry.2

theorem dispatch_accepted (accepts : connection.DispatchesAccepted) {gemini : GeminiConnection}
    (accepted : Accepted gemini.request) :
    (connection.dispatch handlers gemini).DispatchesAccepted := by
  unfold dispatch
  cases handlers with
  | none => exact accepts
  | some handlers =>
    cases found : handlers.findIdx? fun shouldHandle =>
        shouldHandle gemini.request.host gemini.request.path with
    | none => simpa only [found, DispatchesAccepted, send_dispatched] using accepts
    | some index =>
      simp only [found]
      intro entry inside
      rcases List.mem_append.mp inside with earlier | new
      · exact accepts entry earlier
      · rw [List.mem_singleton.mp new]
        exact accepted

theorem onRead_accepted (accepts : connection.DispatchesAccepted) (gemini : GeminiConnection)
    (outcome : ReadOutcome) :
    (connection.onRead handlers gemini outcome).DispatchesAccepted := by
  unfold onRead
  cases outcome.result with
  | error error => cases error <;> exact accepts
  | ok data =>
    simp only [onHeader]
    split
    · exact accepts
    next short =>
      split
      · exact accepts
      · split
        · exact accepts
        next request parsed =>
          refine dispatch_accepted ?_ ?_
          · exact accepts
          · exact ⟨_, (List.length_take_le' _ _).trans (Nat.le_of_not_lt short), parsed⟩

theorem step_accepted (managed : connection.Managed) (accepts : connection.DispatchesAccepted)
    {event : ConnectionEvent} (step : connection.step handlers event = some next) :
    next.DispatchesAccepted := by
  cases managed.stepped step with
  | client client phase context silent => exact accepts
  | send isOpen data => simpa only [DispatchesAccepted, send_dispatched] using accepts
  | setClientCloseCallback isOpen registration => exact accepts
  | onRead isOpen outcome => exact onRead_accepted accepts _ outcome
  | closed client context =>
    unfold managerOnClose
    split <;> exact accepts

/-- **Every request that a run dispatches is accepted.** -/
theorem run_accepted {timeoutTime : Nat} {events : List ConnectionEvent}
    (ran : run (step handlers) (accept timeoutTime) events = some connection) :
    connection.DispatchesAccepted :=
  (run_always (fun connection => connection.Managed ∧ connection.DispatchesAccepted)
    (fun _ _ _ invariant stepped => ⟨Managed.step invariant.1 stepped,
      step_accepted invariant.1 invariant.2 stepped⟩)
    ⟨accept_managed timeoutTime, fun _ inside => absurd inside List.not_mem_nil⟩ ran).2

end Connection

/-! ### The room of a target -/

/-- `responseHeader(RES_REDIRECT_PERM, target)` writes inside its array. -/
def HeaderFits (target : CString) : Prop :=
  (StringLiteral.responseHeader 1024 resRedirectPerm (some target)).isSome = true

theorem headerFits_iff (target : CString) : HeaderFits target ↔ target.bytes.length ≤ 1019 := by
  have code : (decimal resRedirectPerm).length = 2 := by decide
  rw [HeaderFits, StringLiteral.responseHeader_isSome_iff (by decide), code]
  omega

theorem length_cStr_le (string : Bytes) : (cStr string).length ≤ string.length :=
  (Cutting.before_isPrefix nul string).length_le

theorem length_cStr_lt {string : Bytes} (hasNul : nul ∈ string) :
    (cStr string).length < string.length := by
  obtain ⟨front, back, split, free⟩ := List.eq_append_cons_of_mem hasNul
  rw [split, cStr, Cutting.before_append_cons free, List.length_append, List.length_cons]
  omega

/-- **A canonical path is the path with `/` for its separators, or shorter than the path.** -/
theorem canonical_eq_or_shorter (path : Bytes) : FileHandler.canonical path = forward path ∨
    (FileHandler.canonical path).length < path.length := by
  have joined := joinAll_split path
  have whole := congrArg List.length joined
  rw [List.length_append, length_forward] at whole
  have parts : delUps path = joinAll (split path) ∨
      (delUps path).length < (joinAll (split path)).length :=
    (length_delUps_lt path).imp_left fun same => by rw [delUps, same]
  unfold FileHandler.canonical
  by_cases trailing : path.getLast? = some slash
  · have isEnd : path.getLast?.any isSep = true := by rw [trailing]; rfl
    rw [if_pos isEnd] at joined whole
    rw [if_pos trailing, List.length_append]
    refine parts.imp (fun same => by rw [same, joined]) fun shorter => ?_
    exact whole ▸ Nat.add_lt_add_right shorter _
  · rw [if_neg trailing]
    by_cases isEnd : path.getLast?.any isSep = true
    · rw [if_pos isEnd, List.length_singleton] at whole
      refine .inr ?_
      rcases parts with same | shorter
      · rw [same]
        omega
      · omega
    · rw [if_neg isEnd, List.append_nil] at joined
      rw [if_neg isEnd] at whole
      exact parts.imp (fun same => same.trans joined) fun shorter => by
        rw [List.length_nil] at whole
        omega

/-! ### The targets of a request -/

/-- Every redirect header that `handle` makes of the path, and `handle_on_stat` when `stat` ends with
this result and this mode, fits its array. -/
def RedirectsFit (system : System) (handler : FileHandler) (request : Request) (result : Int)
    (mode : Nat) : Prop :=
  ∀ serving : Serving,
    (serving = Serving.handle handler request ∨
      (Serving.handle handler request).step system handler (.statDone result mode) = some serving) →
    ∀ target : CString, .send (responseHeader resRedirectPerm target.bytes) ∈ serving.trace →
      HeaderFits target

/-- The target has a byte too many: the canonical path of 1020 bytes only replaces backslashes, or a
directory is requested with at least 1019 bytes and no separator behind them. -/
def Overlong (handler : FileHandler) (request : Request) (result : Int) (mode : Nat) : Prop :=
  nul ∉ request.path ∧
    (request.path.length = 1020 ∧ backslash ∈ request.path ∧
        FileHandler.canonical request.path = forward request.path ∨
      1019 ≤ request.path.length ∧ Serving.Admitted handler request ∧ result = 0 ∧
        Serving.isDir mode = true ∧ request.path.getLast? ≠ some slash)

instance (handler : FileHandler) (request : Request) (result : Int) (mode : Nat) :
    Decidable (Overlong handler request result mode) :=
  inferInstanceAs (Decidable (_ ∧ (_ ∧ _ ∧ _ ∨ _ ∧ _ ∧ _ ∧ _ ∧ _)))

section Targets

variable {system : System} {handler : FileHandler} {request : Request} {result : Int} {mode : Nat}

/-- A header stands for a target up to its first NUL. -/
theorem header_eq_iff {target : CString} (other : Bytes) :
    responseHeader resRedirectPerm target.bytes = responseHeader resRedirectPerm other ↔
      target.bytes = cStr other := by
  have cut : responseHeader resRedirectPerm other = responseHeader resRedirectPerm (cStr other) := by
    rw [responseHeader, responseHeader, cStr_of_noNul (noNul_cStr other)]
  rw [cut]
  exact ⟨target_of_header (noNul_cStr other), fun same => same ▸ rfl⟩

/-- A target that is sent fits when there is room for it. -/
theorem forall_headerFits_iff (condition : Prop) (other : Bytes) :
    (∀ target : CString, condition ∧
        responseHeader resRedirectPerm target.bytes = responseHeader resRedirectPerm other →
      HeaderFits target) ↔ (condition → (cStr other).length ≤ 1019) := by
  constructor
  · intro fits holds
    exact (headerFits_iff _).mp (fits (handed other) ⟨holds, (header_eq_iff other).mpr rfl⟩)
  · rintro room target ⟨holds, same⟩
    rw [headerFits_iff, (header_eq_iff other).mp same]
    exact room holds

/-- **Which targets need room.** -/
theorem redirectsFit_iff_room : RedirectsFit system handler request result mode ↔
    (FileHandler.canonical request.path ≠ request.path →
        (cStr (FileHandler.canonical request.path)).length ≤ 1019) ∧
      ((Serving.Admitted handler request ∧ result = 0 ∧ Serving.isDir mode = true ∧
          request.path.getLast? ≠ some slash) →
        (cStr (request.path ++ [slash])).length ≤ 1019) ∧
      ((Serving.Admitted handler request ∧ result = 0 ∧ Serving.isDir mode = false ∧
          Serving.isFile mode = true ∧ request.path.getLast? = some slash) →
        (cStr request.path.dropLast).length ≤ 1019) := by
  rw [← forall_headerFits_iff, ← forall_headerFits_iff, ← forall_headerFits_iff]
  by_cases admitted : Serving.Admitted handler request
  · have silent : ∀ data, .send data ∉ (Serving.handle handler request).finish.trace := by
      rw [Serving.handle_of_admitted admitted]
      simp [Serving.finish, Serving.act]
    have samePath : (Serving.handle handler request).finish.request.path = request.path := by
      rw [Serving.handle_of_admitted admitted]
      rfl
    simp only [RedirectsFit, step_of_admitted admitted, Option.some.injEq, forall_eq_or_imp,
      forall_eq', handle_sends, handleOnStat_sends silent, samePath, admitted, true_and, and_assoc]
    refine and_congr_right fun _ => ?_
    constructor
    · exact fun fits => ⟨fun target sent => fits target ⟨sent.1, .inl sent.2⟩,
        fun target sent => fits target ⟨sent.1, .inr sent.2⟩⟩
    · rintro ⟨longer, shorter⟩ target ⟨found, directory | file⟩
      · exact longer target ⟨found, directory⟩
      · exact shorter target ⟨found, file⟩
  · have ends : (Serving.handle handler request).step system handler (.statDone result mode) = none := by
      obtain ⟨trace, same, _⟩ := Serving.handle_of_not_admitted admitted
      rw [same]
      rfl
    simp only [RedirectsFit, ends, reduceCtorEq, or_false, forall_eq, handle_sends, admitted,
      false_and, false_imp_iff, implies_true, and_true]

/-- The canonical path has room unless it replaces backslashes only. -/
theorem room_canonical_iff {path : Bytes} (short : path.length ≤ 1020) :
    (FileHandler.canonical path ≠ path → (cStr (FileHandler.canonical path)).length ≤ 1019) ↔
      ¬ (nul ∉ path ∧ path.length = 1020 ∧ backslash ∈ path ∧
        FileHandler.canonical path = forward path) := by
  have cut := length_cStr_le (FileHandler.canonical path)
  constructor
  · rintro room ⟨noNul, long, inside, same⟩
    have other : forward path ≠ path := fun kept => (forward_eq_iff path).mp kept inside
    have bound := room (same ▸ other)
    rw [same, cStr_of_noNul (fun hasNul => noNul (nul_mem_forward.mp hasNul)),
      length_forward] at bound
    omega
  · intro allowed other
    rcases canonical_eq_or_shorter path with same | shorter
    · rw [same] at other cut ⊢
      rw [length_forward] at cut
      by_cases hasNul : nul ∈ path
      · have shorter := length_cStr_lt (nul_mem_forward.mpr hasNul)
        rw [length_forward] at shorter
        omega
      · by_contra long
        refine allowed ⟨hasNul, by omega, ?_, same⟩
        by_contra free
        exact other ((forward_eq_iff path).mpr free)
    · omega

/-- The path with a separator behind it has room unless it is too long. -/
theorem room_slash_iff {path : Bytes} (short : path.length ≤ 1020) :
    (cStr (path ++ [slash])).length ≤ 1019 ↔ ¬ (nul ∉ path ∧ 1019 ≤ path.length) := by
  by_cases hasNul : nul ∈ path
  · have shorter := length_cStr_lt hasNul
    rw [cStr_append_of_nul hasNul]
    constructor
    · exact fun _ long => long.1 hasNul
    · exact fun _ => by omega
  · have single : nul ∉ [slash] := by decide
    rw [cStr_append hasNul, cStr_of_noNul single, List.length_append, List.length_singleton]
    constructor
    · exact fun room long => by omega
    · intro allowed
      by_contra long
      exact allowed ⟨hasNul, by omega⟩

/-- The path without its last separator has room. -/
theorem room_dropLast {path : Bytes} (short : path.length ≤ 1020) :
    (cStr path.dropLast).length ≤ 1019 := by
  have cut := length_cStr_le path.dropLast
  rw [List.length_dropLast] at cut
  omega

/-- **What does not fit**, for a path that an accepted header can have. -/
theorem redirectsFit_iff (short : request.path.length ≤ 1020) :
    RedirectsFit system handler request result mode ↔ ¬ Overlong handler request result mode := by
  rw [redirectsFit_iff_room, room_canonical_iff short, room_slash_iff short]
  constructor
  · rintro ⟨replaced, added, _⟩ ⟨noNul, ⟨long, inside, same⟩ | ⟨long, directory⟩⟩
    · exact replaced ⟨noNul, long, inside, same⟩
    · exact added directory ⟨noNul, long⟩
  · intro allowed
    refine ⟨fun replaced => ?_, fun directory added => ?_, fun _ => room_dropLast short⟩
    · exact allowed ⟨replaced.1, .inl replaced.2⟩
    · exact allowed ⟨added.1, .inr ⟨added.2, directory⟩⟩

end Targets

/-- **When the redirect headers fit**: for every request that a connection dispatches, and every
outcome of `stat`. -/
theorem run_redirectsFit_iff {handlers : Handlers} {timeoutTime : Nat}
    {events : List ConnectionEvent} {connection : Connection} {index : Nat} {request : Request}
    (ran : run (Connection.step handlers) (Connection.accept timeoutTime) events = some connection)
    (dispatched : (index, request) ∈ connection.dispatched)
    (system : System) (handler : FileHandler) (result : Int) (mode : Nat) :
    RedirectsFit system handler request result mode ↔ ¬ Overlong handler request result mode :=
  redirectsFit_iff (Connection.run_accepted ran _ dispatched).length_path

/-- A request line that comes in one record. -/
def lineEvents (line : Bytes) : List ConnectionEvent :=
  [.received (some [1]), .onRead ⟨.ok line, 1, true⟩, .loopTest]

theorem run_redirectsFit_iff_directory : ∃ connection : Connection,
    run (Connection.step Connection.anyHandler) (Connection.accept 0)
        (lineEvents (text "gemini://h/a\r\n")) = some connection ∧
      ∃ request, connection.dispatched = [(0, request)] ∧
        (RedirectsFit plainSystem srvHandler request 0 0o040755 ↔
          ¬ Overlong srvHandler request 0 0o040755) :=
  ⟨_, rfl, _, rfl, run_redirectsFit_iff
    (show run (Connection.step Connection.anyHandler) (Connection.accept 0)
      (lineEvents (text "gemini://h/a\r\n")) = some _ from rfl) (.head _) _ _ _ _⟩

/-- The shortest line around this path. -/
def shortLine (path : Bytes) : Bytes := marker ++ path ++ [lf]

/-- A path of 1019 bytes. -/
def longPath : Bytes := slash :: List.replicate 1018 97

/-- A path of 1020 bytes with a backslash. -/
def backslashPath : Bytes := slash :: List.replicate 1017 97 ++ [backslash, 97]

/-- The shortest line around this path is dispatched, and the header of a redirect is written behind
its array when the path is a directory. -/
def Overflows (path : Bytes) : Prop :=
  ∃ connection : Connection,
    run (Connection.step Connection.anyHandler) (Connection.accept 0)
        (lineEvents (shortLine path)) = some connection ∧
      ∃ request, connection.dispatched = [(0, request)] ∧ request.path = path ∧
        ¬ RedirectsFit plainSystem srvHandler request 0 0o040755

/-- A byte for the separator, or for the backslash that is replaced, is missing. -/
theorem run_redirectsOverflow : Overflows longPath ∧ Overflows backslashPath := by
  have overflows : ∀ path : Bytes, path.length ≤ 1020 →
      (run (Connection.step Connection.anyHandler) (Connection.accept 0)
        (lineEvents (shortLine path))).map Connection.dispatched =
          some [(0, { header := shortLine path, port := defaultPort, path })] →
      Overlong srvHandler { header := shortLine path, port := defaultPort, path } 0 0o040755 →
      Overflows path := by
    intro path short dispatches overlong
    obtain ⟨connection, ran, dispatched⟩ := Option.map_eq_some_iff.mp dispatches
    refine ⟨connection, ran, _, dispatched, rfl, ?_⟩
    rw [redirectsFit_iff short, not_not]
    exact overlong
  constructor
  · exact overflows longPath (by decide +kernel) (by decide +kernel) (by decide +kernel)
  · exact overflows backslashPath (by decide +kernel) (by decide +kernel) (by decide +kernel)

end GemCaps
