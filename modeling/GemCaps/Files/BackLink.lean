/-
**The link back of a directory listing.**

`dir_on_scan` prints `path::dirname(request.path)`, which leaves the string for a path of separators
alone. The directory is scanned only for a request with a canonical path and a `/` at its end
(`run_asks`), and the only such path without a component is `/`: `stripped_iff`.
-/

import GemCaps.Files.Listing

namespace GemCaps

open Cutting GemCaps.Path Transition

namespace Serving

variable {system : System} {handler : FileHandler} {request : Request} {serving next : Serving}

/-- The request waits for its `stat` or for the entries of its directory. -/
structure Asks (handler : FileHandler) (request : Request) (serving : Serving) : Prop where
  runner : serving.runner = none
  same : serving.request = request
  admitted : Admitted handler request
  trailing : ∀ file, serving.pending = some (.scandir file) → request.path.getLast? = some slash

/-- Neither of the two is pending. -/
def Searched (serving : Serving) : Prop :=
  ∀ file, serving.pending ≠ some (.stat file) ∧ serving.pending ≠ some (.scandir file)

theorem searched_of_none (pending : serving.pending = none) : Searched serving := by
  intro file
  rw [pending]
  exact ⟨Option.some_ne_none _ ∘ Eq.symm, Option.some_ne_none _ ∘ Eq.symm⟩

theorem searched_start (serving : Serving) {operation : Operation}
    (noStat : ∀ file, operation ≠ .stat file) (noScan : ∀ file, operation ≠ .scandir file) :
    Searched (serving.start operation) := fun file =>
  ⟨fun waits => noStat file (Option.some.inj waits), fun waits => noScan file (Option.some.inj waits)⟩

theorem Quietly.searched {before after : Serving} (quietly : Quietly before after)
    (searched : Searched before) : Searched after := by
  intro file
  rw [quietly.pending]
  exact searched file

/-- **`read_file`** searches no more. -/
theorem Reading.searched {before after : Serving} (reading : Reading system handler before after)
    (pending : before.pending = none) : Searched after := by
  cases reading with
  | quiet quietly => exact quietly.searched (searched_of_none pending)
  | opens plain => exact searched_start before nofun nofun
  | spawns executable env prepared quietly =>
    exact searched_of_none (quietly.pending.trans (prepared.pending.trans pending))

/-- **One step.** -/
theorem Asks.step {event : ServingEvent} (step : serving.step system handler event = some next)
    (asks : Searched serving ∨ Asks handler request serving) :
    Searched next ∨ Asks handler request next := by
  cases stepped_of_step step with
  | statDone result mode waits =>
    have asked := asks.resolve_left fun searched => (searched _).1 waits
    rcases handleOnStat_cases system handler serving.finish result mode with
      ⟨response, same⟩ | ⟨⟨_, _, trailing⟩, same⟩ | ⟨_, same⟩
    · rw [same]
      exact .inl (searched_of_none rfl)
    · rw [same]
      have isPath : serving.finish.request.path = request.path := congrArg Request.path asked.same
      exact .inr ⟨asked.runner, asked.same, asked.admitted, fun _ _ => isPath ▸ trailing⟩
    · rw [same]
      exact .inl ((readFile_reading system handler _).searched rfl)
  | scanDone result entries waits =>
    rcases dirOnScan_cases system handler serving.finish result entries with
      ⟨_, said, same, _⟩ | ⟨_, entry, _, verdicts, same, _⟩
    · rw [same]
      exact .inl (searched_of_none rfl)
    · rw [same]
      exact .inl ((readFile_reading system handler _).searched rfl)
  | openDone result waits =>
    rcases fileOnOpen_cases system serving.finish result with quietly | ⟨ready, offset, _, same⟩
    · exact .inl (quietly.searched (searched_of_none rfl))
    · rw [same]
      exact .inl (searched_start _ nofun nofun)
  | readDone result data waits =>
    obtain ⟨ready, operation, _, same, reads | closes⟩ := fileOnRead_cases serving.finish result data
    · obtain ⟨fd, offset, rfl⟩ := reads
      rw [same]
      exact .inl (searched_start _ nofun nofun)
    · obtain ⟨fd, rfl⟩ := closes
      rw [same]
      exact .inl (searched_start _ nofun nofun)
  | closeDone waits => exact .inl (searched_of_none rfl)
  | running runs quietly other =>
    refine asks.imp quietly.searched fun asked => ?_
    exact absurd asked.runner runs
  | connectionClosed =>
    exact asks.imp id fun asked => ⟨asked.runner, asked.same, asked.admitted, asked.trailing⟩

theorem handle_asks (handler : FileHandler) (request : Request) :
    Searched (handle handler request) ∨ Asks handler request (handle handler request) := by
  by_cases admitted : Admitted handler request
  · rw [handle_of_admitted admitted]
    refine .inr ⟨rfl, rfl, admitted, fun file scans => ?_⟩
    cases scans
  · obtain ⟨trace, same, _⟩ := handle_of_not_admitted admitted
    rw [same]
    exact .inl (searched_of_none rfl)

/-- **Which requests have their directory scanned.** -/
theorem run_asks {events : List ServingEvent}
    (ran : Transition.run (step system handler) (handle handler request) events = some serving)
    {file : CString} (waits : serving.pending = some (.scandir file)) :
    Asks handler request serving :=
  (run_always (fun serving => Searched serving ∨ Asks handler request serving)
    (fun _ _ _ asks stepped => Asks.step stepped asks) (handle_asks handler request)
    ran).resolve_left fun searched => (searched file).2 waits

end Serving

/-- The only canonical path of separators alone that ends with one is the root. -/
theorem named_canonical_iff {path : Bytes} (kept : FileHandler.canonical path = path)
    (trailing : path.getLast? = some slash) : Named path ↔ path ≠ text "/" := by
  rw [FileHandler.canonical, if_pos trailing] at kept
  have last : (delUps path).getLast?.any isSep = false := getLast?_joinAll (delUpsParts_normal path)
  constructor
  · rintro ⟨letter, inside, plain⟩ rfl
    obtain rfl := List.mem_singleton.mp inside
    exact absurd plain (by decide)
  · intro notRoot
    have nonempty : delUps path ≠ [] := by
      intro empty
      rw [empty] at kept
      exact notRoot kept.symm
    rw [List.getLast?_eq_some_getLast nonempty, Option.any_some] at last
    have inside : (delUps path).getLast nonempty ∈ delUps path ++ [slash] :=
      List.mem_append_left _ (List.getLast_mem nonempty)
    rw [kept] at inside
    exact ⟨_, inside, last⟩

/-- **When the trailing separators are dropped within the string.** The loops of `dirname` and
`basename` stay in the string exactly when the path has a component; where `dir_on_scan` prints a
listing of the path, exactly when it is not the root. -/
theorem stripped_iff (path : Bytes) :
    ((dirname path).isSome = true ↔ Named path) ∧ ((basename path).isSome = true ↔ Named path) ∧
      ∀ system handler request events serving file,
        run (Serving.step system handler) (Serving.handle handler request) events = some serving →
        serving.pending = some (.scandir file) → serving.request.path = path →
          ((dirname path).isSome = true ↔ path ≠ text "/") := by
  obtain ⟨ofDirname, ofBasename⟩ := isSome_ends_iff path
  refine ⟨ofDirname, ofBasename, ?_⟩
  intro system handler request events serving file ran waits isPath
  have asked := Serving.run_asks ran waits
  have isRequest : request.path = path := by rw [← isPath, asked.same]
  rw [ofDirname, ← isRequest]
  exact named_canonical_iff asked.admitted.1 (asked.trailing file waits)

/-- A folder whose entries are asked for. -/
theorem stripped_iff_docs :
    (dirname (text "/docs/")).isSome = true ↔ text "/docs/" ≠ text "/" :=
  (stripped_iff (text "/docs/")).2.2 plainSystem srvHandler { path := text "/docs/" }
    [.statDone 0 0o040000] _ ⟨text "/srv/docs", by decide⟩ rfl rfl rfl

/-- A request for the root prints a listing, and `dirname` finds nothing to stop at. -/
theorem stripped_root :
    dirname (text "/") = none ∧ basename (text "/") = none ∧
      ∃ final, run (Serving.step plainSystem srvHandler)
          (Serving.handle srvHandler { path := text "/" })
          [.statDone 0 0o040000, .scanDone 0 []] = some final ∧
        final.transcript = [.send (responseHeader resSuccess (text "text/gemini")),
          .send (listing (text "/") [] []), .close] := by
  have admitted : Serving.Admitted srvHandler { path := text "/" } := by decide
  exact ⟨by decide, by decide,
    run_listing admitted rfl rfl le_rfl (fun _ none => absurd none List.not_mem_nil) rfl⟩

end GemCaps
