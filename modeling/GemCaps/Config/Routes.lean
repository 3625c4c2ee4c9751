/-
**From the configuration to the handler of a request** (`Manager::loadHandlers`, `Manager::on_read`).

The handlers of a server stand in the order in which their files were listed, and `on_read` takes the
first one that accepts the request.

* `dispatch_routes`: what becomes of a request is decided by the valid files of its server: no file
  crashes the connection, no file that accepts is answered with 41, and else the first one is taken.
* `run_routed`: so is every request that any run of a connection dispatches.
-/

import GemCaps.Config.Startup
import GemCaps.Connection.Dispatch

namespace GemCaps

open Loading Transition

/-- `handlers.find(client->getServer())`, with `shouldHandle` of what is found. -/
def handlersOf (table : ServerHandlers) (server : Bytes) : Handlers :=
  (table server).map fun handlers => handlers.map FileHandler.shouldHandle

section Files

variable (yaml : YamlCpp) (regex : Bytes → Option (Bytes → Bool)) (files : Files) (dir : Bytes)
  (servers : Servers) (server : Bytes)

/-- The handler that a file gives this server. -/
def handlerOf (file : Bytes) : Option FileHandler :=
  match readHandler yaml regex files dir servers file with
  | .ok (found, handler) => if found = server then some handler else none
  | .error _ => none

/-- The file is the first of these whose handler accepts the request, and `index` others give the
server a handler before it. -/
def Takes (request : Request) (listed : List Bytes) (index : Nat) : Prop :=
  ∃ before file after handler, listed = before ++ file :: after ∧
    handlerOf yaml regex files dir servers server file = some handler ∧
    handler.shouldHandle request.host request.path = true ∧
    (∀ earlier ∈ before, ∀ other, handlerOf yaml regex files dir servers server earlier = some other →
      other.shouldHandle request.host request.path = false) ∧
    index = (before.filterMap (handlerOf yaml regex files dir servers server)).length

end Files

variable {yaml : YamlCpp} {regex : Bytes → Option (Bytes → Bool)} {files : Files} {dir : Bytes}
  {servers : Servers} {scan : Scan} {table : ServerHandlers}

/-! ### The table -/

/-- The handlers of a server are those of its files, in their order. -/
theorem data_filter_eq (server : Bytes) (listed : List Bytes) :
    ((data (readHandler yaml regex files dir servers) listed).filter fun pair =>
        pair.1 = server).map Prod.snd =
      listed.filterMap (handlerOf yaml regex files dir servers server) := by
  unfold data
  rw [← List.filterMap_eq_map, ← List.filterMap_eq_filter, List.filterMap_filterMap,
    List.filterMap_filterMap]
  refine List.filterMap_congr fun file _ => ?_
  unfold handlerOf
  cases readHandler yaml regex files dir servers file with
  | error thrown => rfl
  | ok pair =>
    by_cases own : pair.1 = server
    · simp [Except.toOption, Option.guard, own]
    · simp [Except.toOption, Option.guard, own]

theorem getD_table (loaded : loadHandlers yaml regex files dir servers scan = .ok table)
    (server : Bytes) : (table server).getD [] =
      (configFiles dir scan).filterMap (handlerOf yaml regex files dir servers server) := by
  obtain ⟨_, rfl⟩ := (load_eq_ok_iff _ _).mp loaded
  rw [← data_filter_eq]
  exact getD_foldl_push _ _ server

/-- **What is found for a server**: nothing if no file is valid, else the handlers of its files. -/
theorem handlersOf_eq (loaded : loadHandlers yaml regex files dir servers scan = .ok table)
    (server : Bytes) : handlersOf table server =
      if (configFiles dir scan).filterMap (handlerOf yaml regex files dir servers server) = [] then none
      else some (((configFiles dir scan).filterMap
        (handlerOf yaml regex files dir servers server)).map FileHandler.shouldHandle) := by
  obtain ⟨_, rfl⟩ := (load_eq_ok_iff _ _).mp loaded
  rw [← data_filter_eq]
  generalize data (readHandler yaml regex files dir servers) (configFiles dir scan) = pairs
  have found : (pairs.foldl push (fun _ => none) server).getD [] =
      (pairs.filter fun pair => pair.1 = server).map Prod.snd := getD_foldl_push pairs _ server
  have isSome : (pairs.foldl push (fun _ => none) server).isSome = true ↔
      ∃ pair ∈ pairs, pair.1 = server := foldl_push_isSome_iff.trans (by simp)
  have isEmpty : (pairs.filter fun pair => pair.1 = server).map Prod.snd = [] ↔
      ¬ ∃ pair ∈ pairs, pair.1 = server := by
    rw [List.map_eq_nil_iff, List.filter_eq_nil_iff]
    simp only [decide_eq_true_eq, not_exists, not_and]
  unfold handlersOf
  cases isFound : pairs.foldl push (fun _ => none) server with
  | none =>
    rw [isFound] at isSome
    rw [if_pos (isEmpty.mpr fun some => nomatch isSome.mpr some)]
    rfl
  | some handlers =>
    rw [isFound] at found isSome
    rw [if_neg fun none => isEmpty.mp none (isSome.mp rfl), ← found]
    rfl

/-- The first handler that accepts. -/
theorem findIdx?_eq_some_iff_takes {server : Bytes} {listed : List Bytes} {request : Request}
    {index : Nat} :
    ((listed.filterMap (handlerOf yaml regex files dir servers server)).map
        FileHandler.shouldHandle).findIdx?
      (fun shouldHandle => shouldHandle request.host request.path) = some index ↔
      Takes yaml regex files dir servers server request listed index := by
  rw [List.findIdx?_map]
  exact findIdx?_filterMap_eq_some_iff

/-! ### What becomes of a request -/

namespace Connection

variable {connection next final : Connection} {server : Bytes}

/-- **`dispatch` with the loaded handlers.** -/
theorem dispatch_routes (loaded : loadHandlers yaml regex files dir servers scan = .ok table)
    (server : Bytes) (connection : Connection) (gemini : GeminiConnection) :
    ((∀ file ∈ configFiles dir scan, handlerOf yaml regex files dir servers server file = none) ∧
        connection.dispatch (handlersOf table server) gemini =
          { connection with client := connection.client.crash }) ∨
      ((∃ file ∈ configFiles dir scan,
          (handlerOf yaml regex files dir servers server file).isSome = true) ∧
        (∀ file ∈ configFiles dir scan, ∀ handler,
          handlerOf yaml regex files dir servers server file = some handler →
            handler.shouldHandle gemini.request.host gemini.request.path = false) ∧
        connection.dispatch (handlersOf table server) gemini =
          { connection.send gemini (responseHeader resServerUnavail
              (text "There is no server available to take your request")) with
            client := connection.client.close }) ∨
      ∃ index, Takes yaml regex files dir servers server gemini.request (configFiles dir scan) index ∧
        connection.dispatch (handlersOf table server) gemini =
          { connection with dispatched := connection.dispatched ++ [(index, gemini.request)] } := by
  unfold dispatch
  rw [handlersOf_eq loaded]
  by_cases empty : (configFiles dir scan).filterMap
      (handlerOf yaml regex files dir servers server) = []
  · rw [if_pos empty]
    exact .inl ⟨fun file inside => List.filterMap_eq_nil_iff.mp empty file inside, rfl⟩
  · rw [if_neg empty]
    have filled : ∃ file ∈ configFiles dir scan,
        (handlerOf yaml regex files dir servers server file).isSome = true := by
      obtain ⟨handler, inside⟩ := List.exists_mem_of_ne_nil _ empty
      obtain ⟨file, isFile, isHandler⟩ := List.mem_filterMap.mp inside
      exact ⟨file, isFile, Option.isSome_of_eq_some isHandler⟩
    cases found : (((configFiles dir scan).filterMap
        (handlerOf yaml regex files dir servers server)).map FileHandler.shouldHandle).findIdx?
      fun shouldHandle => shouldHandle gemini.request.host gemini.request.path with
    | none =>
      refine .inr (.inl ⟨filled, fun file isFile handler isHandler => ?_, ?_⟩)
      · refine List.findIdx?_eq_none_iff.mp found _ ?_
        exact List.mem_map_of_mem (List.mem_filterMap.mpr ⟨file, isFile, isHandler⟩)
      · simp only [found, send_client]
    | some index =>
      refine .inr (.inr ⟨index, findIdx?_eq_some_iff_takes.mp found, ?_⟩)
      simp only [found]

/-- The requests dispatched so far went to the handlers that take them. -/
def AllRouted (yaml : YamlCpp) (regex : Bytes → Option (Bytes → Bool)) (files : Files) (dir : Bytes)
    (servers : Servers) (scan : Scan) (server : Bytes) (connection : Connection) : Prop :=
  ∀ entry ∈ connection.dispatched,
    Takes yaml regex files dir servers server entry.2 (configFiles dir scan) entry.1

theorem dispatch_routed (loaded : loadHandlers yaml regex files dir servers scan = .ok table)
    (gemini : GeminiConnection)
    (routed : AllRouted yaml regex files dir servers scan server connection) :
    AllRouted yaml regex files dir servers scan server
      (connection.dispatch (handlersOf table server) gemini) := by
  rcases dispatch_routes loaded server connection gemini with
    ⟨_, same⟩ | ⟨_, _, same⟩ | ⟨index, takes, same⟩
  · rw [same]
    exact routed
  · intro entry inside
    rw [same] at inside
    exact routed entry (by simpa using inside)
  · intro entry inside
    rw [same] at inside
    rcases List.mem_append.mp inside with old | last
    · exact routed entry old
    · obtain rfl := List.mem_singleton.mp last
      exact takes

theorem onRead_routed (loaded : loadHandlers yaml regex files dir servers scan = .ok table)
    (gemini : GeminiConnection) (outcome : ReadOutcome)
    (routed : AllRouted yaml regex files dir servers scan server connection) :
    AllRouted yaml regex files dir servers scan server
      (connection.onRead (handlersOf table server) gemini outcome) := by
  unfold onRead
  cases outcome.result with
  | error error => cases error <;> exact routed
  | ok data =>
    simp only [onHeader]
    split
    · exact routed
    · split
      · exact routed
      · split
        · exact routed
        · exact dispatch_routed loaded _ routed

theorem allRouted_of_run (loaded : loadHandlers yaml regex files dir servers scan = .ok table)
    {timeoutTime : Nat} {events : List ConnectionEvent}
    (ran : run (step (handlersOf table server)) (accept timeoutTime) events = some final) :
    AllRouted yaml regex files dir servers scan server final := by
  have both : final.Managed ∧ AllRouted yaml regex files dir servers scan server final := by
    refine run_always (fun connection => connection.Managed ∧
      AllRouted yaml regex files dir servers scan server connection)
      (fun connection event next ⟨managed, routed⟩ stepped => ⟨managed.step stepped, ?_⟩)
      ⟨accept_managed timeoutTime, fun _ => nofun⟩ ran
    cases managed.stepped stepped with
    | client client phase context silent => exact routed
    | send isOpen data => exact fun entry inside => routed entry (by simpa using inside)
    | setClientCloseCallback isOpen registration => exact routed
    | onRead isOpen outcome => exact onRead_routed loaded _ outcome routed
    | closed client context =>
      unfold managerOnClose
      split <;> exact routed
  exact both.2

/-- **In every run of a connection of the server, every request that is dispatched goes to the first
handler that accepts it**, in the order in which the files of the configuration were listed. -/
theorem run_routed (loaded : loadHandlers yaml regex files dir servers scan = .ok table)
    {timeoutTime : Nat} {events : List ConnectionEvent}
    (ran : run (step (handlersOf table server)) (accept timeoutTime) events = some final) :
    ∀ entry ∈ final.dispatched,
      Takes yaml regex files dir servers server entry.2 (configFiles dir scan) entry.1 :=
  allRouted_of_run loaded ran

/-- A handler of the server for the paths below a base. -/
def basedHandler (base : Bytes) : YamlNode := .map ⟨0, 0⟩
  [plainPair (text "server") (text "main"), plainPair (text "handler") (text "filehandler"),
    plainPair (text "folder") (text "/f"), plainPair (text "base") base]

/-- A request that comes in one record. -/
def otherRecord : List ConnectionEvent :=
  [.received (some [1]), .onRead ⟨.ok (text "gemini://h/x\r\n"), 1, true⟩, .loopTest]

/-- What the two files of `/` say. -/
def basedFiles : Files :=
  twoContents (some (basedHandler (text "/docs"))) (some (basedHandler []))

/-- The first handler does not accept the request, the second one does. -/
theorem run_routed_second : ∃ table final,
    loadHandlers plainYaml (fun _ => none) basedFiles (text "/") mainServers twoFiles = .ok table ∧
      run (step (handlersOf table (text "/a.yml"))) (accept 0) otherRecord = some final ∧
      final.dispatched.map Prod.fst = [1] ∧
      ∀ entry ∈ final.dispatched, Takes plainYaml (fun _ => none) basedFiles (text "/")
        mainServers (text "/a.yml") entry.2 (configFiles (text "/") twoFiles) entry.1 := by
  obtain ⟨table, loaded, final, ran, second⟩ : ∃ table, loadHandlers plainYaml (fun _ => none)
        basedFiles (text "/") mainServers twoFiles = .ok table ∧
      ∃ final, run (step (handlersOf table (text "/a.yml"))) (accept 0) otherRecord = some final ∧
        final.dispatched.map Prod.fst = [1] := ⟨_, rfl, _, rfl, by decide⟩
  exact ⟨table, final, loaded, ran, second, run_routed loaded ran⟩

end Connection

end GemCaps
