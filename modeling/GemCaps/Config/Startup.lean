/-
**Starting the servers** (`Manager::startServers`).

`loadServers` registers a server whatever its `load` has come to, and `startServers` calls `listen()`
on every server that is registered. `loadState_iff`: the first server whose handle is null is met
exactly when the `load` of some registered server has failed.
-/

import GemCaps.Config.Directory
import GemCaps.Connection.Server

namespace GemCaps

open Transition

/-- An order in which a loop goes through the table of servers; that of `phmap` is not specified. -/
structure ServerOrder (servers : Servers) where
  entries : List (Bytes × LoadedServer)
  names : (entries.map Prod.fst).Nodup
  complete : ∀ name server, (name, server) ∈ entries ↔ servers name = some server

/-- The object behind an entry, once `loadServer` has called `load` on a new server. -/
def LoadedServer.object (outcome : LoadedServer → LoadOutcome) (loaded : LoadedServer) : SSLServer :=
  ({} : SSLServer).load (outcome loaded)

/-- The servers on which `startServers` calls `listen()`, as they are then. -/
def startServers (result : Bytes → Int) : List (Bytes × SSLServer) → List SSLServer
  | [] => []
  | (name, server) :: servers =>
    server :: match server.listen (result name) with
      | none => []
      | some _ => startServers result servers

/-- `startServers` on the registered servers. -/
def listens {servers : Servers} (order : ServerOrder servers)
    (outcome : LoadedServer → LoadOutcome) (result : Bytes → Int) : List SSLServer :=
  startServers result (order.entries.map fun entry => (entry.1, entry.2.object outcome))

/-- A new server has a handle after `load` exactly when every call succeeded. -/
theorem object_hasHandle_iff (outcome : LoadedServer → LoadOutcome) (loaded : LoadedServer) :
    (loaded.object outcome).HasHandle ↔ (outcome loaded).succeeds = true := by
  have built := SSLServer.sound_start.load (outcome loaded)
  unfold LoadedServer.object
  rw [built.sound.hasHandle_iff, built.server, LoadOutcome.succeeds]
  cases (outcome loaded).prepares with
  | true => rfl
  | false => rfl

/-- **Where no server lacks its handle, the loop comes to every server**; else it comes to the first
that does. -/
theorem startServers_hasHandle_iff (result : Bytes → Int) (servers : List (Bytes × SSLServer)) :
    (∀ server ∈ startServers result servers, server.HasHandle) ↔
      ∀ entry ∈ servers, entry.2.HasHandle := by
  induction servers with
  | nil => exact iff_of_true (fun _ => nofun) fun _ => nofun
  | cons entry servers ih =>
    obtain ⟨name, server⟩ := entry
    rw [startServers, List.forall_mem_cons, List.forall_mem_cons]
    refine and_congr_right fun hasHandle => ?_
    obtain ⟨handle, isHandle, _⟩ := hasHandle
    have listens : ∃ next, server.listen (result name) = some next := by
      unfold SSLServer.listen
      rw [if_neg (by rw [isHandle]; exact Option.some_ne_none handle)]
      split
      · exact ⟨_, rfl⟩
      · exact ⟨_, rfl⟩
    obtain ⟨next, isNext⟩ := listens
    rw [isNext]
    exact ih

/-- **When the servers that are started have their handles.** -/
theorem listens_hasHandle_iff {servers : Servers} (order : ServerOrder servers)
    (outcome : LoadedServer → LoadOutcome) (result : Bytes → Int) :
    (∀ server ∈ listens order outcome result, server.HasHandle) ↔
      ∀ name loaded, servers name = some loaded → (outcome loaded).succeeds = true := by
  unfold listens
  rw [startServers_hasHandle_iff, List.forall_mem_map]
  simp only [object_hasHandle_iff]
  constructor
  · intro all name loaded registered
    exact all (name, loaded) ((order.complete name loaded).mpr registered)
  · rintro all ⟨name, loaded⟩ inside
    exact all name loaded ((order.complete name loaded).mp inside)

/-- **When the state of the servers stays consistent**: over every sequence of calls on one server,
and from the loaded configuration to the start. -/
theorem loadState_iff {events : List ServerEvent} {final : SSLServer}
    (ran : run SSLServer.step {} events = some final) :
    (Throughout SSLServer.step SSLServer.Consistent {} events ↔
      Along SSLServer.step SSLServer.Replaces {} events) ∧
    ∀ (yaml : YamlCpp) (files : Files) (dir : Bytes) (scan : Scan) (servers : Servers),
      loadServers yaml files dir scan = .ok servers →
      ∀ (order : ServerOrder servers) (outcome : LoadedServer → LoadOutcome) (result : Bytes → Int),
        (∀ server ∈ listens order outcome result, server.HasHandle) ↔
          ∀ name loaded, servers name = some loaded → (outcome loaded).succeeds = true :=
  ⟨SSLServer.run_consistent_iff ran,
    fun _ _ _ _ _ _ order outcome result => listens_hasHandle_iff order outcome result⟩

/-! ### A certificate that cannot be loaded -/

/-- Every call succeeds. -/
def goodLoad : LoadOutcome := ⟨true, true, true, 0⟩

/-- The certificate is refused. -/
def badCertificate : LoadOutcome := ⟨true, false, true, 0⟩

/-- The table with the one server of `a.yml`. -/
def mainServers : Servers := fun name =>
  if name = text "main" then
    some ⟨text "/a.yml", text "0.0.0.0", 1965, text "/c", text "/k"⟩
  else none

theorem loadServers_main :
    loadServers plainYaml (twoContents (some mainServer) (some (.null ⟨0, 0⟩))) (text "/") twoFiles =
      .ok mainServers := by
  have loaded : loadServers plainYaml (twoContents (some mainServer) (some (.null ⟨0, 0⟩)))
      (text "/") twoFiles = .ok (Loading.insertNew (fun _ => none) (text "main",
        ⟨text "/a.yml", text "0.0.0.0", 1965, text "/c", text "/k"⟩)) := rfl
  rw [loaded]
  congr 1
  funext name
  by_cases same : name = text "main"
  · subst same
    rfl
  · simp [Loading.insertNew, mainServers, same]

def mainOrder : ServerOrder mainServers where
  entries := [(text "main", ⟨text "/a.yml", text "0.0.0.0", 1965, text "/c", text "/k"⟩)]
  names := by decide
  complete := by
    intro name server
    simp only [List.mem_singleton, Prod.mk.injEq, mainServers]
    by_cases same : name = text "main"
    · simp [same, eq_comm]
    · simp [same]

theorem loadState_iff_main :
    (Throughout SSLServer.step SSLServer.Consistent {} [.load goodLoad, .listen 0] ↔
      Along SSLServer.step SSLServer.Replaces {} [.load goodLoad, .listen 0]) ∧
    ((∀ server ∈ listens mainOrder (fun _ => goodLoad) (fun _ => 0), server.HasHandle) ↔
      ∀ name loaded, mainServers name = some loaded → goodLoad.succeeds = true) :=
  have ran := (show run SSLServer.step {} [.load goodLoad, .listen 0] = some _ from rfl)
  ⟨(loadState_iff ran).1,
    (loadState_iff ran).2 _ _ _ _ _ loadServers_main mainOrder (fun _ => goodLoad) fun _ => 0⟩

/-- Loaded a second time with a certificate that is refused, a server keeps its handle without a
context. Loaded so the first time it is registered with a null handle, and `startServers` calls
`listen()` on it. -/
theorem loadState_badCertificate :
    (∃ final, run SSLServer.step {} [.load goodLoad, .load badCertificate] = some final ∧
      final.isLoaded = false ∧ final.server = some 0 ∧ ¬ final.Consistent) ∧
    loadServers plainYaml (twoContents (some mainServer) (some (.null ⟨0, 0⟩))) (text "/") twoFiles =
      .ok mainServers ∧
    ∃ server ∈ listens mainOrder (fun _ => badCertificate) (fun _ => 0),
      server.server = none ∧ ¬ server.HasHandle := by
  refine ⟨⟨_, rfl, rfl, rfl, fun consistent => ?_⟩, loadServers_main,
    ({} : SSLServer).load badCertificate, List.mem_singleton.mpr rfl, rfl, ?_⟩
  · have loaded := consistent.2.mpr ⟨0, rfl, by decide⟩
    exact absurd loaded (by decide)
  · rintro ⟨handle, isHandle, _⟩
    cases isHandle

end GemCaps
