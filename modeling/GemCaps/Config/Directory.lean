/-
**Loading the configuration directories** (`Manager::loadServers`, `Manager::loadHandlers`).

Both functions read the files of a directory one after the other; `LoadFile` stands before the
`try`, and the only `catch` is for `InvalidSettingsException`. Both are `noexcept`, so that any other
exception ends the program. `loadsEach_iff`: a file affects no other exactly when every file can be
parsed, no file of a handler is a scalar or has a rule that does not compile, and the valid files of
servers have distinct names.
-/

import GemCaps.Config.Loader

namespace GemCaps

open Loading

/-- `uv_dirent_t`. -/
structure ConfigEntry where
  name : CString
  /-- The type is `UV_DIRENT_FILE`. -/
  isFile : Bool

/-- The entries of a directory, each under its own name. -/
structure Listing where
  entries : List ConfigEntry
  distinct : (entries.map ConfigEntry.name).Nodup

/-- The result of `uv_fs_scandir`. -/
abbrev Scan := Except Int Listing

/-- `tolower`. -/
def toLower (letter : Byte) : Byte := if 65 ≤ letter ∧ letter ≤ 90 then letter + 32 else letter

/-- `is_yaml`. -/
def isYaml (entry : ConfigEntry) : Bool :=
  entry.isFile &&
    match rfind entry.name.bytes dot with
    | none => false
    | some pos =>
      let ext := (entry.name.bytes.drop pos).map toLower
      ext == text ".yml" || ext == text ".yaml"

/-- `join` of `manager.cpp`. -/
def configJoin (a b : Bytes) : Bytes :=
  if a.getLast? = some slash ∨ a.getLast? = some backslash then a ++ b else a ++ slash :: b

/-- Only the entries that are kept. -/
def Listing.filter (listing : Listing) (keep : ConfigEntry → Bool) : Listing :=
  ⟨listing.entries.filter keep, listing.distinct.sublist (List.filter_sublist.map _)⟩

/-- The files that the loops do not pass over. -/
def configFiles (dir : Bytes) (scan : Scan) : List Bytes :=
  match scan with
  | .error _ => []
  | .ok listing => (listing.entries.filter isYaml).map fun entry => configJoin dir entry.name.bytes

/-- The names of the servers, and the handlers of each server by its address. -/
abbrev Servers := Bytes → Option LoadedServer

abbrev ServerHandlers := Bytes → Option (List FileHandler)

section Functions

variable (yaml : YamlCpp) (regex : Bytes → Option (Bytes → Bool)) (files : Files) (dir : Bytes)

/-- `YAML::LoadFile`. -/
def loadFile (file : Bytes) : Except Thrown YamlNode :=
  match files file with
  | some node => .ok node
  | none => .error .unparsable

/-- A round of `loadServers` up to the insertion. -/
def readServer (file : Bytes) : Except Thrown (Bytes × LoadedServer) := do
  let node ← loadFile files file
  let server ← loadServer yaml file node dir
  let name ← getProperty yaml yaml.asString node (text "name")
  .ok (name, server)

/-- A round of `loadHandlers` up to the insertion. -/
def readHandler (servers : Servers) (file : Bytes) : Except Thrown (Bytes × FileHandler) := do
  let node ← loadFile files file
  let handler ← loadHandler yaml regex node dir
  let server ← getProperty yaml yaml.asString node (text "server")
  match servers server with
  | some found => .ok (found.file, handler)
  | none => .error (.invalidSettings (node.markAt yaml (text "server"))
      (text "The server '" ++ server ++ text "' does not exist"))

/-- `Manager::loadServers(config_dir)`. -/
def loadServers (scan : Scan) : Except Thrown Servers :=
  load (readServer yaml files dir) insertNew Thrown.caught (fun _ => none) (configFiles dir scan)

/-- `Manager::loadHandlers(config_dir)`. -/
def loadHandlers (servers : Servers) (scan : Scan) : Except Thrown ServerHandlers :=
  load (readHandler yaml regex files dir servers) push Thrown.caught (fun _ => none)
    (configFiles dir scan)

/-- The scan without the files that are refused. -/
def withoutRefused {α : Type} (read : Bytes → Except Thrown α) (scan : Scan) : Scan :=
  scan.map fun listing =>
    listing.filter fun entry => (read (configJoin dir entry.name.bytes)).toOption.isSome

end Functions

/-- **No file affects another one.** Both functions return; every file that is read without an
exception is registered; and the tables are those without the refused files. -/
def LoadsEach (yaml : YamlCpp) (regex : Bytes → Option (Bytes → Bool)) (files : Files)
    (serverDir handlerDir : Bytes) (serverScan handlerScan : Scan) : Prop :=
  ∃ servers handlers,
    loadServers yaml files serverDir serverScan = .ok servers ∧
    (∀ file ∈ configFiles serverDir serverScan, ∀ name server,
      readServer yaml files serverDir file = .ok (name, server) → servers name = some server) ∧
    loadServers yaml files serverDir
      (withoutRefused serverDir (readServer yaml files serverDir) serverScan) = .ok servers ∧
    loadHandlers yaml regex files handlerDir servers handlerScan = .ok handlers ∧
    (∀ file ∈ configFiles handlerDir handlerScan, ∀ server handler,
      readHandler yaml regex files handlerDir servers file = .ok (server, handler) →
        handler ∈ (handlers server).getD []) ∧
    loadHandlers yaml regex files handlerDir servers
      (withoutRefused handlerDir (readHandler yaml regex files handlerDir servers) handlerScan) =
        .ok handlers

variable {yaml : YamlCpp} {regex : Bytes → Option (Bytes → Bool)} {files : Files} {dir : Bytes}

/-! ### The files of a directory -/

theorem configJoin_injective (dir : Bytes) : Function.Injective (configJoin dir) := by
  intro first second same
  unfold configJoin at same
  split at same
  · exact List.append_cancel_left same
  · exact List.tail_eq_of_cons_eq (List.append_cancel_left same)

theorem configFiles_nodup (dir : Bytes) (scan : Scan) : (configFiles dir scan).Nodup := by
  cases scan with
  | error result => exact List.nodup_nil
  | ok listing =>
    have names : ((listing.entries.filter isYaml).map ConfigEntry.name).Nodup :=
      listing.distinct.sublist (List.filter_sublist.map _)
    have injective : Function.Injective fun name : CString => configJoin dir name.bytes := by
      intro first second same
      have bytes : first.bytes = second.bytes := configJoin_injective dir same
      cases first
      cases second
      exact CString.mk.injEq .. ▸ bytes
    simpa [configFiles, Function.comp_def] using names.map injective

/-- The files without those that are refused. -/
theorem configFiles_withoutRefused {α : Type} (read : Bytes → Except Thrown α) (scan : Scan) :
    configFiles dir (withoutRefused dir read scan) =
      (configFiles dir scan).filter fun file => (read file).toOption.isSome := by
  cases scan with
  | error result => rfl
  | ok listing =>
    show ((listing.entries.filter _).filter isYaml).map _ = List.filter _ (List.map _ _)
    rw [List.filter_map, List.filter_filter, List.filter_filter]
    simp only [Function.comp_def, Bool.and_comm]

/-! ### One file -/

theorem contained_loadFile_iff (file : Bytes) :
    Contained Thrown.caught (loadFile files file) ↔ (files file).isSome = true := by
  unfold loadFile
  cases files file with
  | none => simp [contained_error_iff, Thrown.caught]
  | some node => simp [contained_ok]

theorem loadFile_eq_ok_iff {file : Bytes} {node : YamlNode} :
    loadFile files file = .ok node ↔ files file = some node := by
  unfold loadFile
  cases files file <;> simp

/-- **The file of a server throws a foreign exception only where it cannot be parsed.** -/
theorem contained_readServer_iff (file : Bytes) :
    Contained Thrown.caught (readServer yaml files dir file) ↔ (files file).isSome = true := by
  unfold readServer
  rw [contained_bind_iff, contained_loadFile_iff]
  refine and_iff_left fun node _ => ?_
  refine (contained_loadServer file node dir).bind fun server loaded => ?_
  obtain ⟨host, isHost, _⟩ := bind_eq_ok_iff.mp loaded
  have notScalar := not_scalar_of_getPropertyOr isHost
  exact ((contained_getProperty_iff ..).mpr notScalar).bind fun name _ => contained_ok _

/-- **The file of a handler** must also be no scalar, and its rules must compile. -/
theorem contained_readHandler_iff (servers : Servers) (file : Bytes) :
    Contained Thrown.caught (readHandler yaml regex files dir servers file) ↔
      ∃ node, files file = some node ∧ node.isScalar = false ∧
        PatternsCompile yaml regex node := by
  unfold readHandler
  rw [contained_bind_iff, contained_loadFile_iff]
  simp only [contained_bind_iff, loadFile_eq_ok_iff, contained_loadHandler_iff]
  constructor
  · rintro ⟨parsed, contained⟩
    obtain ⟨node, isNode⟩ := Option.isSome_iff_exists.mp parsed
    exact ⟨node, isNode, (contained node isNode).1⟩
  · rintro ⟨node, isNode, fine⟩
    refine ⟨Option.isSome_iff_exists.mpr ⟨node, isNode⟩, fun other isOther => ?_⟩
    obtain rfl := Option.some.inj (isNode.symm.trans isOther)
    refine ⟨fine, fun handler _ => ⟨(contained_getProperty_iff ..).mpr fine.1, fun server _ => ?_⟩⟩
    cases servers server with
    | none => exact (contained_error_iff _).mpr rfl
    | some found => exact contained_ok _

/-- A server stands at the address of its file. -/
theorem file_of_readServer {file name : Bytes} {server : LoadedServer}
    (read : readServer yaml files dir file = .ok (name, server)) : server.file = file := by
  obtain ⟨node, _, read⟩ := bind_eq_ok_iff.mp read
  obtain ⟨loaded, isLoaded, read⟩ := bind_eq_ok_iff.mp read
  obtain ⟨other, _, same⟩ := bind_eq_ok_iff.mp read
  obtain ⟨_, rfl⟩ := Prod.mk.inj (Except.ok.inj same)
  obtain ⟨host, _, isLoaded⟩ := bind_eq_ok_iff.mp isLoaded
  obtain ⟨port, _, isLoaded⟩ := bind_eq_ok_iff.mp isLoaded
  obtain ⟨cert, _, isLoaded⟩ := bind_eq_ok_iff.mp isLoaded
  obtain ⟨key, _, isLoaded⟩ := bind_eq_ok_iff.mp isLoaded
  exact (Except.ok.inj isLoaded) ▸ rfl

/-! ### Whole directories -/

/-- The names of the servers whose files are valid. -/
def serverNames (yaml : YamlCpp) (files : Files) (dir : Bytes) (scan : Scan) : List Bytes :=
  (data (readServer yaml files dir) (configFiles dir scan)).map Prod.fst

/-- **Every valid server is registered exactly when their names are distinct.** -/
theorem registered_iff (scan : Scan) :
    (∀ file ∈ configFiles dir scan, ∀ name server,
      readServer yaml files dir file = .ok (name, server) →
        (data (readServer yaml files dir) (configFiles dir scan)).foldl insertNew (fun _ => none)
          name = some server) ↔ (serverNames yaml files dir scan).Nodup := by
  have leads : ∀ (file : Bytes) (datum : Bytes × LoadedServer),
      readServer yaml files dir file = .ok datum → datum.2.file = file := by
    rintro file ⟨name, server⟩ read
    exact file_of_readServer read
  have distinct :
      ((data (readServer yaml files dir) (configFiles dir scan)).map Prod.snd).Nodup := by
    refine List.Nodup.of_map LoadedServer.file ?_
    rw [List.map_map]
    exact (configFiles_nodup dir scan).sublist (data_map_sublist _ leads _)
  unfold serverNames
  rw [← insertNew_all_iff distinct]
  constructor
  · rintro all ⟨name, server⟩ inside
    obtain ⟨file, isFile, read⟩ := (mem_data _).mp inside
    exact all file isFile name server read
  · rintro all file isFile name server read
    exact all (name, server) ((mem_data _).mpr ⟨file, isFile, read⟩)

theorem loadServers_of_parsed (yaml : YamlCpp) {scan : Scan}
    (parsed : ∀ file ∈ configFiles dir scan, (files file).isSome = true) :
    loadServers yaml files dir scan = .ok
      ((data (readServer yaml files dir) (configFiles dir scan)).foldl insertNew fun _ => none) :=
  (load_eq_ok_iff _ _).mpr
    ⟨fun file inside => (contained_readServer_iff file).mpr (parsed file inside), rfl⟩

theorem loadHandlers_of_fine (servers : Servers) {scan : Scan}
    (fine : ∀ file ∈ configFiles dir scan, ∃ node, files file = some node ∧
      node.isScalar = false ∧ PatternsCompile yaml regex node) :
    loadHandlers yaml regex files dir servers scan = .ok
      ((data (readHandler yaml regex files dir servers) (configFiles dir scan)).foldl push
        fun _ => none) :=
  (load_eq_ok_iff _ _).mpr
    ⟨fun file inside => (contained_readHandler_iff servers file).mpr (fine file inside), rfl⟩

/-- **When one bad file does not affect the others.** -/
theorem loadsEach_iff {serverDir handlerDir : Bytes} {serverScan handlerScan : Scan} :
    LoadsEach yaml regex files serverDir handlerDir serverScan handlerScan ↔
      (∀ file ∈ configFiles serverDir serverScan, (files file).isSome = true) ∧
      (serverNames yaml files serverDir serverScan).Nodup ∧
      ∀ file ∈ configFiles handlerDir handlerScan, ∃ node, files file = some node ∧
        node.isScalar = false ∧ PatternsCompile yaml regex node := by
  constructor
  · rintro ⟨servers, handlers, loaded, registered, _, loadedHandlers, _⟩
    obtain ⟨contained, rfl⟩ := (load_eq_ok_iff _ _).mp loaded
    obtain ⟨containedToo, _⟩ := (load_eq_ok_iff _ _).mp loadedHandlers
    exact ⟨fun file inside => (contained_readServer_iff file).mp (contained file inside),
      (registered_iff serverScan).mp registered,
      fun file inside => (contained_readHandler_iff _ file).mp (containedToo file inside)⟩
  · rintro ⟨parsed, distinct, fine⟩
    have loaded := loadServers_of_parsed yaml parsed
    refine ⟨_, _, loaded, (registered_iff serverScan).mpr distinct, ?_,
      loadHandlers_of_fine _ fine, fun file inside server handler read => ?_, ?_⟩
    · unfold loadServers
      rw [configFiles_withoutRefused]
      exact load_filter _ _ loaded
    · exact mem_foldl_push ((mem_data _).mpr ⟨file, inside, read⟩)
    · unfold loadHandlers
      rw [configFiles_withoutRefused]
      exact load_filter _ _ (loadHandlers_of_fine _ fine)

/-! ### Files that affect others -/

/-- Scalars are strings, and nothing else is converted. -/
def plainYaml : YamlCpp where
  asString
    | .scalar _ value => some value
    | .null _ | .sequence _ _ | .map _ _ => none
  asInt _ := none
  asBool _ := none
  strict := false
  badConversion := text "bad conversion"
  badSubscript _ := text "operator[] call on a scalar"
  what _ message := message

/-- A property, and its value, at one mark. -/
def plainPair (name value : Bytes) : YamlNode × YamlNode :=
  (.scalar ⟨0, 0⟩ name, .scalar ⟨0, 0⟩ value)

/-- A valid server. -/
def mainServer : YamlNode := .map ⟨0, 0⟩
  [plainPair (text "name") (text "main"), plainPair (text "cert") (text "/c"),
    plainPair (text "key") (text "/k")]

/-- A handler with a rule. -/
def ruledHandler : YamlNode := .map ⟨0, 0⟩
  [plainPair (text "server") (text "main"), plainPair (text "handler") (text "filehandler"),
    plainPair (text "folder") (text "/f"),
    (.scalar ⟨0, 0⟩ (text "rules"), .sequence ⟨0, 0⟩ [.scalar ⟨0, 0⟩ (text "(")])]

/-- Two files. -/
def twoFiles : Scan :=
  .ok ⟨[⟨⟨text "a.yml", by decide⟩, true⟩, ⟨⟨text "b.yaml", by decide⟩, true⟩], by decide⟩

/-- A directory with these contents. -/
def twoContents (first second : Option YamlNode) : Files := fun file =>
  if file = text "/a.yml" then first else if file = text "/b.yaml" then second else none

/-- Beside a valid server: a file that cannot be parsed, and a server of the same name. Beside a
valid handler: a scalar, and a rule that does not compile. -/
theorem loadsEach_fails :
    ¬ LoadsEach plainYaml (fun _ => none) (twoContents (some mainServer) none) (text "/") (text "/")
        twoFiles (.error (-2)) ∧
      ¬ LoadsEach plainYaml (fun _ => none) (twoContents (some mainServer) (some mainServer))
        (text "/") (text "/") twoFiles (.error (-2)) ∧
      ¬ LoadsEach plainYaml (fun _ => none) (twoContents (some (.scalar ⟨0, 0⟩ [])) none) (text "/")
        (text "/") (.error (-2)) twoFiles ∧
      ¬ LoadsEach plainYaml (fun _ => none) (twoContents (some ruledHandler) none) (text "/")
        (text "/") (.error (-2)) twoFiles := by
  refine ⟨?_, ?_, ?_, ?_⟩
  · rintro ⟨servers, handlers, loaded, _⟩
    cases loaded
  · rintro ⟨servers, handlers, loaded, registered, _⟩
    have isLoaded : loadServers plainYaml (twoContents (some mainServer) (some mainServer))
        (text "/") twoFiles = .ok _ := rfl
    obtain rfl := Except.ok.inj (isLoaded.symm.trans loaded)
    have second := registered (text "/b.yaml") (by decide) (text "main") _ rfl
    revert second
    decide
  · rintro ⟨servers, handlers, loaded, _, _, loadedHandlers, _⟩
    obtain rfl := Except.ok.inj loaded
    cases loadedHandlers
  · rintro ⟨servers, handlers, loaded, _, _, loadedHandlers, _⟩
    obtain rfl := Except.ok.inj loaded
    cases loadedHandlers

end GemCaps
