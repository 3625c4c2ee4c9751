/-
**The file handler: configuration and pure parts** (`filehandler.cpp`).

`FileHandler` holds what `FileHandlerFactory::createHandler` reads from the settings. A rule is any
predicate on byte strings. What needs no file system is here: which requests a handler takes, which
file a request is mapped to, which files may be sent or executed, and the environment of a CGI
process. `FileHandler.folder_normal`: the folder of a created handler is a joined normal list.
-/

import GemCaps.Path.Normal
import GemCaps.Request.Parse
import Mathlib.Data.List.AList

namespace GemCaps

/-- `phmap::flat_hash_map<string, string>`. -/
abbrev Vars := AList fun _ : Bytes => Bytes

/-- The bindings of a map. -/
def bindings (vars : Vars) : List (Bytes × Bytes) := vars.entries.map fun var => (var.1, var.2)

/-- `FileHandler`. -/
structure FileHandler where
  host : Bytes
  folder : Bytes
  base : Bytes
  readDirs : Bool
  rules : List (Bytes → Bool)
  cgiTypes : List Bytes
  cgiLang : Bytes
  cgiVars : Vars

/-! ### Creating a handler -/

/-- The properties that are read from the settings; `none` is a property that is not there. -/
structure Settings where
  host : Option Bytes := none
  folder : Option Bytes
  base : Option Bytes := none
  readDirs : Option Bool := none
  rules : List Bytes := []
  cgiTypes : List Bytes := []
  cgiLang : Option Bytes := none
  cgiVars : List (Bytes × Bytes) := []

/-- The exceptions that leave `createHandler`. -/
inductive SettingsError where
  | invalidSettings (message : Bytes)
  | regexError
deriving DecidableEq

/-- `flat_hash_map::insert` keeps a binding that is already there. -/
def insertVar (vars : Vars) (var : Bytes × Bytes) : Vars :=
  if var.1 ∈ vars then vars else vars.insert var.1 var.2

/-- `FileHandlerFactory::createHandler(settings, dir)`; `regex` compiles a rule. -/
def createHandler (regex : Bytes → Option (Bytes → Bool)) (settings : Settings) (dir : Bytes) :
    Except SettingsError FileHandler :=
  match settings.folder with
  | none => .error (.invalidSettings (text "folder is a required property"))
  | some folder =>
    match settings.rules.mapM regex with
    | none => .error .regexError
    | some rules =>
      let folder := if Path.isrel folder then Path.join dir folder else folder
      .ok ⟨settings.host.getD [], Path.delUps folder, settings.base.getD [],
        settings.readDirs.getD true, rules, settings.cgiTypes,
        settings.cgiLang.getD (text "en_US.UTF-8"), settings.cgiVars.foldl insertVar ∅⟩

namespace FileHandler

variable (handler : FileHandler)

/-! ### Which files may be sent or executed -/

/-- `FileHandler::canReadDirs`. -/
def canReadDirs : Bool := handler.readDirs

/-- `FileHandler::validateFile`. -/
def validateFile (file : Bytes) : Bool := handler.rules.all fun pattern => pattern file

/-- `FileHandler::isExecutable`; the start of the search is a `size_t`. -/
def isExecutable (file : Bytes) : Bool := handler.cgiTypes.any fun cgiType =>
  (findText file cgiType (sizeSub file.length cgiType.length)).isSome

/-- `FileHandler::shouldHandle`. -/
def shouldHandle (host path : Bytes) : Bool :=
  (handler.host.isEmpty || handler.host == host) &&
    (handler.base.isEmpty || Path.isSubpath handler.base path)

/-! ### The file a request is mapped to -/

/-- The path `FileHandler::handle` redirects to when the request has another one. -/
def canonical (path : Bytes) : Bytes :=
  if path.getLast? = some slash then Path.delUps path ++ [slash] else Path.delUps path

/-- The path below the base. -/
def served (path : Bytes) : Bytes :=
  if handler.base.isEmpty then path else Path.relpath path handler.base

/-- The file of a request with a canonical path. -/
def mapped (path : Bytes) : Bytes := Path.join handler.folder (Path.delUps (handler.served path))

/-! ### The environment of a CGI process -/

/-- `SOFTWARE`. -/
def software : Bytes := text "GemCaps-0.3.2-alpha"

/-- The text of the header up to its first CR. -/
def url (request : Request) : Bytes :=
  match find request.header cr 0 with
  | none => request.header
  | some pos => request.header.take pos

/-- The assignments of `generateEnvironment`, in their order; `path` is `Executor::getPath()`. -/
def assignments (path : CString) (file : Bytes) (request : Request) : List (Bytes × Bytes) :=
  [(text "GATEWAY_INTERFACE", text "CGI/1.1"),
    (text "GEMINI_DOCUMENT_ROOT", handler.folder),
    (text "GEMINI_SCRIPT_FILENAME", file),
    (text "GEMINI_URL", url request),
    (text "GEMINI_URL_PATH", request.path),
    (text "LANG", handler.cgiLang),
    (text "LC_COLLATE", text "C"),
    (text "PATH", path.bytes),
    (text "QUERY_STRING", request.query),
    (text "REMOTE_ADDR", []),
    (text "REMOTE_HOST", []),
    (text "REQUEST_METHOD", []),
    (text "SCRIPT_NAME", slash :: Path.relpath file handler.folder),
    (text "SERVER_NAME", request.host),
    (text "SERVER_PORT", decimal request.port),
    (text "SERVER_PROTOCOL", text "GEMINI"),
    (text "SERVER_SOFTWARE", software)]

/-- `FileHandler::generateEnvironment`. -/
def generateEnvironment (path : CString) (file : Bytes) (request : Request) : Vars :=
  (handler.assignments path file request).foldl (fun env var => env.insert var.1 var.2)
    handler.cgiVars

end FileHandler

/-! ### What a created handler satisfies -/

/-- **The folder of a created handler is a joined normal list.** -/
theorem FileHandler.folder_normal {regex : Bytes → Option (Bytes → Bool)} {settings : Settings}
    {dir : Bytes} {handler : FileHandler} (created : createHandler regex settings dir = .ok handler) :
    ∃ parts, Path.Normal parts ∧ handler.folder = Path.joinAll parts := by
  unfold createHandler at created
  cases isFolder : settings.folder with
  | none =>
    rw [isFolder] at created
    cases created
  | some folder =>
    rw [isFolder] at created
    cases isRules : settings.rules.mapM regex with
    | none =>
      simp only [isRules] at created
      cases created
    | some rules =>
      simp only [isRules, Except.ok.injEq] at created
      subst created
      exact ⟨_, Path.delUpsParts_normal _, rfl⟩

end GemCaps
