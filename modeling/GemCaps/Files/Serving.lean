/-
**Serving one request** (`FileHandler::handle` and the callbacks of `filehandler.cpp`).

A request is a machine: `handle` makes its first state, and every step is a callback that libuv runs
with some result, or the close callback of the connection. The state keeps what the source keeps in
the `RequestContext` and the `CGIRunner`, and the trace of everything that was done: calls on the
client, validations, operations started, resources acquired and released. A connection that is gone
still receives the calls that the source makes through its dangling pointer.
-/

import GemCaps.Connection.Manager
import GemCaps.Executor.Arrays
import GemCaps.Files.Handler

namespace GemCaps

/-- What the program is linked with, and what the calls of libuv that do not wait return. -/
structure System where
  /-- `PATH`. -/
  path : CString
  programs : Programs
  /-- `mimeTypes.getType`; `none` is the null pointer. -/
  mimeType : Bytes → Option Bytes
  /-- The results of `uv_pipe` and `uv_spawn`. -/
  pipeResult : Int
  spawnResult : Int

/-- A system without programs, on which every operation succeeds. -/
def plainSystem : System :=
  { path := ⟨text "/usr/bin", by decide⟩, programs := fun _ => none
    mimeType := fun _ => some (text "text/plain"), pipeResult := 0, spawnResult := 0 }

/-- What a request acquires and has to release. -/
inductive Resource where
  | context
  | buffer
  | descriptor
  | pipeRead
  | pipeWrite
deriving DecidableEq

/-- The callbacks that are registered for the end of the connection. -/
inductive CloseCallback where
  | onClientClosed
  | runnerClosed
deriving DecidableEq

/-- An operation on the `uv_fs_t` of the context. -/
inductive Operation where
  | stat (path : CString)
  | scandir (path : CString)
  | openFile (path : CString)
  | read (fd : Int) (offset : Nat)
  | closeFile (fd : Int)
deriving DecidableEq

/-- What is done while a request is served. -/
inductive Action where
  | validate (file : Bytes) (allowed : Bool)
  | send (data : Bytes)
  | close
  | setClientCloseCallback (callback : CloseCallback)
  | acquire (resource : Resource)
  | release (resource : Resource)
  | start (operation : Operation)
  /-- The callback of the operation that was started last is entered. -/
  | finish
  | spawn (executor : Executor)
  | signal
deriving DecidableEq

/-- `CGIRunner`; `response` says whether the pointer is set. -/
structure CGIRunner where
  executor : Executor
  alive : Bool := false
  response : Bool := true
  closing : Bool := false

/-- A request that is being served. -/
structure Serving where
  request : Request
  file : Bytes := []
  fd : Int := 0
  offset : Nat := 0
  /-- The operation that uses the `uv_fs_t` of the context. -/
  pending : Option Operation := none
  runner : Option CGIRunner := none
  callback : Option CloseCallback := none
  connected : Bool := true
  /-- The source has dereferenced a null pointer, or closed a handle twice. -/
  crashed : Bool := false
  trace : List Action := []

/-- An entry of a directory, with a name from the operating system. -/
structure Dirent where
  name : CString
  isDir : Bool

/-- `string::c_str()` as an argument. -/
def handed (file : Bytes) : CString := ⟨cStr file, noNul_cStr file⟩

/-! ### The responses -/

def cgiError : Bytes := responseHeader resErrorCgi (text "Could not run script")
def illegalFile : Bytes := responseHeader resNotFound (text "Illegal File")
def doesNotExist : Bytes := responseHeader resNotFound (text "File does not exist")
def fileNotOpen : Bytes := responseHeader resGone (text "File could not be opened")

/-- The body of a directory listing. `dirname` reads before the start of a path of separators only;
what it finds there is no separator. -/
def listing (path : Bytes) (folders children : List Bytes) : Bytes :=
  text "# DirectoryContents\n\n## " ++ path ++ text "\n\n" ++
    text "=> " ++ (Path.dirname path).getD [] ++ text " back\n\n" ++
    (folders.flatMap fun folder =>
      text "=> " ++ Path.join path folder ++ text "/ " ++ folder ++ text "/\n") ++
    text "\n" ++
    children.flatMap fun file => text "=> " ++ Path.join path file ++ text " " ++ file ++ text "\n"

namespace Serving

section Functions

variable (system : System) (handler : FileHandler) (serving : Serving)

/-- Do these things. -/
def act (actions : List Action) : Serving := { serving with trace := serving.trace ++ actions }

/-- Send a whole response and close the connection. -/
def respond (response : Bytes) : Serving := serving.act [.send response, .close]

/-- Start an operation on the `uv_fs_t` of the context. -/
def start (operation : Operation) : Serving :=
  { serving.act [.start operation] with pending := some operation }

/-- Enter the callback of the pending operation. -/
def finish : Serving := { serving.act [.finish] with pending := none }

/-- `FileHandler::handle`. -/
def handle (request : Request) : Serving :=
  let file := FileHandler.canonical request.path
  if file ≠ request.path then ({ request } : Serving).respond (responseHeader resRedirectPerm file)
  else
    let file := handler.mapped file
    if handler.validateFile file then
      ({ request, file, callback := some .onClientClosed } : Serving).act
        [.validate file true, .acquire .context, .setClientCloseCallback .onClientClosed]
        |>.start (.stat (handed file))
    else (({ request } : Serving).act [.validate file false]).respond illegalFile

/-! ### CGI -/

/-- `executor.signal(SIGINT)`. -/
def interrupt (runner : CGIRunner) : Serving := if runner.alive then serving.act [.signal] else serving

/-- `CGIRunner::close`. A second `uv_close` of the pipe fails an assertion of libuv, and after
`__on_pipe_closed` the pointer is null. -/
def closeRunner (runner : CGIRunner) : Serving :=
  if runner.response ∧ runner.closing = false then
    { (serving.interrupt runner).act [.close, .release .pipeRead] with
      runner := some { runner with closing := true } }
  else { (serving.interrupt runner).act [.close] with crashed := true }

/-- `uv_pipe`. -/
def pipe : Serving :=
  if system.pipeResult = 0 then serving.act [.acquire .pipeRead, .acquire .pipeWrite] else serving

/-- `Executor::spawn`, and the rest of `CGIRunner::run`; `uv_spawn` asserts that there is a file. -/
def spawn (runner : CGIRunner) : Serving :=
  if runner.executor.args = [] then { serving with runner := some runner, crashed := true }
  else if system.spawnResult ≠ 0 then
    { serving.act [.spawn runner.executor, .send cgiError] with runner := some runner }.closeRunner
      runner
  else { serving.act [.spawn runner.executor] with runner := some { runner with alive := true } }

/-- `CGIRunner::run`. -/
def run (runner : CGIRunner) : Serving := (serving.pipe system).spawn system runner

/-- `run_cgi` with the constructor of `CGIRunner`. -/
def runCgi : Serving :=
  let env := handler.generateEnvironment system.path serving.file serving.request
  let runner : CGIRunner := { executor := .make system.programs serving.file (bindings env) [] }
  { serving.act [.setClientCloseCallback .runnerClosed] with callback := some .runnerClosed }.run
    system runner

/-- `CGIRunner::onExit`. -/
def onExit (runner : CGIRunner) : Serving := serving.closeRunner { runner with alive := false }

/-- `CGIRunner::__on_read`. -/
def onPipeRead (runner : CGIRunner) (nread : Int) (data : Bytes) : Serving :=
  if nread < 0 then serving.closeRunner runner else serving.act [.send (data.take nread.toNat)]

/-- `CGIRunner::__on_pipe_closed`. -/
def onPipeClosed (runner : CGIRunner) : Serving :=
  { serving with runner := some { runner with response := false, closing := false } }

/-! ### Files -/

/-- `read_file`. -/
def readFile : Serving :=
  if handler.isExecutable serving.file then serving.runCgi system handler
  else serving.start (.openFile (handed serving.file))

/-- `file_on_open`. -/
def fileOnOpen (result : Int) : Serving :=
  if result < 0 then serving.respond fileNotOpen
  else
    let opened := { serving.act [.acquire .descriptor, .acquire .buffer] with fd := result, offset := 0 }
    match system.mimeType (cStr serving.file) with
    | none => { opened with crashed := true }
    | some mimeType =>
      (opened.act [.send (responseHeader resSuccess mimeType)]).start (.read result 0)

/-- `file_on_read`; `data` is what the buffer holds. -/
def fileOnRead (result : Int) (data : Bytes) : Serving :=
  if result ≤ 0 then
    (serving.act [.close, .release .descriptor]).start (.closeFile serving.fd)
  else
    let offset := serving.offset + result.toNat
    { serving.act [.send (data.take result.toNat)] with offset }.start (.read serving.fd offset)

/-! ### Directories -/

/-- What the loop over the entries ends with. -/
inductive Scan where
  | accepted (file : Bytes)
  | exhausted (folders children : List Bytes)

/-- The loop of `dir_on_scan`, with the validations it makes. -/
def scan (file : Bytes) : List Dirent → List Bytes → List Bytes → List Action × Scan
  | [], folders, children => ([], .exhausted folders children)
  | entry :: entries, folders, children =>
    let name := entry.name.bytes
    let folders := if entry.isDir then folders ++ [name] else folders
    let children := if entry.isDir then children else children ++ [name]
    if text "index." <+: name then
      let newFile := Path.join file name
      if handler.validateFile newFile then ([.validate newFile true], .accepted newFile)
      else
        let rest := scan file entries folders children
        (.validate newFile false :: rest.1, rest.2)
    else scan file entries folders children

/-- The end of `dir_on_scan`: no entry was accepted. -/
def listDirectory (folders children : List Bytes) : Serving :=
  if handler.canReadDirs then
    serving.act [.send (responseHeader resSuccess (text "text/gemini")),
      .send (listing serving.request.path folders children), .close, .release .context]
  else serving.act [.send doesNotExist, .close, .release .context]

/-- `dir_on_scan`. -/
def dirOnScan (result : Int) (entries : List Dirent) : Serving :=
  if result < 0 then serving.act [.send fileNotOpen, .close, .release .context]
  else
    let scanned := scan handler serving.file entries [] []
    match scanned.2 with
    | .accepted newFile => { serving.act scanned.1 with file := newFile }.readFile system handler
    | .exhausted folders children =>
      (serving.act scanned.1).listDirectory handler folders children

/-- `read_dir`. -/
def readDir : Serving := serving.start (.scandir (handed serving.file))

/-- The bits of `st_mode` that `handle_on_stat` tests. -/
def isDir (mode : Nat) : Bool := mode &&& 0o040000 != 0

def isFile (mode : Nat) : Bool := mode &&& 0o100000 != 0

/-- `handle_on_stat`. -/
def handleOnStat (result : Int) (mode : Nat) : Serving :=
  let path := serving.request.path
  if result ≠ 0 then serving.respond doesNotExist
  else if isDir mode then
    if path.getLast? ≠ some slash then
      serving.respond (responseHeader resRedirectPerm (path ++ [slash]))
    else serving.readDir
  else if isFile mode then
    if path.getLast? = some slash then
      serving.respond (responseHeader resRedirectPerm path.dropLast)
    else serving.readFile system handler
  else serving.respond doesNotExist

/-! ### The end of the connection -/

/-- The registered callbacks: `on_client_closed`, and the destructor of `CGIRunner`. -/
def invoke : CloseCallback → Serving
  | .onClientClosed => serving.act [.release .context]
  | .runnerClosed =>
    match serving.runner with
    | none => serving
    | some runner =>
      let released := serving.act [.release .context]
      if runner.response ∧ runner.closing = false then
        { released.closeRunner runner with runner := none }
      else { released with runner := none }

/-- `on_close` of the context that is registered with the client. -/
def onClose (context : ClientContext) : Serving :=
  let erased := { serving with connected := false }
  match context, serving.callback with
  | .connection, some callback => erased.invoke callback
  | _, _ => erased

end Functions

end Serving

/-- The callbacks that libuv runs while a request is served, with their results. -/
inductive ServingEvent where
  | statDone (result : Int) (mode : Nat)
  | scanDone (result : Int) (entries : List Dirent)
  | openDone (result : Int)
  | readDone (result : Int) (data : Bytes)
  | closeDone
  | pipeRead (nread : Int) (data : Bytes)
  | processExit
  | pipeClosed
  | connectionClosed

namespace Serving

/-- One step; `none` where the callback cannot come. The connection was accepted by the `Manager`,
which is therefore the context of its client. -/
def step (system : System) (handler : FileHandler) (serving : Serving) (event : ServingEvent) :
    Option Serving :=
  if serving.crashed then none
  else match event, serving.pending, serving.runner with
    | .statDone result mode, some (.stat _), _ =>
      some (serving.finish.handleOnStat system handler result mode)
    | .scanDone result entries, some (.scandir _), _ =>
      some (serving.finish.dirOnScan system handler result entries)
    | .openDone result, some (.openFile _), _ => some (serving.finish.fileOnOpen system result)
    | .readDone result data, some (.read _ _), _ => some (serving.finish.fileOnRead result data)
    | .closeDone, some (.closeFile _), _ => some serving.finish
    | .pipeRead nread data, _, some runner =>
      if runner.response ∧ runner.closing = false then some (serving.onPipeRead runner nread data)
      else none
    | .processExit, _, some runner => if runner.alive then some (serving.onExit runner) else none
    | .pipeClosed, _, some runner =>
      if runner.closing then some (serving.onPipeClosed runner) else none
    | .connectionClosed, _, _ => if serving.connected then some (serving.onClose .manager) else none
    | _, _, _ => none

/-! ### The first state -/

/-- A request that is neither redirected nor refused at once. -/
def Admitted (handler : FileHandler) (request : Request) : Prop :=
  FileHandler.canonical request.path = request.path ∧
    handler.validateFile (handler.mapped request.path) = true

instance (handler : FileHandler) (request : Request) : Decidable (Admitted handler request) :=
  inferInstanceAs (Decidable (_ ∧ _))

/-- An admitted request waits for the result of its `stat`. -/
theorem handle_of_admitted {handler : FileHandler} {request : Request}
    (admitted : Admitted handler request) :
    handle handler request =
      ⟨request, handler.mapped request.path, 0, 0,
        some (.stat (handed (handler.mapped request.path))), none, some .onClientClosed, true, false,
        [.validate (handler.mapped request.path) true, .acquire .context,
          .setClientCloseCallback .onClientClosed,
          .start (.stat (handed (handler.mapped request.path)))]⟩ := by
  obtain ⟨canonical, valid⟩ := admitted
  simp only [handle, canonical, ne_eq, not_true_eq_false, if_false, valid, if_true]
  rfl

/-- Any other request is answered at once. -/
theorem handle_of_not_admitted {handler : FileHandler} {request : Request}
    (refused : ¬ Admitted handler request) :
    ∃ trace, handle handler request = ⟨request, [], 0, 0, none, none, none, true, false, trace⟩ ∧
      (trace = [.send (responseHeader resRedirectPerm (FileHandler.canonical request.path)), .close] ∨
        trace = [.validate (handler.mapped request.path) false, .send illegalFile, .close]) := by
  by_cases canonical : FileHandler.canonical request.path = request.path
  · have invalid : ¬ handler.validateFile (handler.mapped request.path) = true := fun valid =>
      refused ⟨canonical, valid⟩
    refine ⟨_, ?_, Or.inr rfl⟩
    simp only [handle, canonical, ne_eq, not_true_eq_false, if_false, if_neg invalid]
    rfl
  · refine ⟨_, ?_, Or.inl rfl⟩
    simp only [handle, ne_eq, canonical, not_false_eq_true, if_true]
    rfl

end Serving

end GemCaps
