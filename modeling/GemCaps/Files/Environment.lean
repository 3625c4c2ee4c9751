/-
**The environment of a CGI process.**

`env_faithful_iff`: whatever the request is, the script finds exactly the bindings of
`generateEnvironment` in its environment, under no other names than the fixed and the configured
ones, if and only if no CR and no NUL came in with the script file, `PATH`, the host, the path, the
query, or the URL. The parser cuts host and path at other delimiters than the CR first, so that a CR
can stand in both of them, and what follows it is cut off as a variable of its own.
-/

import GemCaps.Executor.Arrays
import GemCaps.Files.Handler

namespace GemCaps

open Cutting FileHandler

/-! ### Assigning to a map -/

/-- A key that is not assigned keeps its value. -/
theorem lookup_foldl_insert_of_notMem {assigned : List (Bytes × Bytes)} {key : Bytes}
    (other : key ∉ assigned.map Prod.fst) (vars : Vars) :
    (assigned.foldl (fun env var => env.insert var.1 var.2) vars).lookup key = vars.lookup key := by
  induction assigned generalizing vars with
  | nil => rfl
  | cons var assigned ih =>
    rw [List.map_cons, List.mem_cons, not_or] at other
    rw [List.foldl_cons, ih other.2, AList.lookup_insert_ne other.1]

/-- An assigned key has the value assigned, when no key is assigned twice. -/
theorem lookup_foldl_insert_of_mem {assigned : List (Bytes × Bytes)}
    (distinct : (assigned.map Prod.fst).Nodup) {key value : Bytes} (inside : (key, value) ∈ assigned)
    (vars : Vars) :
    (assigned.foldl (fun env var => env.insert var.1 var.2) vars).lookup key = some value := by
  induction assigned generalizing vars with
  | nil => exact absurd inside List.not_mem_nil
  | cons var assigned ih =>
    obtain ⟨fresh, distinct⟩ := List.nodup_cons.mp distinct
    rcases List.mem_cons.mp inside with rfl | later
    · rw [List.foldl_cons, lookup_foldl_insert_of_notMem fresh, AList.lookup_insert]
    · exact ih distinct later _

theorem mem_bindings_iff (vars : Vars) (key value : Bytes) :
    (key, value) ∈ bindings vars ↔ vars.lookup key = some value := by
  rw [← Option.mem_def, AList.mem_lookup_iff, bindings, List.mem_map]
  constructor
  · rintro ⟨⟨_, _⟩, inside, same⟩
    obtain ⟨rfl, rfl⟩ := Prod.mk.inj same
    exact inside
  · exact fun inside => ⟨⟨key, value⟩, inside, rfl⟩

/-! ### The bindings of the environment -/

section Bindings

variable (handler : FileHandler) (path : CString) (file : Bytes) (request : Request)

/-- The names that every CGI process gets. -/
def fixedNames : List Bytes :=
  [text "GATEWAY_INTERFACE", text "GEMINI_DOCUMENT_ROOT", text "GEMINI_SCRIPT_FILENAME",
    text "GEMINI_URL", text "GEMINI_URL_PATH", text "LANG", text "LC_COLLATE", text "PATH",
    text "QUERY_STRING", text "REMOTE_ADDR", text "REMOTE_HOST", text "REQUEST_METHOD",
    text "SCRIPT_NAME", text "SERVER_NAME", text "SERVER_PORT", text "SERVER_PROTOCOL",
    text "SERVER_SOFTWARE"]

theorem assignments_names :
    (handler.assignments path file request).map Prod.fst = fixedNames := rfl

theorem fixedNames_nodup : fixedNames.Nodup := by decide +kernel

/-- The fixed names hold none of the letters with a meaning in the array. -/
theorem fixedNames_plain : ∀ name ∈ fixedNames, cr ∉ name ∧ nul ∉ name ∧ equals ∉ name := by
  decide +kernel

theorem assignments_subset {var : Bytes × Bytes}
    (inside : var ∈ handler.assignments path file request) :
    var ∈ bindings (handler.generateEnvironment path file request) :=
  (mem_bindings_iff _ var.1 var.2).mpr
    (lookup_foldl_insert_of_mem (assignments_names handler path file request ▸ fixedNames_nodup)
      inside _)

/-- A binding of the environment is assigned or configured. -/
theorem mem_generateEnvironment {var : Bytes × Bytes}
    (inside : var ∈ bindings (handler.generateEnvironment path file request)) :
    var ∈ handler.assignments path file request ∨ var ∈ bindings handler.cgiVars := by
  obtain ⟨key, value⟩ := var
  have found := (mem_bindings_iff _ key value).mp inside
  by_cases assigned : key ∈ (handler.assignments path file request).map Prod.fst
  · obtain ⟨⟨_, other⟩, isAssigned, rfl⟩ := List.mem_map.mp assigned
    have value' := (mem_bindings_iff _ _ _).mp (assignments_subset handler path file request isAssigned)
    rw [found, Option.some.injEq] at value'
    exact Or.inl (value' ▸ isAssigned)
  · rw [generateEnvironment, lookup_foldl_insert_of_notMem assigned] at found
    exact Or.inr ((mem_bindings_iff _ key value).mpr found)

end Bindings

/-! ### Strings that survive -/

/-- A string without the letters that end a string in the array. -/
def Clean (string : Bytes) : Prop := cr ∉ string ∧ nul ∉ string

instance (string : Bytes) : Decidable (Clean string) := inferInstanceAs (Decidable (_ ∧ _))

theorem clean_envString (var : Bytes × Bytes) :
    Clean (envString var) ↔ Clean var.1 ∧ Clean var.2 := by
  have letters : cr ≠ equals ∧ nul ≠ equals := by decide
  simp only [Clean, envString, List.mem_append, List.mem_cons, letters, false_or, not_or]
  exact and_and_and_comm

/-- The relative path has no other letters than the path and the separator. -/
theorem mem_relpath {file folder : Bytes} {letter : Byte}
    (inside : letter ∈ Path.relpath file folder) : letter ∈ file ∨ letter = slash := by
  rcases Path.relpath_eq file folder with same | ⟨count, same⟩
  · exact Or.inl (same ▸ inside)
  · rw [same] at inside
    refine (Path.mem_joinAll inside).imp_left fun ⟨part, isPart, isLetter⟩ => ?_
    rw [Path.split_eq_fields] at isPart
    exact mem_of_mem_fields (List.mem_of_mem_drop isPart) letter isLetter

theorem clean_decimal (number : Nat) : Clean (decimal number) := by
  obtain ⟨areDigits, _⟩ := decimal_spec number
  exact ⟨fun inside => absurd (areDigits cr inside) (by decide),
    fun inside => absurd (areDigits nul inside) (by decide)⟩

theorem url_eq_before (request : Request) : url request = before cr request.header := by
  unfold url
  cases found : find request.header cr 0 with
  | none => exact (before_of_notMem (by simpa using find_eq_none_iff.mp found)).symm
  | some pos =>
    obtain ⟨front, back, here, free, rfl⟩ := exists_of_find_eq_some found
    rw [List.drop_zero] at here
    simp [here, before_append_cons free]

/-! ### What the script finds -/

/-- The name under which a process finds a string of its environment. -/
def variableName (string : Bytes) : Bytes := before equals string

/-- The environment of a process is the map, and has no name that is neither fixed nor configured. -/
structure EnvFaithful (handler : FileHandler) (vars : Vars) (env : List Bytes) : Prop where
  entries : env.Perm ((bindings vars).map envString)
  names : ∀ string ∈ env, variableName string ∈ fixedNames ∨
    ∃ var ∈ bindings handler.cgiVars, variableName string = variableName var.1

/-- No CR and no NUL comes in with a request. -/
structure CleanRequest (path : CString) (file : Bytes) (request : Request) : Prop where
  file : Clean file
  path : cr ∉ path.bytes
  url : nul ∉ url request
  host : Clean request.host
  urlPath : Clean request.path
  query : Clean request.query

section Script

variable {handler : FileHandler} {programs : Programs} {path : CString} {file : Bytes}
  {request : Request} {order : List (Bytes × Bytes)}

/-- A configuration without CR and NUL. -/
structure CleanSettings (handler : FileHandler) : Prop where
  vars : ∀ var ∈ bindings handler.cgiVars, Clean var.1 ∧ Clean var.2
  lang : Clean handler.cgiLang
  folder : Clean handler.folder

theorem clean_assignments (settings : CleanSettings handler) (clean : CleanRequest path file request) :
    ∀ var ∈ handler.assignments path file request, Clean var.1 ∧ Clean var.2 := by
  have names : ∀ name ∈ fixedNames, Clean name := fun name inside =>
    ⟨(fixedNames_plain name inside).1, (fixedNames_plain name inside).2.1⟩
  have relative : Clean (slash :: Path.relpath file handler.folder) := by
    constructor <;> rintro (_ | ⟨_, inside⟩) <;> rcases mem_relpath inside with inFile | isSlash
    · exact clean.file.1 inFile
    · exact absurd isSlash (by decide)
    · exact clean.file.2 inFile
    · exact absurd isSlash (by decide)
  have url : Clean (url request) :=
    ⟨by rw [url_eq_before]; exact mark_notMem_before cr _, clean.url⟩
  intro var inside
  refine ⟨names var.1 (List.mem_map_of_mem inside), ?_⟩
  simp only [assignments, List.mem_cons, List.not_mem_nil, or_false] at inside
  rcases inside with rfl | rfl | rfl | rfl | rfl | rfl | rfl | rfl | rfl | rfl | rfl | rfl | rfl |
    rfl | rfl | rfl | rfl
  · decide
  · exact settings.folder
  · exact clean.file
  · exact url
  · exact clean.urlPath
  · exact settings.lang
  · decide
  · exact ⟨clean.path, path.noNul⟩
  · exact clean.query
  · decide
  · decide
  · decide
  · exact relative
  · exact clean.host
  · exact clean_decimal request.port
  · decide
  · decide

/-- The array holds the bindings exactly when every binding survives. -/
theorem env_perm_iff (programs : Programs)
    (isOrder : order.Perm (bindings (handler.generateEnvironment path file request))) :
    (Executor.make programs file order []).env.Perm
        ((bindings (handler.generateEnvironment path file request)).map envString) ↔
      ∀ var ∈ bindings (handler.generateEnvironment path file request), Clean var.1 ∧ Clean var.2 := by
  have rendered := isOrder.map envString
  have array := processArray_perm_iff (order.map envString)
  rw [rendered.congr_right] at array
  refine array.trans ⟨fun clean var inside => ?_, fun clean string inside => ?_⟩
  · exact (clean_envString var).mp (clean _ (List.mem_map_of_mem (isOrder.mem_iff.mpr inside)))
  · obtain ⟨var, isVar, rfl⟩ := List.mem_map.mp inside
    exact (clean_envString var).mpr (clean var (isOrder.mem_iff.mp isVar))

/-- **Every binding survives exactly when the request is clean.** -/
theorem clean_bindings_iff (settings : CleanSettings handler) :
    (∀ var ∈ bindings (handler.generateEnvironment path file request), Clean var.1 ∧ Clean var.2) ↔
      CleanRequest path file request := by
  constructor
  · intro clean
    have value : ∀ name value : Bytes, (name, value) ∈ handler.assignments path file request →
        Clean value := fun name value inside =>
      (clean _ (assignments_subset handler path file request inside)).2
    exact ⟨value (text "GEMINI_SCRIPT_FILENAME") file (by simp [assignments]),
      (value (text "PATH") path.bytes (by simp [assignments])).1,
      (value (text "GEMINI_URL") (url request) (by simp [assignments])).2,
      value (text "SERVER_NAME") request.host (by simp [assignments]),
      value (text "GEMINI_URL_PATH") request.path (by simp [assignments]),
      value (text "QUERY_STRING") request.query (by simp [assignments])⟩
  · intro clean var inside
    rcases mem_generateEnvironment handler path file request inside with assigned | configured
    · exact clean_assignments settings clean var assigned
    · exact settings.vars var configured

theorem variableName_envString (var : Bytes × Bytes) :
    variableName (envString var) = variableName var.1 := by
  unfold variableName envString
  rcases notMem_or_exists_first equals var.1 with free | ⟨front, back, shape, free⟩
  · rw [before_append_cons free, before_of_notMem free]
  · rw [shape, List.append_assoc, List.cons_append, before_append_cons free, before_append_cons free]

/-- The names of the bindings are fixed or configured. -/
theorem names_of_perm {env : List Bytes} (same :
      env.Perm ((bindings (handler.generateEnvironment path file request)).map envString)) :
    ∀ string ∈ env, variableName string ∈ fixedNames ∨
      ∃ var ∈ bindings handler.cgiVars, variableName string = variableName var.1 := by
  intro string inside
  obtain ⟨var, isVar, rfl⟩ := List.mem_map.mp (same.mem_iff.mp inside)
  rw [variableName_envString]
  rcases mem_generateEnvironment handler path file request isVar with assigned | configured
  · have isName : var.1 ∈ fixedNames := List.mem_map_of_mem assigned
    have whole : variableName var.1 = var.1 := before_of_notMem (fixedNames_plain var.1 isName).2.2
    exact Or.inl (whole.symm ▸ isName)
  · exact Or.inr ⟨var, configured, rfl⟩

/-- **The environment is faithful exactly when the request is clean**, for every iteration order of
the map. -/
theorem env_faithful_iff (settings : CleanSettings handler)
    (isOrder : order.Perm (bindings (handler.generateEnvironment path file request))) :
    EnvFaithful handler (handler.generateEnvironment path file request)
        (Executor.make programs file order []).env ↔
      CleanRequest path file request := by
  rw [← clean_bindings_iff settings, ← env_perm_iff programs isOrder]
  exact ⟨fun faithful => faithful.entries, fun same => ⟨same, names_of_perm same⟩⟩

end Script

/-- A handler without settings of its own. -/
def plainHandler : FileHandler := ⟨[], text "/srv", [], true, [], [text "cgi"], text "C", ∅⟩

theorem plainHandler_clean : CleanSettings plainHandler :=
  ⟨fun _ inside => absurd inside List.not_mem_nil, by decide, by decide⟩

/-- The map and the array for a script of that handler. -/
def scriptVars (request : Request) : Vars :=
  plainHandler.generateEnvironment ⟨text "/bin", by decide⟩ (text "/srv/a.cgi") request

def scriptEnv (request : Request) : List Bytes :=
  (Executor.make (fun _ => none) (text "/srv/a.cgi") (bindings (scriptVars request)) []).env

/-- The environment of a clean request. -/
theorem env_faithful_plain :
    EnvFaithful plainHandler
      (scriptVars ⟨text "gemini://h/a.cgi\r\n", text "h", 1965, text "/a.cgi", []⟩)
      (scriptEnv ⟨text "gemini://h/a.cgi\r\n", text "h", 1965, text "/a.cgi", []⟩) :=
  (env_faithful_iff plainHandler_clean (List.Perm.refl _)).mpr
    ⟨by decide, by decide, by decide, by decide, by decide, by decide⟩

/-- A request whose host holds a CR. -/
def hostCrRequest : Request :=
  ⟨text "gemini://h\rX=Y:1965/a.cgi\r\n", text "h\rX=Y", 1965, text "/a.cgi", []⟩

/-- A CR in the host defines a variable: the script finds `X`. -/
theorem env_hostCr :
    parseHost { header := hostCrRequest.header } = some hostCrRequest ∧
      text "X=Y" ∈ scriptEnv hostCrRequest ∧
      ¬ EnvFaithful plainHandler (scriptVars hostCrRequest) (scriptEnv hostCrRequest) := by
  have defined : text "X=Y" ∈ scriptEnv hostCrRequest := by decide +kernel
  refine ⟨by decide, defined, fun faithful => ?_⟩
  rcases faithful.names _ defined with isFixed | ⟨var, configured, _⟩
  · exact absurd isFixed (by decide)
  · exact absurd configured List.not_mem_nil

end GemCaps
