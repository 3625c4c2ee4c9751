/-
**Servers and handlers from their settings** (`loader.cpp`, `FileHandlerFactory::createHandler`).

The functions read the properties in the order of the source, so that the first exception is the one
that leaves. `contained_createHandler_iff` and `contained_loadHandler_iff`: a foreign exception leaves
where the node is a scalar, and where a rule does not compile. `createHandler_settings`: where nothing
is thrown, the handler is the one that the settings give once they are read.
-/

import GemCaps.Config.Settings
import GemCaps.Files.Handler

namespace GemCaps

open Loading

/-- `SSLServer` after `load`. An object for each file: the file stands for its address. -/
structure LoadedServer where
  file : Bytes
  host : Bytes
  port : Int
  cert : Bytes
  key : Bytes
deriving DecidableEq

/-- The properties of a handler that are read first. -/
structure PlainSettings where
  host : Bytes
  folder : Bytes
  base : Bytes
  readDirs : Bool
  cgiLang : Bytes

section Functions

variable (yaml : YamlCpp) (regex : Bytes → Option (Bytes → Bool))

/-- `loadServer(settings, dir, loop)`. -/
def loadServer (file : Bytes) (settings : YamlNode) (dir : Bytes) : Except Thrown LoadedServer := do
  let host ← getPropertyOr yaml yaml.asString settings (text "host") (text "0.0.0.0")
  let port ← getPropertyOr yaml yaml.asInt settings (text "port") 1965
  let cert ← getProperty yaml yaml.asString settings (text "cert")
  let key ← getProperty yaml yaml.asString settings (text "key")
  let cert := if Path.isrel cert then Path.join dir cert else cert
  let key := if Path.isrel key then Path.join dir key else key
  .ok ⟨file, host, port, cert, key⟩

namespace FileHandlerFactory

/-- The first properties that `createHandler` reads. -/
def readPlain (settings : YamlNode) : Except Thrown PlainSettings := do
  let host ← getPropertyOr yaml yaml.asString settings (text "host") []
  let folder ← getProperty yaml yaml.asString settings (text "folder")
  let base ← getPropertyOr yaml yaml.asString settings (text "base") []
  let readDirs ← getPropertyOr yaml yaml.asBool settings (text "readDirs") true
  let cgiLang ← getPropertyOr yaml yaml.asString settings (text "cgiLang") (text "en_US.UTF-8")
  .ok ⟨host, folder, base, readDirs, cgiLang⟩

/-- A property that must be a sequence, with what is done for each item. -/
def readSequence {α : Type} (settings : YamlNode) (property : Bytes)
    (read : YamlNode → Except Thrown α) : Except Thrown (List α) := do
  match ← settings.subscript yaml property with
  | none => .ok []
  | some (.sequence _ items) => rethrow (fun _ message => message) (items.mapM read)
  | some other =>
    .error (.invalidSettings other.mark (text "'" ++ property ++ text "' must be a sequence"))

/-- One rule: `rule.as<string>()`, and the constructor of `regex`. -/
def readRule (rule : YamlNode) : Except Thrown (Bytes → Bool) := do
  let value ← rule.convert yaml yaml.asString
  match regex value with
  | some pattern => .ok pattern
  | none => .error .regexError

/-- The variables of a CGI process. -/
def readVars (settings : YamlNode) : Except Thrown Vars := do
  match ← settings.subscript yaml (text "cgiVars") with
  | none => .ok ∅
  | some (.map _ pairs) => rethrow (fun _ message => message) do
    let vars ← pairs.mapM fun pair => do
      let name ← pair.1.convert yaml yaml.asString
      let value ← pair.2.convert yaml yaml.asString
      .ok (name, value)
    .ok (vars.foldl insertVar ∅)
  | some other => .error (.invalidSettings other.mark (text "'cgiVars' must be a map"))

/-- `FileHandlerFactory::createHandler(settings, dir)`. -/
def createHandler (settings : YamlNode) (dir : Bytes) : Except Thrown FileHandler := do
  let plain ← readPlain yaml settings
  let rules ← readSequence yaml settings (text "rules") (readRule yaml regex)
  let cgiTypes ← readSequence yaml settings (text "cgiFiletypes") (·.convert yaml yaml.asString)
  let cgiVars ← readVars yaml settings
  let folder := if Path.isrel plain.folder then Path.join dir plain.folder else plain.folder
  .ok ⟨plain.host, Path.delUps folder, plain.base, plain.readDirs, rules, cgiTypes, plain.cgiLang,
    cgiVars⟩

end FileHandlerFactory

/-- `HandlerLoader::loadHandler(settings, dir)`, with the factories of `loadFactories`. -/
def loadHandler (settings : YamlNode) (dir : Bytes) : Except Thrown FileHandler := do
  let handlerName ← getProperty yaml yaml.asString settings (text "handler")
  if handlerName = text "filehandler" then
    FileHandlerFactory.createHandler yaml regex settings dir
  else .error (.invalidSettings (settings.markAt yaml (text "handler"))
    (text "'" ++ handlerName ++ text "' is not a valid handler"))

end Functions

variable {yaml : YamlCpp} {regex : Bytes → Option (Bytes → Bool)}

/-! ### Which exceptions leave -/

/-- The first rule that is no pattern, if there is one, is no string. -/
def RulesCompile (yaml : YamlCpp) (regex : Bytes → Option (Bytes → Bool)) (rules : List YamlNode) :
    Prop :=
  Trace.Preceded (fun before rule =>
    (∀ earlier ∈ before, ∃ pattern,
      FileHandlerFactory.readRule yaml regex earlier = .ok pattern) →
    ∀ value, yaml.asString rule = some value → (regex value).isSome = true) rules

/-- **Loading a server throws no foreign exception.** -/
theorem contained_loadServer (file : Bytes) (settings : YamlNode) (dir : Bytes) :
    Contained Thrown.caught (loadServer yaml file settings dir) := by
  refine (contained_getPropertyOr _ _ _).bind fun host isHost => ?_
  have node := not_scalar_of_getPropertyOr isHost
  refine (contained_getPropertyOr _ _ _).bind fun port _ => ?_
  refine ((contained_getProperty_iff ..).mpr node).bind fun cert _ => ?_
  refine ((contained_getProperty_iff ..).mpr node).bind fun key _ => ?_
  exact contained_ok _

namespace FileHandlerFactory

theorem contained_readPlain (settings : YamlNode) :
    Contained Thrown.caught (readPlain yaml settings) := by
  refine (contained_getPropertyOr _ _ _).bind fun host isHost => ?_
  have node := not_scalar_of_getPropertyOr isHost
  refine ((contained_getProperty_iff ..).mpr node).bind fun folder _ => ?_
  refine (contained_getPropertyOr _ _ _).bind fun base _ => ?_
  refine (contained_getPropertyOr _ _ _).bind fun readDirs _ => ?_
  refine (contained_getPropertyOr _ _ _).bind fun cgiLang _ => ?_
  exact contained_ok _

theorem not_scalar_of_readPlain {settings : YamlNode} {plain : PlainSettings}
    (isPlain : readPlain yaml settings = .ok plain) : settings.isScalar = false := by
  cases settings with
  | scalar mark value => cases isPlain
  | null mark | sequence mark items | map mark pairs => rfl

theorem readRule_known_iff (rule : YamlNode) :
    Contained Thrown.known (readRule yaml regex rule) ↔
      ∀ value, yaml.asString rule = some value → (regex value).isSome = true := by
  unfold readRule YamlNode.convert
  cases yaml.asString rule with
  | none => exact iff_of_true ((contained_error_iff _).mpr rfl) fun _ => nofun
  | some value =>
    rw [contained_bind_iff]
    cases compiled : regex value with
    | none => simp [compiled, contained_ok, contained_error_iff, Thrown.known]
    | some pattern => simp [compiled, contained_ok]

/-- **The rules throw no foreign exception exactly when they compile.** -/
theorem contained_mapM_readRule_iff (rules : List YamlNode) :
    Contained Thrown.known (rules.mapM (readRule yaml regex)) ↔ RulesCompile yaml regex rules := by
  simp only [contained_mapM_iff, readRule_known_iff, RulesCompile]

/-- The sequences and maps of a node that is no scalar. -/
theorem contained_readSequence_iff {α : Type} {settings : YamlNode}
    (node : settings.isScalar = false) (property : Bytes) (read : YamlNode → Except Thrown α) :
    Contained Thrown.caught (readSequence yaml settings property read) ↔
      ∀ mark items, settings.subscript yaml property = .ok (some (.sequence mark items)) →
        Contained Thrown.known (items.mapM read) := by
  unfold readSequence
  rw [contained_bind_iff, and_iff_right ((subscript_caught_iff ..).mpr node)]
  constructor
  · intro contained mark items found
    exact (contained_rethrow_iff _ _).mp (contained _ found)
  · intro known value found
    cases value with
    | none => exact contained_ok []
    | some value =>
      cases value with
      | sequence mark items => exact (contained_rethrow_iff _ _).mpr (known mark items found)
      | null mark | scalar mark value | map mark pairs => exact (contained_error_iff _).mpr rfl

theorem mapM_known {α β : Type} (items : List α) (read : α → Except Thrown β)
    (known : ∀ item, Contained Thrown.known (read item)) :
    Contained Thrown.known (items.mapM read) :=
  (contained_mapM_iff read items).mpr fun _ item _ _ _ => known item

theorem contained_readVars {settings : YamlNode} (node : settings.isScalar = false) :
    Contained Thrown.caught (readVars yaml settings) := by
  unfold readVars
  refine ((subscript_caught_iff ..).mpr node).bind fun value _ => ?_
  cases value with
  | none => exact contained_ok ∅
  | some value =>
    cases value with
    | map mark pairs =>
      refine (contained_rethrow_iff _ _).mpr (Contained.bind ?_ fun vars _ => contained_ok _)
      refine mapM_known pairs _ fun pair => (convert_known _).bind fun name _ => ?_
      exact (convert_known _).bind fun value _ => contained_ok _
    | null mark | scalar mark value | sequence mark items => exact (contained_error_iff _).mpr rfl

/-- **When a handler is created without a foreign exception.** -/
theorem contained_createHandler_iff (settings : YamlNode) (dir : Bytes) :
    Contained Thrown.caught (createHandler yaml regex settings dir) ↔
      ∀ plain, readPlain yaml settings = .ok plain → ∀ mark rules,
        settings.subscript yaml (text "rules") = .ok (some (.sequence mark rules)) →
          RulesCompile yaml regex rules := by
  unfold createHandler
  rw [contained_bind_iff, and_iff_right (contained_readPlain settings)]
  refine forall_congr' fun plain => imp_congr_right fun isPlain => ?_
  have node := not_scalar_of_readPlain isPlain
  rw [contained_bind_iff, contained_readSequence_iff node]
  simp only [contained_mapM_readRule_iff]
  refine and_iff_left fun rules _ => ?_
  have types : Contained Thrown.caught (readSequence yaml settings (text "cgiFiletypes")
      (·.convert yaml yaml.asString)) :=
    (contained_readSequence_iff node _ _).mpr fun _ items _ => mapM_known items _ convert_known
  exact types.bind fun cgiTypes _ => (contained_readVars node).bind fun vars _ => contained_ok _

end FileHandlerFactory

/-- The rules of a file handler that are reached compile. -/
def PatternsCompile (yaml : YamlCpp) (regex : Bytes → Option (Bytes → Bool)) (settings : YamlNode) :
    Prop :=
  getProperty yaml yaml.asString settings (text "handler") = .ok (text "filehandler") →
    ∀ plain, FileHandlerFactory.readPlain yaml settings = .ok plain → ∀ mark rules,
      settings.subscript yaml (text "rules") = .ok (some (.sequence mark rules)) →
        RulesCompile yaml regex rules

/-- **When a handler is loaded without a foreign exception.** -/
theorem contained_loadHandler_iff (settings : YamlNode) (dir : Bytes) :
    Contained Thrown.caught (loadHandler yaml regex settings dir) ↔
      settings.isScalar = false ∧ PatternsCompile yaml regex settings := by
  unfold loadHandler PatternsCompile
  rw [contained_bind_iff, contained_getProperty_iff,
    ← FileHandlerFactory.contained_createHandler_iff settings dir]
  refine and_congr_right fun _ => ⟨fun contained named => ?_, fun contained name named => ?_⟩
  · simpa using contained _ named
  · by_cases isFile : name = text "filehandler"
    · rw [if_pos isFile]
      exact contained (isFile ▸ named)
    · rw [if_neg isFile]
      exact (contained_error_iff _).mpr rfl

/-! ### What is loaded -/

namespace FileHandlerFactory

/-- The rules are the patterns of some strings. -/
theorem values_of_mapM_readRule {items : List YamlNode} {rules : List (Bytes → Bool)}
    (isRead : items.mapM (readRule yaml regex) = .ok rules) :
    ∃ values : List Bytes, values.mapM regex = some rules := by
  induction items generalizing rules with
  | nil => exact ⟨[], congrArg some (Except.ok.inj isRead)⟩
  | cons item items ih =>
    rw [List.mapM_cons, bind_eq_ok_iff] at isRead
    obtain ⟨pattern, isPattern, rest⟩ := isRead
    obtain ⟨others, areOthers, same⟩ := bind_eq_ok_iff.mp rest
    obtain ⟨value, _, compiles⟩ := bind_eq_ok_iff.mp isPattern
    obtain ⟨values, areValues⟩ := ih areOthers
    refine ⟨value :: values, ?_⟩
    cases compiled : regex value with
    | none => simp [compiled] at compiles
    | some first =>
      simp only [compiled] at compiles
      obtain rfl := Except.ok.inj compiles
      obtain rfl := Except.ok.inj same
      simp [compiled, areValues]

theorem values_of_readSequence {settings : YamlNode} {property : Bytes}
    {rules : List (Bytes → Bool)}
    (isRead : readSequence yaml settings property (readRule yaml regex) = .ok rules) :
    ∃ values : List Bytes, values.mapM regex = some rules := by
  obtain ⟨value, _, isValue⟩ := bind_eq_ok_iff.mp isRead
  split at isValue
  · exact ⟨[], congrArg some (Except.ok.inj isValue)⟩
  · exact values_of_mapM_readRule ((rethrow_eq_ok_iff _).mp isValue)
  · cases isValue

theorem vars_of_readVars {settings : YamlNode} {vars : Vars}
    (isRead : readVars yaml settings = .ok vars) :
    ∃ pairs : List (Bytes × Bytes), vars = pairs.foldl insertVar ∅ := by
  obtain ⟨value, _, isValue⟩ := bind_eq_ok_iff.mp isRead
  split at isValue
  · exact ⟨[], (Except.ok.inj isValue).symm⟩
  · obtain ⟨pairs, _, same⟩ := bind_eq_ok_iff.mp ((rethrow_eq_ok_iff _).mp isValue)
    exact ⟨pairs, (Except.ok.inj same).symm⟩
  · cases isValue

/-- **A loaded handler is the one that its settings give.** -/
theorem createHandler_settings {settings : YamlNode} {dir : Bytes} {handler : FileHandler}
    (created : createHandler yaml regex settings dir = .ok handler) :
    ∃ read : Settings, GemCaps.createHandler regex read dir = .ok handler := by
  obtain ⟨plain, _, created⟩ := bind_eq_ok_iff.mp created
  obtain ⟨rules, areRules, created⟩ := bind_eq_ok_iff.mp created
  obtain ⟨cgiTypes, _, created⟩ := bind_eq_ok_iff.mp created
  obtain ⟨vars, areVars, created⟩ := bind_eq_ok_iff.mp created
  obtain ⟨values, compiled⟩ := values_of_readSequence areRules
  obtain ⟨pairs, rfl⟩ := vars_of_readVars areVars
  refine ⟨⟨some plain.host, some plain.folder, some plain.base, some plain.readDirs, values,
    cgiTypes, some plain.cgiLang, pairs⟩, ?_⟩
  obtain rfl := Except.ok.inj created
  simp only [GemCaps.createHandler, compiled]
  rfl

end FileHandlerFactory

end GemCaps
