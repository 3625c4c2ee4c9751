/-
**Properties of a YAML file** (`settings.hpp`).

A node is what yaml-cpp makes of a file; the conversions `as<T>` are its own (`YamlCpp`), and
`subscript` assumes its documented behaviour for `node[property]`. Three kinds of exceptions leave the
code that reads one: its own `InvalidSettingsException`, what yaml-cpp throws, and what the constructor
of `std::regex` throws. `contained_getProperty_iff`: a required property can throw a foreign exception,
because `node[property]` stands before the `try`; a property with a fallback cannot.
-/

import GemCaps.Library.Loading
import GemCaps.Text

namespace GemCaps

open Loading

/-- `YAML::Mark`. -/
structure Mark where
  line : Nat
  column : Nat
deriving DecidableEq

/-- `YAML::Node`, as `LoadFile` builds it. -/
inductive YamlNode where
  | null (mark : Mark)
  | scalar (mark : Mark) (value : Bytes)
  | sequence (mark : Mark) (items : List YamlNode)
  | map (mark : Mark) (pairs : List (YamlNode × YamlNode))

/-- The exceptions. -/
inductive Thrown where
  | invalidSettings (mark : Mark) (message : Bytes)
  /-- `YAML::RepresentationException`. -/
  | representation (mark : Mark) (message : Bytes)
  /-- What `YAML::LoadFile` throws. -/
  | unparsable
  /-- `std::regex_error`. -/
  | regexError
deriving DecidableEq

/-- `catch (InvalidSettingsException e)`. -/
def Thrown.caught : Thrown → Bool
  | .invalidSettings _ _ => true
  | .representation _ _ | .unparsable | .regexError => false

/-- `catch (YAML::RepresentationException e)`, or caught behind it. -/
def Thrown.known : Thrown → Bool
  | .invalidSettings _ _ | .representation _ _ => true
  | .unparsable | .regexError => false

/-- yaml-cpp. -/
structure YamlCpp where
  /-- The conversions; `none` where they fail. -/
  asString : YamlNode → Option Bytes
  asInt : YamlNode → Option Int
  asBool : YamlNode → Option Bool
  /-- `as<T>(fallback)` throws where the conversion fails, and does not return the fallback. -/
  strict : Bool
  badConversion : Bytes
  badSubscript : Bytes → Bytes
  /-- `Exception::what`. -/
  what : Mark → Bytes → Bytes

/-- `YAML::LoadFile`; `none` where it throws. -/
abbrev Files := Bytes → Option YamlNode

namespace YamlNode

/-- `Node::Mark`. -/
def mark : YamlNode → Mark
  | .null mark | .scalar mark _ | .sequence mark _ | .map mark _ => mark

/-- `Node::IsScalar`. -/
def isScalar : YamlNode → Bool
  | .scalar _ _ => true
  | .null _ | .sequence _ _ | .map _ _ => false

/-- A key that is equal to a property; it is assumed that yaml-cpp compares the texts of scalars, and
that other nodes are equal to no text. -/
def isKey (property : Bytes) : YamlNode → Bool
  | .scalar _ value => value == property
  | .null _ | .sequence _ _ | .map _ _ => false

/-- `node[property]`; `none` is a node that is not defined. The assumption on yaml-cpp: a scalar throws
`BadSubscript`, a null and a sequence have no such property, a map has the first of the pairs with this
key, and a lookup that finds nothing leaves nothing that is defined. -/
def subscript (yaml : YamlCpp) (property : Bytes) : YamlNode → Except Thrown (Option YamlNode)
  | .scalar mark _ => .error (.representation mark (yaml.badSubscript property))
  | .null _ | .sequence _ _ => .ok none
  | .map _ pairs => .ok ((pairs.find? fun pair => pair.1.isKey property).map Prod.snd)

/-- `node[property].Mark()` of a property that is defined. -/
def markAt (yaml : YamlCpp) (property : Bytes) (node : YamlNode) : Mark :=
  match node.subscript yaml property with
  | .ok (some value) => value.mark
  | _ => node.mark

end YamlNode

section Properties

variable (yaml : YamlCpp) {α : Type} (decode : YamlNode → Option α)

/-- `node.as<T>()`. -/
def YamlNode.convert (node : YamlNode) : Except Thrown α :=
  match decode node with
  | some value => .ok value
  | none => .error (.representation node.mark yaml.badConversion)

/-- `catch (YAML::RepresentationException e)` with the exception that is thrown instead. -/
def rethrow (say : Mark → Bytes → Bytes) : Except Thrown α → Except Thrown α
  | .error (.representation mark message) => .error (.invalidSettings mark (say mark message))
  | result => result

/-- `getProperty(node, property)`. -/
def getProperty (node : YamlNode) (property : Bytes) : Except Thrown α := do
  match ← node.subscript yaml property with
  | none => .error (.invalidSettings node.mark (property ++ text " is a required property"))
  | some value => rethrow yaml.what (value.convert yaml decode)

/-- `getProperty(node, property, missing)`. -/
def getPropertyOr (node : YamlNode) (property : Bytes) (missing : α) : Except Thrown α :=
  rethrow yaml.what do
    match ← node.subscript yaml property with
    | none => .ok missing
    | some value =>
      if yaml.strict then value.convert yaml decode else .ok ((decode value).getD missing)

/-! ### Which exceptions leave -/

variable {yaml decode}

/-- **A known exception is caught behind `rethrow`.** -/
theorem contained_rethrow_iff (say : Mark → Bytes → Bytes) (result : Except Thrown α) :
    Contained Thrown.caught (rethrow say result) ↔ Contained Thrown.known result := by
  cases result with
  | ok value => exact iff_of_true (contained_ok value) (contained_ok value)
  | error thrown =>
    rw [contained_error_iff]
    cases thrown <;> exact contained_error_iff _

theorem rethrow_eq_ok_iff (say : Mark → Bytes → Bytes) {result : Except Thrown α} {value : α} :
    rethrow say result = .ok value ↔ result = .ok value := by
  cases result with
  | ok other => exact Iff.rfl
  | error thrown => cases thrown <;> exact iff_of_false nofun nofun

theorem subscript_known (node : YamlNode) (property : Bytes) :
    Contained Thrown.known (node.subscript yaml property) := by
  cases node with
  | scalar mark value => exact (contained_error_iff _).mpr rfl
  | null mark | sequence mark items | map mark pairs => exact contained_ok _

theorem convert_known (node : YamlNode) : Contained Thrown.known (node.convert yaml decode) := by
  unfold YamlNode.convert
  cases decode node with
  | none => exact (contained_error_iff _).mpr rfl
  | some value => exact contained_ok value

/-- `node[property]` throws exactly when the node is a scalar. -/
theorem subscript_caught_iff (node : YamlNode) (property : Bytes) :
    Contained Thrown.caught (node.subscript yaml property) ↔ node.isScalar = false := by
  cases node with
  | scalar mark value => simp [YamlNode.subscript, contained_error_iff, Thrown.caught,
      YamlNode.isScalar]
  | null mark | sequence mark items | map mark pairs => exact iff_of_true (contained_ok _) rfl

/-- **A required property of a scalar throws a foreign exception**, and nothing else does. -/
theorem contained_getProperty_iff (node : YamlNode) (property : Bytes) :
    Contained Thrown.caught (getProperty yaml decode node property) ↔ node.isScalar = false := by
  unfold getProperty
  rw [contained_bind_iff, subscript_caught_iff]
  refine and_iff_left fun value _ => ?_
  cases value with
  | none => exact (contained_error_iff _).mpr rfl
  | some value => exact (contained_rethrow_iff _ _).mpr (convert_known value)

/-- **A property with a fallback throws no foreign exception.** -/
theorem contained_getPropertyOr (node : YamlNode) (property : Bytes) (missing : α) :
    Contained Thrown.caught (getPropertyOr yaml decode node property missing) := by
  unfold getPropertyOr
  rw [contained_rethrow_iff, contained_bind_iff]
  refine ⟨subscript_known node property, fun value _ => ?_⟩
  cases value with
  | none => exact contained_ok missing
  | some value =>
    cases isStrict : yaml.strict with
    | true => simpa [isStrict] using convert_known value
    | false => simpa [isStrict] using contained_ok _

/-- A node with a property, or a fallback for it, is no scalar. -/
theorem not_scalar_of_getPropertyOr {node : YamlNode} {property : Bytes} {missing found : α}
    (isFound : getPropertyOr yaml decode node property missing = .ok found) :
    node.isScalar = false := by
  cases node with
  | scalar mark value => cases isFound
  | null mark | sequence mark items | map mark pairs => rfl

end Properties

end GemCaps
