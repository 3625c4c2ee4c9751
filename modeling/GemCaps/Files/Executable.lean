/-
**Which files are executed** (`filehandler.cpp`, `executor.cpp`).

`isExecutable` looks for a type from the place on where the type would end the path, so that it tests
the end of the path alone (`isExecutable_iff_suffix`), with or without a dot before the type. The
executor takes the text behind the last dot of the path (`Executor.extension`). `isExecutable_iff`: the
two agree with the extension of the last component exactly where a path that ends in a type also ends
in a dot and a type.
-/

import GemCaps.Files.Handler
import GemCaps.Executor.Arrays

namespace GemCaps

open Cutting GemCaps.Path

/-! ### Extensions -/

/-- The text behind the last separator of a path. -/
def lastComponent (path : Bytes) : Bytes :=
  (path.reverse.takeWhile fun letter => !isSep letter).reverse

/-- The text behind the last dot of a path, as the executor takes it. -/
def Executor.extension (path : Bytes) : Option Bytes :=
  (rfind path dot).map fun pos => path.drop (pos + 1)

/-- The executor looks the extension up. -/
theorem Programs.launcher_eq (programs : Programs) (path : Bytes) :
    programs.launcher path = ((Executor.extension path).bind programs).getD [] := by
  unfold Programs.launcher Executor.extension
  cases rfind path dot <;> rfl

theorem Executor.extension_append_cons (front : Bytes) {back : Bytes} (free : dot ∉ back) :
    Executor.extension (front ++ dot :: back) = some back := by
  rw [Executor.extension, rfind_append_cons front free, Option.map_some, drop_front]

theorem lastComponent_suffix (path : Bytes) : lastComponent path <:+ path := by
  rw [← List.reverse_prefix, lastComponent, List.reverse_reverse]
  exact List.takeWhile_prefix _

theorem lastComponent_free (path : Bytes) :
    ∀ letter ∈ lastComponent path, isSep letter = false := by
  intro letter inside
  simpa using List.mem_takeWhile_imp (List.mem_reverse.mp inside)

/-- A text without separators at the end of a path belongs to the last component. -/
theorem lastComponent_append (front : Bytes) {back : Bytes}
    (free : ∀ letter ∈ back, isSep letter = false) :
    lastComponent (front ++ back) = lastComponent front ++ back := by
  have passed : ∀ letter ∈ back.reverse, (!isSep letter) = true := fun letter inside => by
    simp [free letter (List.mem_reverse.mp inside)]
  rw [lastComponent, List.reverse_append, List.takeWhile_append_of_pos passed, List.reverse_append,
    List.reverse_reverse, lastComponent]

namespace FileHandler

variable {handler : FileHandler} {file : Bytes}

/-- The last component of the file has a dot, and one of the handler's types behind its last dot. -/
def HasType (handler : FileHandler) (file : Bytes) : Prop :=
  dot ∈ lastComponent file ∧ afterLast dot (lastComponent file) ∈ handler.cgiTypes

instance (handler : FileHandler) (file : Bytes) : Decidable (handler.HasType file) :=
  inferInstanceAs (Decidable (_ ∧ _))

/-- The file ends in a dot and one of the handler's types, without a separator. -/
def EndsInType (handler : FileHandler) (file : Bytes) : Prop :=
  ∃ cgiType ∈ handler.cgiTypes, (∀ letter ∈ cgiType, isSep letter = false) ∧
    dot :: cgiType <:+ file

theorem hasType_iff (noDots : ∀ cgiType ∈ handler.cgiTypes, dot ∉ cgiType) :
    handler.HasType file ↔ handler.EndsInType file := by
  constructor
  · rintro ⟨dotted, isType⟩
    obtain ⟨front, back, shape, free⟩ :=
      (notMem_or_exists_last dot (lastComponent file)).resolve_left (not_not.mpr dotted)
    rw [shape, afterLast_append_cons front free] at isType
    have plain := lastComponent_free file
    rw [shape] at plain
    refine ⟨back, isType, fun letter inside => plain letter ?_, ?_⟩
    · exact List.mem_append_right _ (List.mem_cons_of_mem _ inside)
    · have inside : dot :: back <:+ lastComponent file := ⟨front, shape.symm⟩
      exact inside.trans (lastComponent_suffix file)
  · rintro ⟨cgiType, isType, plain, front, rfl⟩
    have free : ∀ letter ∈ dot :: cgiType, isSep letter = false := by
      intro letter inside
      rcases List.mem_cons.mp inside with rfl | later
      · rfl
      · exact plain letter later
    rw [HasType, lastComponent_append front free,
      afterLast_append_cons (lastComponent front) (noDots cgiType isType)]
    exact ⟨by simp, isType⟩

/-- The executor finds the same extension. -/
theorem extension_of_endsInType (noDots : ∀ cgiType ∈ handler.cgiTypes, dot ∉ cgiType)
    (ends : handler.EndsInType file) :
    ∃ cgiType ∈ handler.cgiTypes, Executor.extension file = some cgiType := by
  obtain ⟨cgiType, isType, _, front, rfl⟩ := ends
  exact ⟨cgiType, isType, Executor.extension_append_cons front (noDots cgiType isType)⟩

/-! ### The test of the handler -/

/-- A search that starts where the pattern would end the text finds nothing but that. -/
theorem findText_sizeSub_isSome_iff {string pattern : Bytes} (stringFits : string.length < 2 ^ 64)
    (patternFits : pattern.length < 2 ^ 64) :
    (findText string pattern (sizeSub string.length pattern.length)).isSome = true ↔
      pattern <:+ string := by
  rw [findText_isSome_iff]
  by_cases room : pattern.length ≤ string.length
  · have start : sizeSub string.length pattern.length = string.length - pattern.length := by
      unfold sizeSub
      omega
    have length : (string.drop (string.length - pattern.length)).length = pattern.length := by
      rw [List.length_drop]
      omega
    rw [start]
    constructor
    · rintro ⟨_, inside⟩
      rw [inside.eq_of_length length.symm]
      exact List.drop_suffix _ _
    · rintro ⟨front, rfl⟩
      refine ⟨by omega, ?_⟩
      rw [List.length_append, Nat.add_sub_cancel, List.drop_left]
  · -- The difference wraps around, and the search starts behind the end.
    have start : string.length < sizeSub string.length pattern.length := by
      unfold sizeSub
      omega
    refine iff_of_false (fun found => absurd found.1 (by omega)) fun suffix => room suffix.length_le

/-- **A file is executed when it ends in one of the types.** -/
theorem isExecutable_iff_suffix (fileFits : file.length < 2 ^ 64)
    (typesFit : ∀ cgiType ∈ handler.cgiTypes, cgiType.length < 2 ^ 64) :
    handler.isExecutable file = true ↔ ∃ cgiType ∈ handler.cgiTypes, cgiType <:+ file := by
  rw [isExecutable, List.any_eq_true]
  refine exists_congr fun cgiType => and_congr_right fun isType => ?_
  exact findText_sizeSub_isSome_iff fileFits (typesFit cgiType isType)

/-- **When exactly the configured file types are executed**: a file that ends in the text of a type
also ends in a dot and a type. The lengths are those of strings. -/
theorem isExecutable_iff (handler : FileHandler) (file : Bytes) (fileFits : file.length < 2 ^ 64)
    (typesFit : ∀ cgiType ∈ handler.cgiTypes, cgiType.length < 2 ^ 64)
    (noDots : ∀ cgiType ∈ handler.cgiTypes, dot ∉ cgiType) :
    ((handler.isExecutable file = true ↔ handler.HasType file) ∧
        (handler.isExecutable file = true →
          ∃ cgiType ∈ handler.cgiTypes, Executor.extension file = some cgiType)) ↔
      ∀ cgiType ∈ handler.cgiTypes, cgiType <:+ file → handler.EndsInType file := by
  have executed := isExecutable_iff_suffix fileFits typesFit
  rw [hasType_iff noDots]
  constructor
  · rintro ⟨same, _⟩ cgiType isType ends
    exact same.mp (executed.mpr ⟨cgiType, isType, ends⟩)
  · intro condition
    have typed : handler.isExecutable file = true → handler.EndsInType file := by
      intro isExecutable
      obtain ⟨cgiType, isType, ends⟩ := executed.mp isExecutable
      exact condition cgiType isType ends
    refine ⟨⟨typed, ?_⟩, fun isExecutable => extension_of_endsInType noDots (typed isExecutable)⟩
    rintro ⟨cgiType, isType, _, ends⟩
    exact executed.mpr ⟨cgiType, isType, (List.suffix_cons dot cgiType).trans ends⟩

/-- A handler that executes Python scripts. -/
def pyHandler : FileHandler :=
  ⟨[], text "/srv", [], true, [], [text "py"], text "en_US.UTF-8", ∅⟩

/-- It executes a script, and sends a text file. -/
theorem isExecutable_script :
    (pyHandler.isExecutable (text "/srv/a.py") = true ∧
        pyHandler.isExecutable (text "/srv/py.gmi") = false) ∧
      ∀ cgiType ∈ pyHandler.cgiTypes, cgiType <:+ text "/srv/a.py" →
        pyHandler.EndsInType (text "/srv/a.py") := by
  refine ⟨by decide, (isExecutable_iff pyHandler (text "/srv/a.py") (by decide) (by decide)
    (by decide)).mp ⟨by decide, fun _ => ⟨text "py", by decide, by decide⟩⟩⟩

/-- It also executes a file without extension. -/
theorem isExecutable_suffix :
    pyHandler.isExecutable (text "/srv/happy") = true ∧ ¬ pyHandler.HasType (text "/srv/happy") ∧
      Executor.extension (text "/srv/happy") = none := by
  decide

end FileHandler

end GemCaps
