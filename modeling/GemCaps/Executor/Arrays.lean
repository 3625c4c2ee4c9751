/-
**The arrays of a CGI process** (the constructor in `executor.cpp`).

The strings of an array are written one after the other, each with a CR behind it, copied as a C
string and cut at the CRs again. `processArray_perm_iff`: the array holds exactly the strings written if
and only if none of them holds a CR or a NUL.
-/

import GemCaps.Path.Utils

namespace GemCaps

open Cutting

/-- `strfind(text, find)` on a C string. -/
def strfind : Bytes → Byte → Option Nat
  | [], _ => none
  | letter :: rest, mark =>
    if letter = nul then none
    else if letter = mark then some 0
    else (strfind rest mark).map (· + 1)

/-- The loop that fills `env` or `args` with `size` pointers into `buf`. A round without a CR breaks
off, and the pointer it has just stored is overwritten with the null pointer. -/
def cutArray : Nat → Bytes → List Bytes
  | 0, _ => []
  | size + 1, buf =>
    match strfind buf cr with
    | none => []
    | some pos => buf.take pos :: cutArray size (buf.drop (pos + 1))

/-- What the process finds in an array made of these strings: `strcpy` of the stream, then the
loop. -/
def processArray (strings : List Bytes) : List Bytes := cutArray strings.length (cStr (frame cr strings))

/-- The string of a binding in `env`. -/
def envString (var : Bytes × Bytes) : Bytes := var.1 ++ equals :: var.2

/-- `programs`: the words that launch a file with this extension. -/
abbrev Programs := Bytes → Option (List Bytes)

/-- The words put before the path. -/
def Programs.launcher (programs : Programs) (path : Bytes) : List Bytes :=
  match rfind path dot with
  | none => []
  | some pos => (programs (path.drop (pos + 1))).getD []

/-- `Executor`; `cwd` is `none` where `path::dirname` has no result. -/
structure Executor where
  path : Bytes
  cwd : Option Bytes
  env : List Bytes
  args : List Bytes
deriving DecidableEq

/-- `Executor::Executor(path, env, args)`, with the bindings of `env` in iteration order. -/
def Executor.make (programs : Programs) (path : Bytes) (env : List (Bytes × Bytes))
    (args : List Bytes) : Executor :=
  ⟨path, Path.dirname path, processArray (env.map envString),
    processArray (programs.launcher path ++ path :: args)⟩

/-! ### What the loop computes -/

theorem strfind_eq (buf : Bytes) (mark : Byte) :
    strfind buf mark = (cStr buf).findIdx? (· == mark) := by
  induction buf with
  | nil => rfl
  | cons letter rest ih =>
    by_cases isNul : letter = nul
    · subst isNul
      rfl
    · have shape : cStr (letter :: rest) = letter :: cStr rest := by
        rw [cStr, before, cStr, before, List.takeWhile_cons_of_pos (by simpa using isNul)]
      rw [strfind, if_neg isNul, shape, List.findIdx?_cons, ih]
      by_cases same : letter = mark
      · simp [same]
      · simp [same]

/-- On a text without NUL the loop cuts at the CRs. -/
theorem cutArray_of_noNul {buf : Bytes} (noNul : nul ∉ buf) (size : Nat) :
    cutArray size buf = unframe cr size buf := by
  induction size generalizing buf with
  | zero => rfl
  | succ size ih =>
    have position : strfind buf cr = buf.findIdx? (· == cr) := by
      rw [strfind_eq, cStr_of_noNul noNul]
    rw [cutArray, unframe, position]
    cases buf.findIdx? (· == cr) with
    | none => rfl
    | some pos =>
      exact congrArg (buf.take pos :: ·) (ih fun inside => noNul (List.mem_of_mem_drop inside))

theorem processArray_eq (strings : List Bytes) :
    processArray strings = unframe cr strings.length (cStr (frame cr strings)) :=
  cutArray_of_noNul (noNul_cStr _) _

/-- Strings without CR and NUL arrive as they are. -/
theorem processArray_of_clean {strings : List Bytes}
    (clean : ∀ string ∈ strings, cr ∉ string ∧ nul ∉ string) : processArray strings = strings := by
  rw [processArray_eq]
  exact unframe_before_frame (by decide) clean

/-- **When an array is what was written.** -/
theorem processArray_perm_iff (strings : List Bytes) :
    (processArray strings).Perm strings ↔ ∀ string ∈ strings, cr ∉ string ∧ nul ∉ string := by
  rw [processArray_eq]
  exact unframe_before_frame_perm_iff (by decide) strings

/-! ### Arrays without a string -/

/-- A loop that starts on a text with a CR stores a string. -/
theorem unframe_succ_eq_nil_iff (mark : Byte) (count : Nat) (buf : Bytes) :
    unframe mark (count + 1) buf = [] ↔ mark ∉ buf := by
  rw [unframe]
  cases found : buf.findIdx? (· == mark) with
  | none =>
    refine iff_of_true rfl fun inside => ?_
    simpa using List.findIdx?_eq_none_iff.mp found mark inside
  | some index =>
    refine iff_of_false (List.cons_ne_nil _ _) fun free => ?_
    have missing : buf.findIdx? (· == mark) = none :=
      List.findIdx?_eq_none_iff.mpr fun letter inside =>
        beq_false_of_ne fun same => free (same ▸ inside)
    rw [missing] at found
    cases found

/-- The CR of the first string is kept: no NUL stands before it. -/
theorem cr_mem_cStr_iff (string : Bytes) (rest : List Bytes) :
    cr ∈ cStr (frame cr (string :: rest)) ↔ cr ∈ cStr string ∨ nul ∉ string := by
  have shape : frame cr (string :: rest) = string ++ cr :: frame cr rest := by simp [frame]
  rw [shape]
  by_cases free : nul ∈ string
  · rw [cStr, before_append_of_mem free]
    exact (or_iff_left (not_not.mpr free)).symm
  · refine iff_of_true ?_ (.inr free)
    have kept : before nul (cr :: frame cr rest) = cr :: before nul (frame cr rest) :=
      @before_append_of_notMem _ _ nul [cr] (by decide) (frame cr rest)
    rw [cStr, before_append_of_notMem free, kept]
    exact List.mem_append_right _ List.mem_cons_self

/-- The first word of the command line of a script has no NUL before its first CR. -/
def Programs.Launches (programs : Programs) (path : Bytes) : Prop :=
  ∀ word ∈ (programs.launcher path ++ [path]).head?, cr ∈ cStr word ∨ nul ∉ word

instance (programs : Programs) (path : Bytes) : Decidable (programs.Launches path) :=
  inferInstanceAs (Decidable (∀ word ∈ (programs.launcher path ++ [path]).head?,
    cr ∈ cStr word ∨ nul ∉ word))

/-- **When there is a file to run**: the array of the arguments is not empty. -/
theorem args_ne_nil_iff (programs : Programs) (path : Bytes) (env : List (Bytes × Bytes)) :
    (Executor.make programs path env []).args ≠ [] ↔ programs.Launches path := by
  show processArray (programs.launcher path ++ [path]) ≠ [] ↔ _
  rw [Programs.Launches, processArray_eq]
  cases words : programs.launcher path ++ [path] with
  | nil => simp at words
  | cons word rest =>
    rw [List.length_cons, Ne, unframe_succ_eq_nil_iff, not_not, cr_mem_cStr_iff]
    simp

example : processArray [text "A=1\rB=2", text "C=3"] = [text "A=1", text "B=2"] := by decide

end GemCaps
