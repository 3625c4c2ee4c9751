/-
**The memory of the arrays of a CGI process** (the constructor in `executor.cpp`).

An array is a copy of the stream of its strings, and pointers into this copy. `fillArray` is the
constructor cell by cell: `strcpy`, then the loop that stores a pointer and puts a NUL in the place of a
CR. `fillArray_reads`: what the process reads through the pointers is `processArray`, and a null pointer
behind it. `arrays_of_clean`: strings without CR and NUL are read as they are. `arrays_inside_iff`: the
`char` array has a cell for every letter of the stream but none for the NUL of `strcpy`, so that all the
writes lie inside exactly when both streams hold a NUL themselves. Where it is written, `Memory` assumes
that the one byte behind the array can be written and belongs to nothing else.
-/

import GemCaps.Executor.Arrays
import Mathlib.Data.List.Range

namespace GemCaps

open Cutting

/-- What the constructor finds in memory before it fills an array: as many characters as the stream
has, and one pointer more than there are strings. The `char` array ends with the stream; the character
behind it is not allocated, and is here because `strcpy` writes it. -/
structure Memory (strings : List Bytes) where
  cells : Bytes
  slots : List (Option Nat)
  length_cells : cells.length = (frame cr strings).length + 1
  length_slots : slots.length = strings.length + 1

/-- The memory while it is filled. A pointer is its offset from the start of the characters, `none` the
null pointer; `written` and `stored` are the characters and the pointers that were assigned. -/
structure Filling where
  cells : Bytes
  slots : List (Option Nat)
  written : List Nat := []
  stored : List Nat := []

namespace Filling

variable (filling : Filling)

/-- `buf[offset] = letter`. -/
def write (offset : Nat) (letter : Byte) : Filling :=
  { filling with
    cells := filling.cells.set offset letter
    written := filling.written ++ [offset] }

/-- `env[index] = pointer`, or the same with `args`. -/
def store (index : Nat) (pointer : Option Nat) : Filling :=
  { filling with
    slots := filling.slots.set index pointer
    stored := filling.stored ++ [index] }

/-- `strcpy`, from this cell on. -/
def strcpy (filling : Filling) (offset : Nat) : Bytes → Filling
  | [] => filling.write offset nul
  | letter :: rest =>
    if letter = nul then filling.write offset nul
    else (filling.write offset letter).strcpy (offset + 1) rest

/-- The loop, with this many rounds left, and the null pointer behind it. -/
def cut : Nat → Nat → Nat → Filling → Filling
  | 0, index, _, filling => filling.store index none
  | rounds + 1, index, buf, filling =>
    let filling := filling.store index (some buf)
    match strfind (filling.cells.drop buf) cr with
    | none => filling.store index none
    | some pos => cut rounds (index + 1) (buf + pos + 1) (filling.write (buf + pos) nul)

/-- What the process reads through the pointers. -/
def read (filling : Filling) : List (Option Bytes) :=
  filling.slots.map fun pointer => pointer.map fun offset => cStr (filling.cells.drop offset)

end Filling

/-- The constructor, for one of the two arrays. -/
def fillArray {strings : List Bytes} (memory : Memory strings) : Filling :=
  Filling.cut strings.length 0 0
    (Filling.strcpy { cells := memory.cells, slots := memory.slots } 0 (frame cr strings))

namespace Filling

variable {filling : Filling} {front text behind : Bytes}

theorem set_front (front : Bytes) (letter old : Byte) (behind : Bytes) :
    (front ++ old :: behind).set front.length letter = front ++ letter :: behind := by
  rw [List.set_append_right _ _ le_rfl, Nat.sub_self, List.set_cons_zero]

/-! ### The copy -/

/-- **`strcpy`** writes the C string and its NUL, one cell after the other. -/
theorem strcpy_eq (string : Bytes) {garbage : Bytes} (cells : filling.cells = front ++ garbage)
    (room : (cStr string).length < garbage.length) :
    filling.strcpy front.length string =
      { filling with
        cells := front ++ cStr string ++ nul :: garbage.drop ((cStr string).length + 1)
        written := filling.written ++ List.range' front.length ((cStr string).length + 1) } := by
  induction string generalizing filling front garbage with
  | nil =>
    obtain ⟨old, rest, rfl⟩ := List.exists_cons_of_length_pos (Nat.zero_lt_of_lt room)
    show filling.write front.length nul = _
    rw [write, cells, set_front]
    simp [cStr, before]
  | cons letter string ih =>
    obtain ⟨old, rest, rfl⟩ := List.exists_cons_of_length_pos (Nat.zero_lt_of_lt room)
    rw [strcpy]
    by_cases isNul : letter = nul
    · subst isNul
      rw [if_pos rfl, write, cells, set_front, cStr, before_cons_self]
      simp
    · have shape : cStr (letter :: string) = letter :: cStr string := by
        rw [cStr, before, cStr, before, List.takeWhile_cons_of_pos (by simpa using isNul)]
      rw [shape, List.length_cons, List.length_cons] at room
      have written : (filling.write front.length letter).cells = (front ++ [letter]) ++ rest := by
        rw [write, cells, set_front]
        simp
      have rest := ih written (Nat.lt_of_succ_lt_succ room)
      rw [List.length_append, List.length_singleton] at rest
      rw [if_neg isNul, rest, shape, write]
      simp [List.range'_succ]

/-! ### The loop -/

/-- What the process reads through one pointer. -/
def readAt (cells : Bytes) (pointer : Option Nat) : Option Bytes :=
  pointer.map fun offset => cStr (cells.drop offset)

/-- What the loop does with a text from `front` on, and with the pointers behind `done`: it cuts up to
`rounds` strings off the text, and writes only into the text. -/
structure Cuts (front text behind : Bytes) (done : List (Option Nat)) (rounds : Nat)
    (before after : Filling) : Prop where
  cells : ∃ rest, after.cells = front ++ rest ++ nul :: behind
  slots : ∃ new, after.slots = done ++ new ∧
    (unframe cr rounds text).map some ++ [none] <+: new.map (readAt after.cells)
  length : after.slots.length = before.slots.length
  written : ∃ more, after.written = before.written ++ more ∧
    ∀ offset ∈ more, offset < front.length + text.length
  stored : ∃ more, after.stored = before.stored ++ more ∧ ∀ index ∈ more, index ≤ done.length + rounds

/-- The null pointer behind the last string. -/
theorem store_none_cuts {done left : List (Option Nat)} {rounds : Nat}
    (cells : filling.cells = front ++ text ++ nul :: behind) (slots : filling.slots = done ++ left)
    (room : 0 < left.length) (ends : unframe cr rounds text = []) :
    Cuts front text behind done rounds filling (filling.store done.length none) := by
  obtain ⟨old, rest, rfl⟩ := List.exists_cons_of_length_pos room
  refine ⟨⟨text, cells⟩, ⟨none :: rest, ?_, ?_⟩, List.length_set, ⟨[], ?_, ?_⟩, ⟨[done.length], rfl, ?_⟩⟩
  · show filling.slots.set done.length none = done ++ none :: rest
    rw [slots, List.set_append_right _ _ le_rfl, Nat.sub_self, List.set_cons_zero]
  · rw [ends, List.map_nil, List.nil_append, List.map_cons]
    exact List.prefix_append [none] _
  · exact (List.append_nil _).symm
  · exact fun offset inside => absurd inside List.not_mem_nil
  · intro index inside
    rw [List.mem_singleton.mp inside]
    exact Nat.le_add_right _ _

/-- A round without a CR: the pointer that it has stored is overwritten. -/
theorem store_store_cuts {done left : List (Option Nat)} {old : Option Nat} {rounds : Nat}
    (cells : filling.cells = front ++ text ++ nul :: behind)
    (slots : filling.slots = done ++ old :: left) (free : cr ∉ text) :
    Cuts front text behind done (rounds + 1) filling
      ((filling.store done.length (some front.length)).store done.length none) := by
  have stored : (filling.store done.length (some front.length)).slots =
      done ++ some front.length :: left := by
    show filling.slots.set done.length _ = _
    rw [slots, List.set_append_right _ _ le_rfl, Nat.sub_self, List.set_cons_zero]
  have same : (filling.store done.length (some front.length)).cells = front ++ text ++ nul :: behind :=
    cells
  have ended := store_none_cuts same stored (List.length_pos_of_ne_nil (List.cons_ne_nil _ _))
    (unframe_of_notMem free (rounds + 1))
  obtain ⟨more, isMore, within⟩ := ended.stored
  refine ⟨ended.cells, ended.slots, ended.length.trans List.length_set, ended.written,
    ⟨done.length :: more, ?_, List.forall_mem_cons.mpr ⟨Nat.le_add_right _ _, within⟩⟩⟩
  rw [isMore]
  exact List.append_assoc _ _ _

/-- A round with a CR, and what the loop does behind it. -/
theorem Cuts.round {item later : Bytes} {done : List (Option Nat)} {rounds : Nat} {after : Filling}
    (itemFree : nul ∉ item) (free : cr ∉ item)
    (rest : Cuts (front ++ item ++ [nul]) later behind (done ++ [some front.length]) rounds
      ((filling.store done.length (some front.length)).write (front.length + item.length) nul) after) :
    Cuts front (item ++ cr :: later) behind done (rounds + 1) filling after := by
  obtain ⟨⟨others, isCells⟩, ⟨new, isSlots, reads⟩, length, ⟨more, isMore, bounded⟩,
    ⟨taken, isTaken, within⟩⟩ := rest
  refine ⟨⟨item ++ nul :: others, ?_⟩, ⟨some front.length :: new, ?_, ?_⟩,
    length.trans List.length_set, ⟨(front.length + item.length) :: more, ?_, ?_⟩,
    ⟨done.length :: taken, ?_, ?_⟩⟩
  · rw [isCells]
    simp
  · rw [isSlots, List.append_assoc, List.singleton_append]
  · have value : readAt after.cells (some front.length) = some item := by
      have shape : front ++ item ++ [nul] ++ others ++ nul :: behind =
          front ++ (item ++ nul :: (others ++ nul :: behind)) := by simp
      rw [isCells, shape, readAt, Option.map_some, List.drop_left, cStr, before_append_cons itemFree]
    rw [unframe_succ_append_cons free, List.map_cons, List.map_cons, List.cons_append, value]
    exact (List.prefix_cons_inj _).mpr reads
  · rw [isMore]
    exact List.append_assoc _ _ _
  · rw [List.length_append, List.length_cons]
    refine List.forall_mem_cons.mpr ⟨by omega, fun offset inside => ?_⟩
    have small := bounded offset inside
    simp only [List.length_append, List.length_singleton] at small
    omega
  · rw [isTaken]
    exact List.append_assoc _ _ _
  · refine List.forall_mem_cons.mpr ⟨Nat.le_add_right _ _, fun index inside => ?_⟩
    have small := within index inside
    rw [List.length_append, List.length_singleton] at small
    omega

/-- **The loop cuts the text at its CRs.** -/
theorem cut_cuts {rounds : Nat} {done left : List (Option Nat)}
    (cells : filling.cells = front ++ text ++ nul :: behind) (noNul : nul ∉ text)
    (slots : filling.slots = done ++ left) (room : left.length = rounds + 1) :
    Cuts front text behind done rounds filling (cut rounds done.length front.length filling) := by
  induction rounds generalizing filling front text done left with
  | zero => exact store_none_cuts cells slots (by omega) rfl
  | succ rounds ih =>
    obtain ⟨old, rest, rfl⟩ : ∃ old rest, left = old :: rest :=
      List.exists_cons_of_length_pos (by omega)
    have here : (filling.store done.length (some front.length)).cells.drop front.length =
        text ++ nul :: behind := by
      show filling.cells.drop front.length = _
      rw [cells, List.append_assoc, List.drop_left]
    have found : strfind ((filling.store done.length (some front.length)).cells.drop front.length) cr =
        text.findIdx? (· == cr) := by
      rw [here, strfind_eq, cStr, before_append_cons noNul]
    simp only [cut, found]
    rcases notMem_or_exists_first cr text with free | ⟨item, later, rfl, free⟩
    · rw [findIdx?_eq_none free]
      exact store_store_cuts cells slots free
    · rw [findIdx?_append_cons free]
      have itemFree : nul ∉ item := fun inside => noNul (List.mem_append_left _ inside)
      have laterFree : nul ∉ later := fun inside =>
        noNul (List.mem_append_right _ (List.mem_cons_of_mem _ inside))
      have nextCells : ((filling.store done.length (some front.length)).write
          (front.length + item.length) nul).cells =
            (front ++ item ++ [nul]) ++ later ++ nul :: behind := by
        show filling.cells.set _ nul = _
        rw [cells, ← List.length_append, ← List.append_assoc front, List.append_assoc (front ++ item),
          List.cons_append, set_front]
        simp
      have nextSlots : ((filling.store done.length (some front.length)).write
          (front.length + item.length) nul).slots = (done ++ [some front.length]) ++ rest := by
        show filling.slots.set done.length _ = _
        rw [slots, List.set_append_right _ _ le_rfl, Nat.sub_self, List.set_cons_zero,
          List.append_assoc, List.singleton_append]
      have cuts := ih nextCells laterFree nextSlots (Nat.succ.inj room)
      simp only [List.length_append, List.length_singleton] at cuts
      exact cuts.round itemFree free

end Filling

/-! ### The whole constructor -/

variable {strings : List Bytes} (memory : Memory strings)

/-- The copy, and what the loop makes of it. -/
theorem fillArray_cuts :
    ∃ behind copied, copied.written = List.range ((cStr (frame cr strings)).length + 1) ∧
      copied.stored = [] ∧ copied.slots.length = strings.length + 1 ∧
      Filling.Cuts [] (cStr (frame cr strings)) behind [] strings.length copied (fillArray memory) := by
  have room : (cStr (frame cr strings)).length < memory.cells.length := by
    have short := (before_isPrefix nul (frame cr strings)).length_le
    rw [memory.length_cells, cStr]
    omega
  let initial : Filling := { cells := memory.cells, slots := memory.slots }
  have copied := @Filling.strcpy_eq initial [] (frame cr strings) memory.cells rfl room
  have cells : (initial.strcpy 0 (frame cr strings)).cells = [] ++ cStr (frame cr strings) ++
      nul :: memory.cells.drop ((cStr (frame cr strings)).length + 1) := congrArg Filling.cells copied
  have slots : (initial.strcpy 0 (frame cr strings)).slots = [] ++ memory.slots :=
    congrArg Filling.slots copied
  refine ⟨memory.cells.drop ((cStr (frame cr strings)).length + 1), initial.strcpy 0 (frame cr strings),
    ?_, congrArg Filling.stored copied, (congrArg List.length slots).trans memory.length_slots, ?_⟩
  · rw [List.range_eq_range']
    exact congrArg Filling.written copied
  · exact Filling.cut_cuts cells (noNul_cStr _) slots memory.length_slots

theorem length_read (filling : Filling) : filling.read.length = filling.slots.length :=
  List.length_map _

/-- **What the process reads** is the array of the model, and a null pointer behind it. -/
theorem fillArray_reads : (processArray strings).map some ++ [none] <+: (fillArray memory).read := by
  obtain ⟨behind, copied, _, _, _, cuts⟩ := fillArray_cuts memory
  obtain ⟨new, isSlots, reads⟩ := cuts.slots
  rw [processArray_eq]
  rw [List.nil_append] at isSlots
  have same : (fillArray memory).read = new.map (Filling.readAt (fillArray memory).cells) := by
    rw [← isSlots]
    rfl
  exact same ▸ reads

theorem fillArray_of_clean (clean : ∀ string ∈ strings, cr ∉ string ∧ nul ∉ string) :
    (fillArray memory).read = strings.map some ++ [none] := by
  have reads := fillArray_reads memory
  rw [processArray_of_clean clean] at reads
  obtain ⟨behind, copied, _, _, slots, cuts⟩ := fillArray_cuts memory
  refine (reads.eq_of_length ?_).symm
  rw [length_read, cuts.length, slots, List.length_append, List.length_map, List.length_singleton]

/-- The runner is looked up by the text behind the last dot. -/
theorem launcher_of_path (programs : Programs) (path : Bytes) :
    programs.launcher path = if dot ∈ path then (programs (afterLast dot path)).getD [] else [] := by
  unfold Programs.launcher
  rcases notMem_or_exists_last dot path with free | ⟨front, back, rfl, free⟩
  · rw [rfind_eq_none free, if_neg free]
  · rw [rfind_append_cons front free, if_pos (by simp), afterLast_append_cons front free]
    exact congrArg (fun extension => (programs extension).getD []) (drop_front front dot back)

/-- The letters of a binding. -/
theorem notMem_envString_iff {letter : Byte} (other : letter ≠ equals) (var : Bytes × Bytes) :
    letter ∉ envString var ↔ letter ∉ var.1 ∧ letter ∉ var.2 := by
  rw [envString, List.mem_append, List.mem_cons, not_or, not_or]
  exact and_congr_right fun _ => and_iff_right other

/-- **The arrays of a process hold what was asked for.** The character behind an array is written, but
no string is cut there. -/
theorem arrays_of_clean {programs : Programs} {path : Bytes} {env : List (Bytes × Bytes)}
    {args : List Bytes} (pathClean : cr ∉ path ∧ nul ∉ path)
    (envClean : ∀ var ∈ env, (cr ∉ var.1 ∧ nul ∉ var.1) ∧ cr ∉ var.2 ∧ nul ∉ var.2)
    (argsClean : ∀ arg ∈ args, cr ∉ arg ∧ nul ∉ arg)
    (programsClean : ∀ extension words, programs extension = some words →
      ∀ word ∈ words, cr ∉ word ∧ nul ∉ word)
    (envMemory : Memory (env.map envString))
    (argsMemory : Memory (programs.launcher path ++ path :: args)) :
    (fillArray envMemory).read = (env.map fun var => some (var.1 ++ equals :: var.2)) ++ [none] ∧
      (fillArray argsMemory).read =
        ((if dot ∈ path then (programs (afterLast dot path)).getD [] else []) ++ path :: args).map some
          ++ [none] := by
  constructor
  · rw [fillArray_of_clean envMemory, List.map_map]
    · rfl
    · intro string inside
      obtain ⟨var, isVar, rfl⟩ := List.mem_map.mp inside
      obtain ⟨⟨nameCr, nameNul⟩, valueCr, valueNul⟩ := envClean var isVar
      exact ⟨(notMem_envString_iff (by decide) var).mpr ⟨nameCr, valueCr⟩,
        (notMem_envString_iff (by decide) var).mpr ⟨nameNul, valueNul⟩⟩
  · rw [← launcher_of_path]
    refine fillArray_of_clean argsMemory fun string inside => ?_
    rcases List.mem_append.mp inside with launches | given
    · rw [launcher_of_path] at launches
      split at launches
      · cases found : programs (afterLast dot path) with
        | none =>
          rw [found] at launches
          exact absurd launches List.not_mem_nil
        | some words =>
          rw [found] at launches
          exact programsClean _ words found string launches
      · exact absurd launches List.not_mem_nil
    · rcases List.mem_cons.mp given with rfl | isArg
      · exact pathClean
      · exact argsClean string isArg

/-- Memory that was not used before. -/
def freshMemory (strings : List Bytes) : Memory strings :=
  ⟨List.replicate ((frame cr strings).length + 1) nul, List.replicate (strings.length + 1) none,
    List.length_replicate, List.length_replicate⟩

/-- A table with one runner. -/
def pythonPrograms : Programs := fun extension =>
  if extension = text "py" then some [text "/usr/bin/python3", text "-u"] else none

theorem arrays_of_clean_python :
    (fillArray (freshMemory ([(text "A", text "1"), (text "B", [])].map envString))).read =
        [(text "A", text "1"), (text "B", [])].map (fun var => some (var.1 ++ equals :: var.2)) ++
          [none] ∧
      (fillArray (freshMemory (pythonPrograms.launcher (text "/a.py") ++ text "/a.py" :: [[]]))).read =
        ((if dot ∈ text "/a.py" then (pythonPrograms (afterLast dot (text "/a.py"))).getD [] else []) ++
          text "/a.py" :: [[]]).map some ++ [none] := by
  refine arrays_of_clean (by decide) ?_ ?_ ?_ _ _
  · exact List.forall_mem_cons.mpr ⟨by decide, List.forall_mem_singleton.mpr (by decide)⟩
  · exact List.forall_mem_singleton.mpr (by decide)
  · intro extension words found word inside
    unfold pythonPrograms at found
    split at found
    · obtain rfl := Option.some.inj found
      rcases List.mem_cons.mp inside with rfl | inside
      · decide
      · obtain rfl := List.mem_singleton.mp inside
        decide
    · cases found

/-! ### What is written where -/

/-- Every character and every pointer that was assigned lies in its array. -/
def Filling.Inside (strings : List Bytes) (filling : Filling) : Prop :=
  (∀ offset ∈ filling.written, offset < (frame cr strings).length) ∧
    ∀ index ∈ filling.stored, index < strings.length + 1

theorem length_cStr_lt_iff (string : Bytes) : (cStr string).length < string.length ↔ nul ∈ string := by
  rcases notMem_or_exists_first nul string with free | ⟨front, back, rfl, free⟩
  · rw [cStr_of_noNul free]
    exact iff_of_false (Nat.lt_irrefl _) free
  · rw [cStr, before_append_cons free]
    exact iff_of_true (by simp) (by simp)

theorem nul_mem_frame_iff : nul ∈ frame cr strings ↔ ∃ string ∈ strings, nul ∈ string := by
  have other : nul ≠ cr := by decide
  simp [frame, other]

/-- **The terminator of the copy needs a cell that only a NUL in the stream leaves.** -/
theorem fillArray_inside_iff :
    (fillArray memory).Inside strings ↔ ∃ string ∈ strings, nul ∈ string := by
  obtain ⟨behind, copied, written, stored, _, cuts⟩ := fillArray_cuts memory
  obtain ⟨more, isMore, bounded⟩ := cuts.written
  obtain ⟨taken, isTaken, within⟩ := cuts.stored
  rw [stored, List.nil_append] at isTaken
  rw [← nul_mem_frame_iff, ← length_cStr_lt_iff]
  constructor
  · intro inside
    refine inside.1 _ ?_
    rw [isMore, written]
    exact List.mem_append_left _ (List.mem_range.mpr (Nat.lt_succ_self _))
  · intro shorter
    constructor
    · intro offset isWritten
      rw [isMore, written] at isWritten
      rcases List.mem_append.mp isWritten with copies | cuts
      · exact (Nat.le_of_lt_succ (List.mem_range.mp copies)).trans_lt shorter
      · have small := bounded offset cuts
        rw [List.length_nil, Nat.zero_add] at small
        exact small.trans shorter
    · intro index isStored
      rw [isTaken] at isStored
      have small := within index isStored
      rw [List.length_nil, Nat.zero_add] at small
      exact Nat.lt_succ_of_le small

/-- **When the constructor stays inside its arrays**: some string of the environment and some word of
the arguments holds a NUL, which ends the copy before its last cell. -/
theorem arrays_inside_iff (programs : Programs) (path : Bytes) (env : List (Bytes × Bytes))
    (args : List Bytes) (envMemory : Memory (env.map envString))
    (argsMemory : Memory (programs.launcher path ++ path :: args)) :
    ((fillArray envMemory).Inside (env.map envString) ∧
        (fillArray argsMemory).Inside (programs.launcher path ++ path :: args)) ↔
      (∃ var ∈ env, nul ∈ var.1 ∨ nul ∈ var.2) ∧
        ∃ word ∈ programs.launcher path ++ path :: args, nul ∈ word := by
  rw [fillArray_inside_iff, fillArray_inside_iff]
  refine and_congr_left fun _ => ?_
  constructor
  · rintro ⟨string, inside, isNul⟩
    obtain ⟨var, isVar, rfl⟩ := List.mem_map.mp inside
    refine ⟨var, isVar, ?_⟩
    by_contra neither
    exact (notMem_envString_iff (by decide) var).mpr (not_or.mp neither) isNul
  · rintro ⟨var, isVar, either⟩
    refine ⟨envString var, List.mem_map_of_mem isVar, ?_⟩
    by_contra free
    exact not_or.mpr ((notMem_envString_iff (by decide) var).mp free) either

/-- For `A=1` four characters are allocated, and the fifth one is written. -/
theorem arrays_overflow :
    4 ∈ (fillArray (freshMemory [text "A=1"])).written ∧ (frame cr [text "A=1"]).length = 4 ∧
      ¬ (fillArray (freshMemory ([(text "A", text "1")].map envString))).Inside
        ([(text "A", text "1")].map envString) := by
  refine ⟨by decide, by decide, fun inside => ?_⟩
  exact absurd (inside.1 4 (by decide)) (by decide)

end GemCaps
