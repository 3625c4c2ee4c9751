/-
**`BufferPipe` on its array, with the arithmetic of `size_t`** (`util.cpp`).

Here a copy may leave the array, and the sums of `write` may wrap: a pipe is any array with any four
fields, and a copy that leaves the array is `none`. A `BufferPipe` is such a pipe that carries its
bounds. While fewer than `2 ^ 64` bytes have been written, the two compute the same
(`raw_write`, `raw_read`), so that every copy stays inside and the calls return what those of a queue
return: `run_queue`.
-/

import GemCaps.Connection.Pipe
import GemCaps.Library.Queue

namespace GemCaps

/-- The sum of two `size_t`. -/
def sizeAdd (first second : Nat) : Nat := (first + second) % 2 ^ 64

/-- The source of a copy: these bytes of an array. -/
def copyFrom (array : Bytes) (start count : Nat) : Option Bytes :=
  if start + count ≤ array.length then some ((array.drop start).take count) else none

/-- The target of a copy: the array with these bytes from `start` on. -/
def copyTo (array : Bytes) (start : Nat) (data : Bytes) : Option Bytes :=
  if start + data.length ≤ array.length then
    some (array.take start ++ (data ++ array.drop (start + data.length)))
  else none

/-- The fields of a `BufferPipe`. -/
structure PipeArray where
  buffer : Bytes
  size : Nat
  length : Nat
  start : Nat
  closed : Bool
deriving DecidableEq

namespace PipeArray

variable (pipe : PipeArray)

/-- The constructors: an array with any contents, or none at all. -/
def create (array : Bytes) : PipeArray := ⟨array, array.length, 0, 0, false⟩

/-- `ready()`. -/
def ready : Nat := pipe.length

/-- The first branch of `write`. -/
def resize (count : Nat) : Option PipeArray :=
  if pipe.size < sizeAdd pipe.length count then do
    let waiting ← copyFrom pipe.buffer pipe.start pipe.length
    let newbuf ← copyTo (List.replicate (sizeAdd pipe.length count) 0) 0 waiting
    return { pipe with buffer := newbuf, start := 0 }
  else some pipe

/-- The second branch of `write`. -/
def rewind (count : Nat) : Option PipeArray :=
  if pipe.size < sizeAdd (sizeAdd pipe.start pipe.length) count then do
    let waiting ← copyFrom pipe.buffer pipe.start pipe.length
    let buffer ← copyTo pipe.buffer 0 waiting
    return { pipe with buffer, start := 0 }
  else some pipe

/-- The `memcpy` of `write`. -/
def place (data : Bytes) : Option PipeArray := do
  let buffer ← copyTo pipe.buffer (sizeAdd pipe.start pipe.length) data
  return { pipe with buffer, length := sizeAdd pipe.length data.length }

/-- `write(buf, len)`. -/
def write (data : Bytes) : Option PipeArray :=
  if pipe.closed then some pipe
  else do
    let pipe ← pipe.resize data.length
    let pipe ← pipe.rewind data.length
    pipe.place data

/-- `read(len, buf)`: the number that it returns, and the bytes that it copies to `buf`. -/
def read (len : Nat) : Option (PipeArray × Nat × Bytes) := do
  let count := if pipe.length < len then pipe.length else len
  let data ← copyFrom pipe.buffer pipe.start count
  return ({ pipe with start := sizeAdd pipe.start count, length := sizeSub pipe.length count },
    count, data)

/-- One call, with what a read returns; `none` where a copy leaves an array. -/
def step (pipe : PipeArray) : Queue.Call Byte → Option (PipeArray × Option (Nat × Bytes))
  | .write data => (pipe.write data).map fun pipe => (pipe, none)
  | .read len => (pipe.read len).map fun (pipe, reading) => (pipe, some reading)
  | .close => some ({ pipe with closed := true }, none)

end PipeArray

/-! ### A pipe that carries its bounds -/

theorem sizeAdd_eq {first second : Nat} (small : first + second < 2 ^ 64) :
    sizeAdd first second = first + second := Nat.mod_eq_of_lt small

theorem sizeSub_eq {first second : Nat} (small : first < 2 ^ 64) (fits : second ≤ first) :
    sizeSub first second = first - second := by
  unfold sizeSub
  omega

theorem copyFrom_eq {array : Bytes} {start count : Nat} (inside : start + count ≤ array.length) :
    copyFrom array start count = some ((array.drop start).take count) := if_pos inside

theorem copyTo_eq {array data : Bytes} {start : Nat} (inside : start + data.length ≤ array.length) :
    copyTo array start data =
      some (array.take start ++ (data ++ array.drop (start + data.length))) := if_pos inside

namespace BufferPipe

variable (pipe : BufferPipe)

/-- The fields alone. -/
def raw : PipeArray := ⟨pipe.buffer, pipe.size, pipe.length, pipe.start, pipe.closed⟩

theorem raw_resize {count : Nat} (small : pipe.start + pipe.length + count < 2 ^ 64) :
    pipe.raw.resize count = some ((pipe.resize count).raw) := by
  have inside := pipe.inside
  have sum : sizeAdd pipe.length count = pipe.length + count := sizeAdd_eq (by omega)
  unfold PipeArray.resize resize raw
  simp only [sum]
  by_cases large : pipe.size < pipe.length + count
  · rw [if_pos large, dif_pos large, copyFrom_eq inside]
    have source : (pipe.buffer.drop pipe.start).take pipe.length = pipe.contents := rfl
    have fits : 0 + pipe.contents.length ≤ (List.replicate (pipe.length + count) (0 : Byte)).length := by
      rw [length_contents, List.length_replicate]
      omega
    rw [source, Option.bind_eq_bind, Option.bind_some, copyTo_eq fits]
    simp
  · rw [if_neg large, dif_neg large]

theorem raw_rewind {count : Nat} (small : pipe.start + pipe.length + count < 2 ^ 64) :
    pipe.raw.rewind count = some ((pipe.rewind count).raw) := by
  have inside := pipe.inside
  have sum : sizeAdd (sizeAdd pipe.start pipe.length) count = pipe.start + pipe.length + count := by
    have first : pipe.start + pipe.length < 2 ^ 64 := by omega
    rw [sizeAdd_eq first, sizeAdd_eq small]
  unfold PipeArray.rewind rewind raw
  simp only [sum]
  by_cases far : pipe.size < pipe.start + pipe.length + count
  · rw [if_pos far, if_pos far, copyFrom_eq inside]
    have source : (pipe.buffer.drop pipe.start).take pipe.length = pipe.contents := rfl
    have fits : 0 + pipe.contents.length ≤ pipe.buffer.length := by
      rw [length_contents]
      omega
    rw [source, Option.bind_eq_bind, Option.bind_some, copyTo_eq fits]
    simp
  · rw [if_neg far, if_neg far]

/-- The place behind the waiting bytes. -/
def extent : Nat := pipe.start + pipe.length

theorem extent_resize (count : Nat) : (pipe.resize count).extent ≤ pipe.extent := by
  unfold resize
  split
  · show 0 + pipe.length ≤ pipe.start + pipe.length
    omega
  · exact Nat.le_refl _

theorem extent_rewind (count : Nat) : (pipe.rewind count).extent ≤ pipe.extent := by
  unfold rewind
  split
  · show 0 + pipe.length ≤ pipe.start + pipe.length
    omega
  · exact Nat.le_refl _

theorem extent_write (data : Bytes) : (pipe.write data).extent ≤ pipe.extent + data.length := by
  unfold write
  split
  · exact Nat.le_add_right _ _
  · have moved : ((pipe.resize data.length).rewind data.length).extent ≤ pipe.extent :=
      (extent_rewind _ _).trans (extent_resize _ _)
    show _ + (_ + data.length) ≤ _
    rw [← Nat.add_assoc]
    exact Nat.add_le_add_right moved _

theorem raw_place {data : Bytes}
    (room : pipe.start + pipe.length + data.length ≤ pipe.buffer.length)
    (small : pipe.extent + data.length < 2 ^ 64) :
    pipe.raw.place data = some ((pipe.place data room).raw) := by
  have within : pipe.start + pipe.length + data.length < 2 ^ 64 := small
  have behind : sizeAdd pipe.start pipe.length = pipe.start + pipe.length := sizeAdd_eq (by omega)
  have sum : sizeAdd pipe.length data.length = pipe.length + data.length := sizeAdd_eq (by omega)
  unfold PipeArray.place raw
  simp only [behind, sum]
  rw [copyTo_eq room]
  rfl

/-- **A write computes the same on the array**, and its copies stay inside. -/
theorem raw_write {data : Bytes} (small : pipe.extent + data.length < 2 ^ 64) :
    pipe.raw.write data = some ((pipe.write data).raw) := by
  unfold PipeArray.write write
  by_cases isClosed : pipe.closed = true
  · rw [if_pos isClosed]
    exact if_pos isClosed
  · have resized := (pipe.resize data.length).extent_rewind data.length
    have shorter : (pipe.resize data.length).extent + data.length < 2 ^ 64 :=
      Nat.lt_of_le_of_lt (Nat.add_le_add_right (pipe.extent_resize _) _) small
    rw [if_neg isClosed, if_neg (show ¬ pipe.raw.closed = true from isClosed),
      raw_resize pipe small, Option.bind_eq_bind, Option.bind_some,
      raw_rewind _ shorter, Option.bind_some]
    exact raw_place _ _ (Nat.lt_of_le_of_lt (Nat.add_le_add_right resized _) shorter)

/-- **A read computes the same on the array.** -/
theorem raw_read {len : Nat} (small : pipe.extent < 2 ^ 64) :
    pipe.raw.read len =
      some ((pipe.read len).1.raw, (pipe.read len).2.length, (pipe.read len).2) := by
  have inside := pipe.inside
  have within : pipe.start + pipe.length < 2 ^ 64 := small
  have count : (if pipe.length < len then pipe.length else len) = min pipe.length len := by
    rw [Nat.min_def]
    split <;> split <;> omega
  have source : pipe.start + min pipe.length len ≤ pipe.buffer.length := by omega
  have taken : (pipe.read len).2.length = min pipe.length len := by
    show ((pipe.buffer.drop pipe.start).take (min pipe.length len)).length = _
    rw [List.length_take, List.length_drop]
    omega
  unfold PipeArray.read raw
  simp only [count, taken]
  rw [copyFrom_eq source, Option.bind_eq_bind, Option.bind_some, sizeAdd_eq (by omega),
    sizeSub_eq (by omega) (Nat.min_le_left _ _)]
  rfl

end BufferPipe

/-! ### The queue -/

namespace PipeArray

open Queue

variable {array : PipeArray} {state : State Byte} {calls : List (Call Byte)}

/-- What a read copies. -/
def copied : Option (Nat × Bytes) → Option Bytes := Option.map Prod.snd

/-- The array holds what waits in the queue, and the end of what it will hold can be counted. -/
def Simulates (calls : List (Call Byte)) (array : PipeArray) (state : State Byte) : Prop :=
  ∃ pipe : BufferPipe, array = pipe.raw ∧ pipe.contents = state.waiting ∧
    pipe.closed = state.closed ∧ pipe.extent + (accepted state calls).length < 2 ^ 64

/-- **One call.** -/
theorem Simulates.step {call : Call Byte} (simulates : Simulates (call :: calls) array state) :
    ∃ next after answer, array.step call = some (next, answer) ∧
      Queue.step state call = some (after, copied answer) ∧ Simulates calls next after := by
  obtain ⟨pipe, rfl, contents, closed, small⟩ := simulates
  cases call with
  | write data =>
    cases isClosed : state.closed with
    | true =>
      have same : pipe.raw.write data = some pipe.raw := if_pos (closed.trans isClosed)
      refine ⟨pipe.raw, state, none, ?_, ?_, pipe, rfl, contents, closed, ?_⟩
      · rw [PipeArray.step, same, Option.map_some]
      · simp [Queue.step, isClosed, copied]
      · simpa [accepted, isClosed] using small
    | false =>
      have isOpen : pipe.closed = false := closed.trans isClosed
      have room : pipe.extent + data.length + (accepted state calls).length < 2 ^ 64 := by
        simpa [accepted, isClosed, written, Nat.add_assoc] using small
      have fits : pipe.extent + data.length < 2 ^ 64 := by omega
      refine ⟨(pipe.write data).raw, { state with waiting := state.waiting ++ data }, none, ?_, ?_,
        pipe.write data, rfl, ?_, ?_, ?_⟩
      · rw [PipeArray.step, pipe.raw_write fits, Option.map_some]
      · simp [Queue.step, isClosed, copied]
      · rw [pipe.contents_write isOpen, contents]
      · rw [pipe.closed_write, closed]
      · exact Nat.lt_of_le_of_lt (Nat.add_le_add_right (pipe.extent_write data) _) room
  | read len =>
    obtain ⟨data, rest⟩ := pipe.read_eq len
    have moved : (pipe.read len).1.extent = pipe.extent := by
      show pipe.start + min pipe.length len + (pipe.length - min pipe.length len) = _
      unfold BufferPipe.extent
      omega
    have fits : pipe.extent < 2 ^ 64 := by omega
    refine ⟨_, { state with waiting := state.waiting.drop len },
      some ((pipe.read len).2.length, (pipe.read len).2), ?_, ?_, (pipe.read len).1, rfl, ?_, closed,
      ?_⟩
    · rw [PipeArray.step, pipe.raw_read fits, Option.map_some]
    · rw [Queue.step, copied, Option.map_some, data, contents]
    · rw [rest, contents]
    · rw [moved]
      exact small
  | close =>
    refine ⟨_, _, none, rfl, rfl, { pipe with closed := true }, rfl, contents, rfl, ?_⟩
    show pipe.extent + 0 < 2 ^ 64
    omega

theorem create_simulates (memory : Bytes) (small : (written calls).length < 2 ^ 64) :
    Simulates calls (create memory) {} :=
  ⟨⟨memory, memory.length, 0, 0, false, Nat.le_refl _, Nat.zero_le _⟩, rfl, rfl, rfl, by
    simpa [BufferPipe.extent, accepted] using small⟩

/-- A read returns how many bytes it copies, which is what was asked for or what there is. -/
theorem step_read {next : PipeArray} {len : Nat} {answer : Option (Nat × Bytes)}
    (stepped : array.step (.read len) = some (next, answer)) :
    ∃ data, answer = some (min len array.ready, data) ∧ data.length = min len array.ready := by
  obtain ⟨⟨after, count, data⟩, isRead, same⟩ := Option.map_eq_some_iff.mp stepped
  obtain ⟨bytes, isCopy, isReading⟩ := Option.bind_eq_some_iff.mp isRead
  obtain ⟨inside, isBytes⟩ := Option.ite_none_right_eq_some.mp isCopy
  obtain ⟨_, isPair⟩ := Prod.mk.inj (Option.some.inj isReading)
  obtain ⟨rfl, rfl⟩ := Prod.mk.inj isPair
  obtain rfl := Option.some.inj isBytes
  obtain ⟨_, rfl⟩ := Prod.mk.inj same
  have count : (if array.length < len then array.length else len) = min len array.ready := by
    rw [ready, Nat.min_def]
    split <;> split <;> omega
  rw [count] at inside
  refine ⟨_, by rw [count], ?_⟩
  rw [List.length_take, List.length_drop]
  omega

/-- **A `BufferPipe` is a queue of bytes, and every copy stays inside its array.** -/
theorem run_queue (memory : Bytes) (calls : List (Call Byte))
    (small : (written calls).length < 2 ^ 64) :
    ∃ final answers, Answering.run step (create memory) calls = some (final, answers) ∧
      returned (answers.map copied) <+: written calls ∧
      final.ready + (returned (answers.map copied)).length = (written calls).length ∧
      ∀ before len after, calls = before ++ .read len :: after → ∃ middle data,
        Answering.run step (create memory) before = some (middle, answers.take before.length) ∧
        answers[before.length]? = some (some (min len middle.ready, data)) ∧
        data.length = min len middle.ready := by
  obtain ⟨final, last, answers, ran, queued, pipe, rfl, contents, _⟩ :=
    Answering.run_follows copied Simulates (fun _ _ _ _ simulates => simulates.step)
      (create_simulates memory small)
  have cut := run_outputs queued
  refine ⟨_, answers, ran, ⟨last.waiting, cut⟩, ?_, ?_⟩
  · rw [← cut, List.length_append, ← contents, pipe.length_contents]
    exact Nat.add_comm _ _
  · rintro before len after rfl
    obtain ⟨middle, next, answer, reached, stepped, isAnswer⟩ :=
      Answering.run_split_eq_some step ran
    obtain ⟨data, rfl, length⟩ := step_read stepped
    exact ⟨middle, data, reached, isAnswer, length⟩

/-- A pipe of four bytes that has to grow, and is written to after it was closed. -/
def helloCalls : List (Call Byte) :=
  [.write (text "Hello"), .read 2, .write (text " World!"), .close, .write (text "?"), .read 63]

theorem run_queue_hello : ∃ final answers,
    Answering.run step (create [0, 0, 0, 0]) helloCalls = some (final, answers) ∧
      returned (answers.map copied) <+: written helloCalls ∧
      final.ready + (returned (answers.map copied)).length = (written helloCalls).length ∧
      ∀ before len after, helloCalls = before ++ .read len :: after → ∃ middle data,
        Answering.run step (create [0, 0, 0, 0]) before =
          some (middle, answers.take before.length) ∧
        answers[before.length]? = some (some (min len middle.ready, data)) ∧
        data.length = min len middle.ready :=
  run_queue [0, 0, 0, 0] helloCalls (by decide)

end PipeArray

end GemCaps
