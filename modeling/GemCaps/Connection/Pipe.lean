/-
**`BufferPipe`, a queue of bytes in one array** (`util.cpp`).

The bytes that wait stand in the array from `start` on. A pipe carries the proof that they, and the
`size` bytes of its first array, lie inside the array that is allocated; `size` is not updated when a
larger array is allocated. `contents_write` and `contents_read`: in terms of the bytes that wait, a
write appends and a read takes from the front.
-/

import GemCaps.Text

namespace GemCaps

/-- `BufferPipe`; `buffer` is the whole array. -/
structure BufferPipe where
  buffer : Bytes
  size : Nat
  length : Nat
  start : Nat
  closed : Bool
  allocated : size ≤ buffer.length
  inside : start + length ≤ buffer.length

namespace BufferPipe

/-- `BufferPipe()`. -/
def empty : BufferPipe := ⟨[], 0, 0, 0, false, Nat.le_refl _, Nat.le_refl _⟩

variable (pipe : BufferPipe)

/-- The bytes that wait. -/
def contents : Bytes := (pipe.buffer.drop pipe.start).take pipe.length

@[simp] theorem length_contents : pipe.contents.length = pipe.length := by
  have inside := pipe.inside
  simp only [contents, List.length_take, List.length_drop]
  omega

/-- `ready()`. -/
def ready : Nat := pipe.length

/-- The first branch of `write`: a new array for `count` more bytes. -/
def resize (count : Nat) : BufferPipe :=
  if large : pipe.size < pipe.length + count then
    ⟨pipe.contents ++ List.replicate count 0, pipe.size, pipe.length, 0, pipe.closed,
      by simp; omega, by simp⟩
  else pipe

/-- The second branch of `write`: the waiting bytes move to the front of the array. -/
def rewind (count : Nat) : BufferPipe :=
  if pipe.size < pipe.start + pipe.length + count then
    ⟨pipe.contents ++ pipe.buffer.drop pipe.length, pipe.size, pipe.length, 0, pipe.closed,
      by have inside := pipe.inside; have allocated := pipe.allocated; simp; omega, by simp⟩
  else pipe

/-- The `memcpy` of `write`, behind the waiting bytes. -/
def place (data : Bytes) (room : pipe.start + pipe.length + data.length ≤ pipe.buffer.length) :
    BufferPipe :=
  ⟨pipe.buffer.take (pipe.start + pipe.length) ++
      (data ++ pipe.buffer.drop (pipe.start + pipe.length + data.length)),
    pipe.size, pipe.length + data.length, pipe.start, pipe.closed,
    by have allocated := pipe.allocated; simp; omega,
    by simp; omega⟩

theorem contents_resize (count : Nat) : (pipe.resize count).contents = pipe.contents := by
  unfold resize
  by_cases large : pipe.size < pipe.length + count
  · rw [dif_pos large, contents]
    exact List.take_left' pipe.length_contents
  · rw [dif_neg large]

theorem contents_rewind (count : Nat) : (pipe.rewind count).contents = pipe.contents := by
  unfold rewind
  by_cases far : pipe.size < pipe.start + pipe.length + count
  · rw [if_pos far, contents]
    exact List.take_left' pipe.length_contents
  · rw [if_neg far]

theorem contents_place (data : Bytes)
    (room : pipe.start + pipe.length + data.length ≤ pipe.buffer.length) :
    (pipe.place data room).contents = pipe.contents ++ data := by
  have front : (pipe.buffer.take (pipe.start + pipe.length)).drop pipe.start = pipe.contents := by
    rw [List.drop_take, Nat.add_sub_cancel_left, contents]
  simp only [place, contents]
  rw [List.drop_append_of_le_length (by simp only [List.length_take]; omega), front,
    List.take_append, length_contents, Nat.add_sub_cancel_left, List.take_left' rfl,
    List.take_of_length_le (by rw [length_contents]; omega)]
  rfl

/-- After both branches there is room behind the waiting bytes. -/
theorem room (count : Nat) :
    ((pipe.resize count).rewind count).start + ((pipe.resize count).rewind count).length + count ≤
      ((pipe.resize count).rewind count).buffer.length := by
  have inside := pipe.inside
  have allocated := pipe.allocated
  by_cases large : pipe.size < pipe.length + count
  · have moved : pipe.size < 0 + pipe.length + count := by omega
    simp only [resize, dif_pos large, rewind, if_pos moved, List.length_append, List.length_drop,
      length_contents, List.length_replicate]
    simp
  · simp only [resize, dif_neg large]
    by_cases far : pipe.size < pipe.start + pipe.length + count
    · simp only [rewind, if_pos far, List.length_append, List.length_drop, length_contents]
      omega
    · rw [rewind, if_neg far]
      omega

/-- `write(buf, len)`. -/
def write (data : Bytes) : BufferPipe :=
  if pipe.closed then pipe
  else ((pipe.resize data.length).rewind data.length).place data (pipe.room data.length)

/-- `read(len, buf)`, with the bytes copied to `buf`. -/
def read (len : Nat) : BufferPipe × Bytes :=
  (⟨pipe.buffer, pipe.size, pipe.length - min pipe.length len, pipe.start + min pipe.length len,
    pipe.closed, pipe.allocated, by have inside := pipe.inside; omega⟩,
    (pipe.buffer.drop pipe.start).take (min pipe.length len))

/-! ### The queue -/

/-- **A write appends.** -/
theorem contents_write (isOpen : pipe.closed = false) (data : Bytes) :
    (pipe.write data).contents = pipe.contents ++ data := by
  rw [write, if_neg (by simp [isOpen]), contents_place, contents_rewind, contents_resize]

@[simp] theorem closed_write (data : Bytes) : (pipe.write data).closed = pipe.closed := by
  have kept : ∀ count, ((pipe.resize count).rewind count).closed = pipe.closed := by
    intro count
    unfold rewind resize
    split <;> split <;> rfl
  unfold write
  by_cases isClosed : pipe.closed = true
  · rw [if_pos isClosed]
  · rw [if_neg isClosed]
    exact kept data.length

@[simp] theorem closed_read (len : Nat) : (pipe.read len).1.closed = pipe.closed := rfl

/-- **A read takes from the front.** -/
theorem read_eq (len : Nat) :
    (pipe.read len).2 = pipe.contents.take len ∧
      (pipe.read len).1.contents = pipe.contents.drop len := by
  have cut : pipe.length - min pipe.length len = pipe.length - len := by omega
  constructor
  · rw [contents, List.take_take, Nat.min_comm]
    rfl
  · simp only [read, contents, List.drop_take, List.drop_drop, cut]
    rcases Nat.le_total len pipe.length with enough | short
    · rw [Nat.min_eq_right enough]
    · rw [Nat.sub_eq_zero_of_le short, List.take_zero, List.take_zero]

end BufferPipe

end GemCaps
