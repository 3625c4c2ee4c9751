/-
**`ReusableAllocator`, a pool of items** (`util.hpp`).

The pool has a built-in array and chunks from an underlying allocator. `stack_avail` and the vectors
of `heap_avail` hold the items that are available, `stack_in_use` and `heap_in_use` those that were
handed out. Pointers are any values: `itemAt base index` is `&base[index]`, and nothing is assumed of
it but that the underlying allocator returns chunks apart from what is live (`Fresh`). The order in
which the loop of `allocate` goes through `heap_avail` is not specified, and comes with the call.
-/

import GemCaps.Library.Ledger
import GemCaps.Library.Transition

namespace GemCaps

/-- An order in which a loop goes through a hash map. -/
structure Iteration (α : Type) where
  order : List α → List α
  perm : ∀ entries, (order entries).Perm entries

/-- `ReusableAllocator<T, alloc_size>`. -/
structure Pool (Pointer : Type) where
  stackAvail : List Pointer
  stackInUse : List Pointer := []
  heapAvail : List (Pointer × List Pointer) := []
  heapInUse : List (Pointer × Pointer) := []
  /-- The chunks of the underlying allocator that are live. -/
  chunks : List Pointer := []
deriving DecidableEq

section Operations

variable {Pointer : Type} [DecidableEq Pointer] (itemAt : Pointer → Nat → Pointer) (allocSize : Nat)

/-- The items of an array of `alloc_size`. -/
def block (base : Pointer) : List Pointer := (List.range allocSize).map (itemAt base)

namespace Pool

variable (pool : Pool Pointer)

/-- The constructor; `stack` is the built-in array. -/
def create (stack : Pointer) : Pool Pointer := { stackAvail := block itemAt allocSize stack }

/-- Change the vector of a chunk in `heap_avail`. -/
def modify (entries : List (Pointer × List Pointer)) (base : Pointer)
    (change : List Pointer → List Pointer) : List (Pointer × List Pointer) :=
  entries.map fun entry => if entry.1 = base then (entry.1, change entry.2) else entry

/-- The first part of `allocate`: an item of the built-in array. -/
def takeStack : Option (Pointer × Pool Pointer) :=
  match pool.stackAvail.getLast? with
  | none => none
  | some item => some (item,
      { pool with
        stackAvail := pool.stackAvail.dropLast
        stackInUse := pool.stackInUse.insert item })

/-- `heap_in_use.insert({item, chunk})`, which keeps an entry that is there. -/
def insertUse (uses : List (Pointer × Pointer)) (use : Pointer × Pointer) :
    List (Pointer × Pointer) :=
  if use.1 ∈ uses.map Prod.fst then uses else use :: uses

/-- The second part: an item of the first chunk that has one. -/
def takeHeap (iteration : Iteration (Pointer × List Pointer)) : Option (Pointer × Pool Pointer) := do
  let entry ← (iteration.order pool.heapAvail).find? fun entry => !entry.2.isEmpty
  let item ← entry.2.getLast?
  return (item,
    { pool with
      heapAvail := modify pool.heapAvail entry.1 List.dropLast
      heapInUse := insertUse pool.heapInUse (item, entry.1) })

/-- Both parts. -/
def take (iteration : Iteration (Pointer × List Pointer)) : Option (Pointer × Pool Pointer) :=
  pool.takeStack.or (pool.takeHeap iteration)

/-- The third part: a new chunk from the underlying allocator. -/
def grow (chunk : Pointer) : Pool Pointer :=
  { pool with
    heapAvail :=
      if chunk ∈ pool.heapAvail.map Prod.fst then pool.heapAvail
      else pool.heapAvail ++ [(chunk, block itemAt allocSize chunk)]
    chunks := pool.chunks ++ [chunk] }

/-- `allocate()`; `chunk` is what the underlying allocator returns if it is asked. The call of itself
at the end finds an item in the new chunk, unless the chunk is empty: then it never ends, which is
`none`. -/
def allocate (iteration : Iteration (Pointer × List Pointer)) (chunk : Pointer) :
    Option (Pointer × Pool Pointer) :=
  (pool.take iteration).or ((pool.grow itemAt allocSize chunk).take iteration)

/-- `heap_avail[chunk].push_back(item)`; `operator[]` makes an entry where there is none. -/
def pushBack (entries : List (Pointer × List Pointer)) (base item : Pointer) :
    List (Pointer × List Pointer) :=
  if base ∈ entries.map Prod.fst then modify entries base (· ++ [item])
  else entries ++ [(base, [item])]

/-- The end of `deallocate`, for an item that is in use on the heap. -/
def releaseHeap (item chunk : Pointer) : Pool Pointer :=
  let heapAvail := pushBack pool.heapAvail chunk item
  let heapInUse := pool.heapInUse.erase (item, chunk)
  if ((heapAvail.lookup chunk).getD []).length = allocSize then
    -- The chunk goes back to the underlying allocator.
    { pool with
      heapAvail := heapAvail.filter fun entry => entry.1 ≠ chunk
      heapInUse
      chunks := pool.chunks.filter (· ≠ chunk) }
  else { pool with heapAvail, heapInUse }

/-- `deallocate(item)`. -/
def deallocate (item : Pointer) : Pool Pointer :=
  if item ∈ pool.stackInUse then
    { pool with
      stackAvail := pool.stackAvail ++ [item]
      stackInUse := pool.stackInUse.erase item }
  else
    match pool.heapInUse.find? fun use => use.1 = item with
    | some use => pool.releaseHeap allocSize use.1 use.2
    | none => pool

/-! ### The collections -/

/-- The items that are available. -/
def available : List Pointer := pool.stackAvail ++ pool.heapAvail.flatMap Prod.snd

/-- The items that are in use. -/
def inUse : List Pointer := pool.stackInUse ++ pool.heapInUse.map Prod.fst

/-- The items of a chunk that are in use. -/
def usedIn (base : Pointer) : List Pointer :=
  (pool.heapInUse.filter fun use => use.2 = base).map Prod.fst

/-- The slots of the built-in array and of the live chunks. -/
def slots (stack : Pointer) : List Pointer :=
  block itemAt allocSize stack ++ pool.chunks.flatMap (block itemAt allocSize)

/-- A chunk whose slots are apart from each other and from all that is live. -/
def Fresh (stack chunk : Pointer) : Prop :=
  (pool.slots itemAt allocSize stack ++ block itemAt allocSize chunk).Nodup

instance (stack chunk : Pointer) : Decidable (pool.Fresh itemAt allocSize stack chunk) :=
  inferInstanceAs (Decidable (List.Nodup _))

end Pool

end Operations

/-- The calls on a pool. -/
inductive PoolEvent (Pointer : Type) where
  | allocate (iteration : Iteration (Pointer × List Pointer)) (chunk : Pointer)
  | deallocate (item : Pointer)

/-- One call; `none` where the underlying allocator would return what is live, or `allocate` does not
end. -/
def Pool.step {Pointer : Type} [DecidableEq Pointer] (itemAt : Pointer → Nat → Pointer)
    (allocSize : Nat) (stack : Pointer) (pool : Pool Pointer) :
    PoolEvent Pointer → Option (Pool Pointer)
  | .allocate iteration chunk =>
    if (pool.take iteration).isNone → pool.Fresh itemAt allocSize stack chunk then
      (pool.allocate itemAt allocSize iteration chunk).map Prod.snd
    else none
  | .deallocate item => some (pool.deallocate allocSize item)

end GemCaps
