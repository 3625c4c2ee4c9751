/-
**What a pool holds on to** (`ReusableAllocator`, `util.hpp`).

* `Tight`: every live chunk has an item in use. A chunk comes only when nothing is available
  (`available_of_take`), and goes with the last of its items.
* `run_fits`: the chunks of a pool are no more than the items in use on the heap, and all slots are
  no more than the items that were ever in use at once, and one array. The destructor returns every
  live chunk, and once.
-/

import GemCaps.Memory.Loans

namespace GemCaps

open Transition Ledger

namespace Pool

section Footprint

variable {Pointer : Type} [DecidableEq Pointer] (itemAt : Pointer → Nat → Pointer) (allocSize : Nat)
  (stack : Pointer)

/-- `~ReusableAllocator()`: what it returns to the underlying allocator. -/
def destroy (pool : Pool Pointer) (iteration : Iteration (Pointer × List Pointer)) : List Pointer :=
  (iteration.order pool.heapAvail).map Prod.fst

/-- Every live chunk has an item in use. -/
def Tight (pool : Pool Pointer) : Prop :=
  ∀ chunk ∈ pool.chunks, ∃ item, (item, chunk) ∈ pool.heapInUse

/-- The invariant: nothing is held but for items in use, or for items that were in use at once. -/
structure Fits (most : Nat) (pool : Pool Pointer) : Prop where
  sound : pool.Sound itemAt allocSize stack
  tight : pool.Tight
  small : allocSize * pool.chunks.length ≤ most

variable {itemAt allocSize stack} {pool next : Pool Pointer} {item : Pointer} {most : Nat}
  {iteration : Iteration (Pointer × List Pointer)}

/-! ### Lengths -/

omit [DecidableEq Pointer] in
theorem length_block (base : Pointer) : (block itemAt allocSize base).length = allocSize := by
  unfold block
  rw [List.length_map, List.length_range]

omit [DecidableEq Pointer] in
theorem length_slots (pool : Pool Pointer) :
    (pool.slots itemAt allocSize stack).length = allocSize * pool.chunks.length + allocSize := by
  unfold slots
  rw [List.length_append, List.length_flatMap, length_block]
  simp only [length_block, List.map_const', List.sum_replicate_nat]
  rw [Nat.add_comm, Nat.mul_comm]

omit [DecidableEq Pointer] in
/-- There is no more than one chunk for an item in use on the heap. -/
theorem Tight.length_chunks (tight : pool.Tight) (apart : pool.chunks.Nodup) :
    pool.chunks.length ≤ pool.heapInUse.length := by
  have inside : pool.chunks ⊆ pool.heapInUse.map Prod.snd := by
    intro chunk isLive
    obtain ⟨item, isUsed⟩ := tight chunk isLive
    exact List.mem_map.mpr ⟨(item, chunk), isUsed, rfl⟩
  have bounded := (List.subperm_of_subset apart inside).length_le
  rwa [List.length_map] at bounded

/-! ### `allocate` -/

theorem mem_insertUse_of_mem {uses : List (Pointer × Pointer)} {use other : Pointer × Pointer}
    (inside : other ∈ uses) : other ∈ insertUse uses use := by
  unfold insertUse
  split
  · exact inside
  · exact List.mem_cons_of_mem _ inside

/-- An item of the heap: its chunk has it in use, and had it available. -/
theorem Sound.used_of_takeHeap (sound : pool.Sound itemAt allocSize stack)
    (taken : pool.takeHeap iteration = some (item, next)) :
    next.chunks = pool.chunks ∧ (∀ use ∈ pool.heapInUse, use ∈ next.heapInUse) ∧
      ∃ entry ∈ pool.heapAvail, item ∈ entry.2 ∧ (item, entry.1) ∈ next.heapInUse := by
  obtain ⟨entry, found, rest⟩ := Option.bind_eq_some_iff.mp taken
  obtain ⟨lastItem, last, same⟩ := Option.bind_eq_some_iff.mp rest
  cases same
  have inside : entry ∈ pool.heapAvail :=
    (iteration.perm _).mem_iff.mp (List.mem_of_find?_eq_some found)
  have isFree : item ∈ entry.2 := List.mem_of_getLast? last
  have unused : item ∉ pool.heapInUse.map Prod.fst := fun isUsed =>
    sound.notMem_inUse inside isFree (List.mem_append_right _ isUsed)
  have inserted : insertUse pool.heapInUse (item, entry.1) = (item, entry.1) :: pool.heapInUse :=
    if_neg unused
  refine ⟨rfl, fun _ => mem_insertUse_of_mem, entry, inside, isFree, ?_⟩
  show (item, entry.1) ∈ insertUse pool.heapInUse (item, entry.1)
  rw [inserted]
  exact List.mem_cons_self

theorem Sound.kept_of_take (sound : pool.Sound itemAt allocSize stack)
    (taken : pool.take iteration = some (item, next)) :
    next.chunks = pool.chunks ∧ ∀ use ∈ pool.heapInUse, use ∈ next.heapInUse := by
  unfold Pool.take at taken
  rcases Option.or_eq_some_iff.mp taken with onStack | ⟨_, onHeap⟩
  · unfold Pool.takeStack at onStack
    split at onStack
    case h_1 => cases onStack
    case h_2 =>
      cases onStack
      exact ⟨rfl, fun _ => id⟩
  · obtain ⟨same, kept, _⟩ := sound.used_of_takeHeap onHeap
    exact ⟨same, kept⟩

/-- **`take` finds nothing only when nothing is available.** -/
theorem available_of_take (taken : pool.take iteration = none) : pool.available = [] := by
  obtain ⟨first, second⟩ := Option.or_eq_none_iff.mp taken
  have onHeap : ∀ entry ∈ pool.heapAvail, entry.2 = [] := by
    intro entry inside
    by_contra nonempty
    have found : (pool.takeHeap iteration).isSome = true := takeHeap_isSome inside nonempty
    rw [second] at found
    cases found
  unfold available
  rw [stackAvail_of_takeStack first, List.nil_append]
  exact List.flatMap_eq_nil_iff.mpr onHeap

/-- **A chunk comes only when every slot is in use**, and the item that is handed out is one of it. -/
theorem Fits.allocate (fits : pool.Fits itemAt allocSize stack most) (positive : 0 < allocSize)
    (bounded : pool.inUse.length ≤ most) {chunk : Pointer}
    (fresh : (pool.take iteration).isNone → pool.Fresh itemAt allocSize stack chunk)
    (allocated : pool.allocate itemAt allocSize iteration chunk = some (item, next)) :
    next.Fits itemAt allocSize stack most := by
  have sound := (fits.sound.allocate positive fresh allocated).sound
  unfold Pool.allocate at allocated
  rcases Option.or_eq_some_iff.mp allocated with taken | ⟨empty, taken⟩
  · obtain ⟨same, kept⟩ := fits.sound.kept_of_take taken
    refine ⟨sound, fun live isLive => ?_, same ▸ fits.small⟩
    obtain ⟨one, isUsed⟩ := fits.tight live (same ▸ isLive)
    exact ⟨one, kept _ isUsed⟩
  · have isFresh := fresh (by rw [empty]; rfl)
    have grown := fits.sound.grow positive isFresh
    obtain ⟨noStack, noHeap⟩ := Option.or_eq_none_iff.mp empty
    have nothing := available_of_take empty
    have onHeap : (pool.grow itemAt allocSize chunk).takeHeap iteration = some (item, next) := by
      have notStack : (pool.grow itemAt allocSize chunk).takeStack = none := by
        unfold Pool.takeStack
        have isEmpty : pool.stackAvail = [] := stackAvail_of_takeStack noStack
        rw [show (pool.grow itemAt allocSize chunk).stackAvail = [] from isEmpty]
        rfl
      unfold Pool.take at taken
      rwa [notStack, Option.none_or] at taken
    obtain ⟨same, kept, entry, inside, isFree, isUsed⟩ := grown.used_of_takeHeap onHeap
    have chunks : next.chunks = pool.chunks ++ [chunk] := same
    refine ⟨sound, fun live isLive => ?_, ?_⟩
    · rw [chunks] at isLive
      rcases List.mem_append.mp isLive with isOld | isLast
      · obtain ⟨one, wasUsed⟩ := fits.tight live isOld
        exact ⟨one, kept _ wasUsed⟩
      · obtain rfl := List.mem_singleton.mp isLast
        -- The other chunks have nothing available: the item is one of the new chunk.
        have isNew : entry.1 = live := by
          have inserted : (pool.grow itemAt allocSize live).heapAvail =
              pool.heapAvail ++ [(live, block itemAt allocSize live)] :=
            if_neg (fits.sound.keys ▸ isFresh.notMem positive)
          rw [inserted] at inside
          rcases List.mem_append.mp inside with isOld | isLast
          · have isAvailable : item ∈ pool.available :=
              List.mem_append_right _ (List.mem_flatMap.mpr ⟨entry, isOld, isFree⟩)
            rw [nothing] at isAvailable
            cases isAvailable
          · exact congrArg Prod.fst (List.mem_singleton.mp isLast)
        exact ⟨item, isNew ▸ isUsed⟩
    · have allUsed := fits.sound.divided.length
      rw [nothing, length_slots, List.length_nil, Nat.zero_add] at allUsed
      rw [chunks, List.length_append, List.length_singleton, Nat.mul_succ, ← allUsed]
      exact bounded

/-! ### `deallocate` -/

/-- A chunk with an item in use other than the one that comes back. -/
theorem used_of_ne {use : Pointer × Pointer} (tight : pool.Tight) {chunk : Pointer}
    (isLive : chunk ∈ pool.chunks) (apart : chunk ≠ use.2) :
    ∃ item, (item, chunk) ∈ pool.heapInUse.erase use := by
  obtain ⟨item, isUsed⟩ := tight chunk isLive
  have differs : (item, chunk) ≠ use := fun same => apart (congrArg Prod.snd same)
  exact ⟨item, (List.mem_erase_of_ne differs).mpr isUsed⟩

/-- **A chunk that stays has an item in use.** -/
theorem Fits.releaseHeap (fits : pool.Fits itemAt allocSize stack most) {use : Pointer × Pointer}
    (isUsed : use ∈ pool.heapInUse) :
    (pool.releaseHeap allocSize use.1 use.2).Fits itemAt allocSize stack most := by
  have sound := (fits.sound.releaseHeap isUsed).sound
  have isKey : use.2 ∈ pool.heapAvail.map Prod.fst := fits.sound.keys ▸ fits.sound.owned use isUsed
  have pushed : pushBack pool.heapAvail use.2 use.1 =
      modify pool.heapAvail use.2 (· ++ [use.1]) := if_pos isKey
  have given := fits.sound.giveBack isUsed
  unfold Pool.releaseHeap at sound ⊢
  simp only [pushed] at sound ⊢
  split
  case isTrue full =>
    rw [if_pos full] at sound
    refine ⟨sound, fun chunk isLive => ?_, le_trans ?_ fits.small⟩
    · obtain ⟨wasLive, apart⟩ := List.mem_filter.mp isLive
      exact used_of_ne fits.tight wasLive (of_decide_eq_true apart)
    · exact Nat.mul_le_mul_left _ (List.length_filter_le _ _)
  case isFalse left =>
    refine ⟨given, fun chunk isLive => ?_, fits.small⟩
    by_cases same : chunk = use.2
    · subst same
      -- Its vector is not as long as the chunk: what is missing there is in use.
      obtain ⟨entry, inside, isChunk⟩ := List.mem_map.mp (given.keys ▸ isLive)
      rw [lookup_of_mem given.keysDistinct inside isChunk] at left
      have whole := (given.heap entry inside).length
      rw [length_block] at whole
      have some : 0 < (({ pool with
          heapAvail := modify pool.heapAvail use.2 (· ++ [use.1])
          heapInUse := pool.heapInUse.erase use } : Pool Pointer).usedIn entry.1).length := by
        have short : entry.2.length ≠ allocSize := left
        omega
      obtain ⟨item, isItem⟩ := List.exists_mem_of_length_pos some
      obtain ⟨⟨other, base⟩, isOther, rfl⟩ := List.mem_map.mp isItem
      obtain ⟨stillUsed, ofChunk⟩ := List.mem_filter.mp isOther
      obtain rfl : base = use.2 := (of_decide_eq_true ofChunk).trans isChunk
      exact ⟨other, stillUsed⟩
    · exact used_of_ne fits.tight isLive same

theorem Fits.deallocate (fits : pool.Fits itemAt allocSize stack most) (item : Pointer) :
    (pool.deallocate allocSize item).Fits itemAt allocSize stack most := by
  have sound := (fits.sound.deallocate item).sound
  unfold Pool.deallocate at sound ⊢
  by_cases isStack : item ∈ pool.stackInUse
  · rw [if_pos isStack] at sound ⊢
    exact ⟨sound, fits.tight, fits.small⟩
  · rw [if_neg isStack]
    cases found : pool.heapInUse.find? fun use => use.1 = item with
    | some use => exact fits.releaseHeap (List.mem_of_find?_eq_some found)
    | none => exact fits

/-! ### What is in use -/

theorem inUse_of_take (taken : pool.take iteration = some (item, next)) {other : Pointer}
    (isUsed : other ∈ next.inUse) : other = item ∨ other ∈ pool.inUse := by
  unfold Pool.take at taken
  rcases Option.or_eq_some_iff.mp taken with onStack | ⟨_, onHeap⟩
  · unfold Pool.takeStack at onStack
    split at onStack
    case h_1 => cases onStack
    case h_2 =>
      cases onStack
      rcases List.mem_append.mp isUsed with isStack | isHeap
      · exact (List.mem_insert_iff.mp isStack).imp_right (List.mem_append_left _)
      · exact .inr (List.mem_append_right _ isHeap)
  · obtain ⟨entry, _, rest⟩ := Option.bind_eq_some_iff.mp onHeap
    obtain ⟨lastItem, _, same⟩ := Option.bind_eq_some_iff.mp rest
    cases same
    rcases List.mem_append.mp isUsed with isStack | isHeap
    · exact .inr (List.mem_append_left _ isStack)
    · unfold insertUse at isHeap
      split at isHeap
      · exact .inr (List.mem_append_right _ isHeap)
      · exact (List.mem_cons.mp isHeap).imp_right (List.mem_append_right _)

/-- **`allocate` puts its item in use**, and no other. -/
theorem Sound.inUse_allocate_iff (sound : pool.Sound itemAt allocSize stack)
    (positive : 0 < allocSize) {chunk : Pointer}
    (fresh : (pool.take iteration).isNone → pool.Fresh itemAt allocSize stack chunk)
    (allocated : pool.allocate itemAt allocSize iteration chunk = some (item, next))
    (other : Pointer) : other ∈ next.inUse ↔ other = item ∨ other ∈ pool.inUse := by
  constructor
  · intro isUsed
    unfold Pool.allocate at allocated
    rcases Option.or_eq_some_iff.mp allocated with taken | ⟨_, taken⟩
    · exact inUse_of_take taken isUsed
    · exact (inUse_of_take taken isUsed).imp_right id
  · rintro (rfl | isUsed)
    · exact (sound.allocate positive fresh allocated).used
    · exact mem_inUse_of_allocate allocated isUsed

theorem Sound.nodup_inUse (sound : pool.Sound itemAt allocSize stack) : pool.inUse.Nodup :=
  (List.nodup_append'.mp (sound.divided.whole.nodup_iff.mpr sound.divided.distinct)).2.1

theorem Sound.perm_inUse_allocate (sound : pool.Sound itemAt allocSize stack)
    (positive : 0 < allocSize) {chunk : Pointer}
    (fresh : (pool.take iteration).isNone → pool.Fresh itemAt allocSize stack chunk)
    (allocated : pool.allocate itemAt allocSize iteration chunk = some (item, next)) :
    next.inUse.Perm (item :: pool.inUse) := by
  have hands := sound.allocate positive fresh allocated
  refine (List.perm_ext_iff_of_nodup hands.sound.nodup_inUse
    (List.nodup_cons.mpr ⟨hands.unused, sound.nodup_inUse⟩)).mpr fun other => ?_
  rw [sound.inUse_allocate_iff positive fresh allocated, List.mem_cons]

/-- **`deallocate` takes its item out of use**, and no other. -/
theorem Sound.inUse_deallocate_iff (sound : pool.Sound itemAt allocSize stack)
    (item other : Pointer) :
    other ∈ (pool.deallocate allocSize item).inUse ↔ other ≠ item ∧ other ∈ pool.inUse := by
  refine ⟨fun isUsed => ?_, fun ⟨apart, isUsed⟩ => mem_inUse_deallocate apart isUsed⟩
  obtain ⟨onStack, onHeap, disjoint⟩ := List.nodup_append'.mp sound.nodup_inUse
  unfold Pool.deallocate at isUsed
  by_cases isStack : item ∈ pool.stackInUse
  · rw [if_pos isStack] at isUsed
    rcases List.mem_append.mp isUsed with isLeft | isRight
    · obtain ⟨apart, wasUsed⟩ := onStack.mem_erase_iff.mp isLeft
      exact ⟨apart, List.mem_append_left _ wasUsed⟩
    · exact ⟨fun same => disjoint isStack (same ▸ isRight), List.mem_append_right _ isRight⟩
  · rw [if_neg isStack] at isUsed
    cases found : pool.heapInUse.find? fun use => use.1 = item with
    | some use =>
      rw [found] at isUsed
      change other ∈ (pool.releaseHeap allocSize use.1 use.2).inUse at isUsed
      rw [inUse_releaseHeap] at isUsed
      have isItem : use.1 = item := by simpa using List.find?_some found
      have split := (List.perm_cons_erase (List.mem_of_find?_eq_some found)).map Prod.fst
      have isGone := (List.nodup_cons.mp (split.nodup_iff.mp onHeap)).1
      rcases List.mem_append.mp isUsed with isLeft | isRight
      · exact ⟨fun same => isStack (same ▸ isLeft), List.mem_append_left _ isLeft⟩
      · refine ⟨fun same => isGone (isItem ▸ same ▸ isRight), List.mem_append_right _ ?_⟩
        exact split.mem_iff.mpr (List.mem_cons_of_mem _ isRight)
    | none =>
      rw [found] at isUsed
      refine ⟨?_, isUsed⟩
      rintro rfl
      rcases List.mem_append.mp isUsed with isLeft | isRight
      · exact isStack isLeft
      · obtain ⟨use, inside, same⟩ := List.mem_map.mp isRight
        exact List.find?_eq_none.mp found use inside (decide_eq_true same)

theorem Sound.perm_inUse_deallocate (sound : pool.Sound itemAt allocSize stack)
    (isUsed : item ∈ pool.inUse) :
    pool.inUse.Perm (item :: (pool.deallocate allocSize item).inUse) := by
  have uses := sound.inUse_deallocate_iff item
  refine (List.perm_ext_iff_of_nodup sound.nodup_inUse (List.nodup_cons.mpr
    ⟨fun inside => ((uses item).mp inside).1 rfl,
      (sound.deallocate item).sound.nodup_inUse⟩)).mpr fun other => ?_
  rw [List.mem_cons, uses]
  by_cases same : other = item
  · exact iff_of_true (same ▸ isUsed) (.inl same)
  · exact ⟨fun inside => .inr ⟨same, inside⟩, fun told => (told.resolve_left same).2⟩

/-! ### Whole runs -/

theorem Fits.step (positive : 0 < allocSize) (pool : Pool Pointer) (event : PoolEvent Pointer)
    (next : Pool Pointer) (fits : pool.Fits itemAt allocSize stack most)
    (bounded : pool.inUse.length ≤ most)
    (stepped : Pool.step itemAt allocSize stack pool event = some next) :
    next.Fits itemAt allocSize stack most := by
  cases event with
  | allocate iteration chunk =>
    obtain ⟨fresh, stepped⟩ := Option.ite_none_right_eq_some.mp stepped
    obtain ⟨⟨item, pool⟩, allocated, rfl⟩ := Option.map_eq_some_iff.mp stepped
    exact fits.allocate positive bounded fresh allocated
  | deallocate item =>
    cases stepped
    exact fits.deallocate item

/-- **What a pool holds**, after any calls in which no more than `most` items were in use at once:
every live chunk has an item in use, all slots together are no more than `most` and one array, and
the destructor returns every live chunk, and once. -/
theorem run_fits (positive : 0 < allocSize) (distinct : (block itemAt allocSize stack).Nodup)
    {events : List (PoolEvent Pointer)}
    (bounded : Throughout (Pool.step itemAt allocSize stack) (fun pool => pool.inUse.length ≤ most)
      (create itemAt allocSize stack) events)
    (ran : run (Pool.step itemAt allocSize stack) (create itemAt allocSize stack) events = some pool) :
    (∀ chunk ∈ pool.chunks, ∃ item, (item, chunk) ∈ pool.heapInUse) ∧
    pool.chunks.length ≤ pool.heapInUse.length ∧
    (pool.slots itemAt allocSize stack).length ≤ most + allocSize ∧
    ∀ iteration, (pool.destroy iteration).Perm pool.chunks := by
  have start : Fits itemAt allocSize stack most (create itemAt allocSize stack) :=
    ⟨sound_create distinct, fun _ isLive => absurd isLive List.not_mem_nil, Nat.zero_le _⟩
  have fits : pool.Fits itemAt allocSize stack most :=
    run_invariant (Fits itemAt allocSize stack most) (Fits.step positive) start bounded.along ran
  refine ⟨fits.tight, fits.tight.length_chunks fits.sound.apart, ?_, fun iteration => ?_⟩
  · rw [length_slots]
    exact Nat.add_le_add_right fits.small allocSize
  · rw [← fits.sound.keys]
    exact (iteration.perm pool.heapAvail).map Prod.fst

end Footprint

/-- The calls: a third item needs a chunk, and an item of the array comes back. -/
def thirdItem : List (PoolEvent Nat) :=
  [.allocate inOrder 10, .allocate inOrder 10, .allocate inOrder 10, .deallocate 1]

/-- The chunk stays as long as one of its items is in use. -/
theorem run_fits_third : ∃ pool,
    run (Pool.step (· + ·) 2 0) (create (· + ·) 2 0) thirdItem = some pool ∧ pool.chunks = [10] ∧
      (pool.slots (· + ·) 2 0).length ≤ 3 + 2 ∧ ∀ iteration, (pool.destroy iteration).Perm [10] := by
  have ran : run (Pool.step (· + ·) 2 0) (create (· + ·) 2 0) thirdItem =
      some ⟨[1], [0], [(10, [10])], [(11, 10)], [10]⟩ := by decide
  have bounded : Throughout (Pool.step (· + ·) 2 0) (fun pool => pool.inUse.length ≤ 3)
      (create (· + ·) 2 0) thirdItem := by decide
  have fits := run_fits (by decide) (by decide) bounded ran
  exact ⟨_, ran, rfl, fits.2.2.1, fits.2.2.2⟩

end Pool

end GemCaps
