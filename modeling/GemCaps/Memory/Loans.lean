/-
**The pool never lends what a borrower still has.**

Several parts of the program take items from one pool and give them back. As long as nobody gives back
what another one has, what `allocate` returns is not out with anyone (`Pool.run_lends`): this is what
`WritingClient` takes for granted of the two pools of `_send`.
-/

import GemCaps.Library.Lending
import GemCaps.Memory.Ownership

namespace GemCaps

open Transition Lending

namespace Pool

section Frames

variable {Pointer : Type} [DecidableEq Pointer] {itemAt : Pointer → Nat → Pointer} {allocSize : Nat}
  {pool next : Pool Pointer} {item other : Pointer}

theorem mem_inUse_of_takeStack (taken : pool.takeStack = some (item, next))
    (isUsed : other ∈ pool.inUse) : other ∈ next.inUse := by
  unfold Pool.takeStack at taken
  cases last : pool.stackAvail.getLast? with
  | none =>
    rw [last] at taken
    cases taken
  | some lastItem =>
    rw [last] at taken
    cases taken
    rcases List.mem_append.mp isUsed with onStack | onHeap
    · exact List.mem_append_left _ (List.mem_insert_of_mem onStack)
    · exact List.mem_append_right _ onHeap

theorem mem_insertUse {uses : List (Pointer × Pointer)} {use : Pointer × Pointer}
    (isUsed : other ∈ uses.map Prod.fst) : other ∈ (insertUse uses use).map Prod.fst := by
  unfold insertUse
  split
  · exact isUsed
  · exact List.mem_cons_of_mem _ isUsed

theorem mem_inUse_of_takeHeap {iteration : Iteration (Pointer × List Pointer)}
    (taken : pool.takeHeap iteration = some (item, next)) (isUsed : other ∈ pool.inUse) :
    other ∈ next.inUse := by
  obtain ⟨entry, _, rest⟩ := Option.bind_eq_some_iff.mp taken
  obtain ⟨lastItem, _, same⟩ := Option.bind_eq_some_iff.mp rest
  cases same
  rcases List.mem_append.mp isUsed with onStack | onHeap
  · exact List.mem_append_left _ onStack
  · exact List.mem_append_right _ (mem_insertUse onHeap)

theorem mem_inUse_of_take {iteration : Iteration (Pointer × List Pointer)}
    (taken : pool.take iteration = some (item, next)) (isUsed : other ∈ pool.inUse) :
    other ∈ next.inUse := by
  unfold Pool.take at taken
  cases first : pool.takeStack with
  | some both =>
    rw [first, Option.some_or] at taken
    exact mem_inUse_of_takeStack (first.trans taken) isUsed
  | none =>
    rw [first, Option.none_or] at taken
    exact mem_inUse_of_takeHeap taken isUsed

/-- **`allocate` takes nothing away.** -/
theorem mem_inUse_of_allocate {iteration : Iteration (Pointer × List Pointer)} {chunk : Pointer}
    (allocated : pool.allocate itemAt allocSize iteration chunk = some (item, next))
    (isUsed : other ∈ pool.inUse) : other ∈ next.inUse := by
  unfold Pool.allocate at allocated
  cases first : pool.take iteration with
  | some both =>
    rw [first, Option.some_or] at allocated
    exact mem_inUse_of_take (first.trans allocated) isUsed
  | none =>
    rw [first, Option.none_or] at allocated
    exact mem_inUse_of_take allocated isUsed

theorem inUse_releaseHeap (use : Pointer × Pointer) :
    (pool.releaseHeap allocSize use.1 use.2).inUse =
      pool.stackInUse ++ (pool.heapInUse.erase use).map Prod.fst := by
  unfold Pool.releaseHeap
  dsimp only
  split <;> rfl

/-- **`deallocate` takes nothing but its item.** -/
theorem mem_inUse_deallocate (apart : other ≠ item) (isUsed : other ∈ pool.inUse) :
    other ∈ (pool.deallocate allocSize item).inUse := by
  unfold Pool.deallocate
  by_cases isStack : item ∈ pool.stackInUse
  · rw [if_pos isStack]
    rcases List.mem_append.mp isUsed with onStack | onHeap
    · exact List.mem_append_left _ ((List.mem_erase_of_ne apart).mpr onStack)
    · exact List.mem_append_right _ onHeap
  · rw [if_neg isStack]
    cases found : pool.heapInUse.find? fun use => use.1 = item with
    | none => exact isUsed
    | some use =>
      have isItem : use.1 = item := by simpa using List.find?_some found
      show other ∈ (pool.releaseHeap allocSize use.1 use.2).inUse
      rw [inUse_releaseHeap]
      rcases List.mem_append.mp isUsed with onStack | onHeap
      · exact List.mem_append_left _ onStack
      · obtain ⟨entry, inside, rfl⟩ := List.mem_map.mp onHeap
        have differs : entry ≠ use := fun same => apart ((congrArg Prod.fst same).trans isItem)
        exact List.mem_append_right _ (List.mem_map_of_mem ((List.mem_erase_of_ne differs).mpr inside))

end Frames

section Borrowers

variable {Pointer Borrower : Type} [DecidableEq Pointer] [DecidableEq Borrower]
  (itemAt : Pointer → Nat → Pointer) (allocSize : Nat) (stack : Pointer)

/-- A pool, and the calls that its borrowers have made. -/
structure Lent (Pointer Borrower : Type) where
  pool : Pool Pointer
  calls : List (Borrower × Call Pointer) := []

/-- One call of a borrower, with the items it lends or gives back. -/
def Lent.step (lent : Lent Pointer Borrower) (event : Borrower × PoolEvent Pointer) :
    Option (Lent Pointer Borrower) :=
  match event.2 with
  | .allocate iteration chunk =>
    if (lent.pool.take iteration).isNone → lent.pool.Fresh itemAt allocSize stack chunk then
      (lent.pool.allocate itemAt allocSize iteration chunk).map fun both =>
        ⟨both.2, lent.calls ++ [(event.1, .lend both.1)]⟩
    else none
  | .deallocate item =>
    some ⟨lent.pool.deallocate allocSize item, lent.calls ++ [(event.1, .giveBack item)]⟩

/-- Nobody gives back what another borrower has. -/
def Lent.Honest (lent : Lent Pointer Borrower) (event : Borrower × PoolEvent Pointer) : Prop :=
  match event.2 with
  | .allocate _ _ => True
  | .deallocate item => ∀ other, other ≠ event.1 → ¬ Out (callsOf other lent.calls) item

/-- The pool knows of all that is out. -/
structure Lent.Known (lent : Lent Pointer Borrower) : Prop where
  sound : lent.pool.Sound itemAt allocSize stack
  known : ∀ borrower item, Out (callsOf borrower lent.calls) item → item ∈ lent.pool.inUse

variable {itemAt allocSize stack}

theorem Lent.Known.step (positive : 0 < allocSize) (lent : Lent Pointer Borrower)
    (event : Borrower × PoolEvent Pointer) (next : Lent Pointer Borrower)
    (known : lent.Known itemAt allocSize stack) (honest : lent.Honest event)
    (stepped : lent.step itemAt allocSize stack event = some next) :
    next.Known itemAt allocSize stack := by
  obtain ⟨borrower, event⟩ := event
  cases event with
  | allocate iteration chunk =>
    obtain ⟨fresh, stepped⟩ := Option.ite_none_right_eq_some.mp stepped
    obtain ⟨⟨item, pool⟩, allocated, rfl⟩ := Option.map_eq_some_iff.mp stepped
    have hands := known.sound.allocate positive fresh allocated
    refine ⟨hands.sound, fun other slot isOut => ?_⟩
    rw [callsOf_concat] at isOut
    split at isOut
    · rcases out_concat_lend.mp isOut with rfl | old
      · exact hands.used
      · exact mem_inUse_of_allocate allocated (known.known other slot old)
    · exact mem_inUse_of_allocate allocated (known.known other slot isOut)
  | deallocate item =>
    cases stepped
    refine ⟨(known.sound.deallocate item).sound, fun other slot isOut => ?_⟩
    rw [callsOf_concat] at isOut
    split at isOut
    · obtain ⟨apart, old⟩ := out_concat_giveBack.mp isOut
      exact mem_inUse_deallocate (Ne.symm apart) (known.known other slot old)
    · next differs =>
      have apart : slot ≠ item := by
        rintro rfl
        exact honest other (Ne.symm differs) isOut
      exact mem_inUse_deallocate apart (known.known other slot isOut)

/-- **What `allocate` returns is not out with anyone**, after any calls in which nobody gave back what
another borrower had. -/
theorem run_lends (positive : 0 < allocSize) (distinct : (block itemAt allocSize stack).Nodup)
    {events : List (Borrower × PoolEvent Pointer)} {lent : Lent Pointer Borrower}
    (honest : Along (Lent.step itemAt allocSize stack) Lent.Honest
      ⟨create itemAt allocSize stack, []⟩ events)
    (ran : run (Lent.step itemAt allocSize stack) ⟨create itemAt allocSize stack, []⟩ events =
      some lent)
    {iteration : Iteration (Pointer × List Pointer)} {chunk item : Pointer} {next : Pool Pointer}
    (fresh : (lent.pool.take iteration).isNone → lent.pool.Fresh itemAt allocSize stack chunk)
    (allocated : lent.pool.allocate itemAt allocSize iteration chunk = some (item, next))
    (borrower : Borrower) : ¬ Out (callsOf borrower lent.calls) item := by
  have start : Lent.Known itemAt allocSize stack
      (⟨create itemAt allocSize stack, []⟩ : Lent Pointer Borrower) :=
    ⟨sound_create distinct, fun _ _ isOut => by cases isOut⟩
  have known := run_invariant (Lent.Known itemAt allocSize stack) (Lent.Known.step positive) start
    honest ran
  intro isOut
  exact (known.sound.allocate positive fresh allocated).unused (known.known borrower item isOut)

end Borrowers

end Pool

end GemCaps
