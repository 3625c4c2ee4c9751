/-
**The pool never hands an item out twice.**

`Pool.Sound` follows the collections of the pool: the built-in array and every live chunk are divided
into the items that are available and those in use (`Ledger.Divided`), and together they divide all
slots (`Sound.divided`). One lemma for each part of `allocate` and `deallocate` says that it keeps the
division; the run rule and the division then give `Pool.run_ownedOnce`.
-/

import GemCaps.Memory.ReusableAllocator
import Mathlib.Data.List.Flatten

namespace GemCaps

open Transition Ledger

namespace Pool

section Entries

variable {Pointer : Type} [DecidableEq Pointer] {entries : List (Pointer × List Pointer)}
  {base : Pointer} {change : List Pointer → List Pointer}

theorem keys_modify : (modify entries base change).map Prod.fst = entries.map Prod.fst := by
  unfold modify
  rw [List.map_map]
  refine List.map_congr_left fun entry _ => ?_
  show (if entry.1 = base then (entry.1, change entry.2) else entry).1 = entry.1
  split <;> rfl

/-- The entries after a change: the one of the chunk is changed, the others are as they were. -/
theorem mem_modify (distinct : (entries.map Prod.fst).Nodup) {entry : Pointer × List Pointer}
    (inside : entry ∈ entries) {other : Pointer × List Pointer}
    (isOther : other ∈ modify entries entry.1 change) :
    other = (entry.1, change entry.2) ∨ other ∈ entries ∧ other.1 ≠ entry.1 := by
  obtain ⟨old, isOld, rfl⟩ := List.mem_map.mp isOther
  by_cases same : old.1 = entry.1
  · left
    have isEntry : old = entry := List.inj_on_of_nodup_map distinct isOld inside same
    rw [if_pos same, isEntry]
  · right
    rw [if_neg same]
    exact ⟨isOld, same⟩

theorem lookup_of_mem (distinct : (entries.map Prod.fst).Nodup) {entry : Pointer × List Pointer}
    (inside : entry ∈ entries) (isBase : entry.1 = base) : entries.lookup base = some entry.2 := by
  subst isBase
  obtain ⟨before, after, rfl⟩ := List.append_of_mem inside
  refine List.lookup_eq_some_iff.mpr ⟨before, after, rfl, fun other isBefore => ?_⟩
  rw [List.map_append, List.nodup_append'] at distinct
  have apart := distinct.2.2 (List.mem_map_of_mem isBefore)
  rw [bne_iff_ne]
  intro same
  exact apart (same ▸ List.mem_cons_self)

end Entries

section Invariant

variable {Pointer : Type} [DecidableEq Pointer] (itemAt : Pointer → Nat → Pointer) (allocSize : Nat)
  (stack : Pointer)

/-- The built-in array and every live chunk are divided into available items and items in use. -/
structure Sound (pool : Pool Pointer) : Prop where
  distinct : (pool.slots itemAt allocSize stack).Nodup
  apart : pool.chunks.Nodup
  keys : pool.heapAvail.map Prod.fst = pool.chunks
  stack : Divided (block itemAt allocSize stack) pool.stackAvail pool.stackInUse
  heap : ∀ entry ∈ pool.heapAvail,
    Divided (block itemAt allocSize entry.1) entry.2 (pool.usedIn entry.1)
  owned : ∀ use ∈ pool.heapInUse, use.2 ∈ pool.chunks

/-- What `allocate` gives: an item that was not in use and now is. -/
structure Hands (pool next : Pool Pointer) (item : Pointer) : Prop where
  sound : next.Sound itemAt allocSize stack
  unused : item ∉ pool.inUse
  used : item ∈ next.inUse
  preferred : pool.stackAvail ≠ [] → item ∈ block itemAt allocSize stack
  chunks : ∀ chunk ∈ pool.chunks, chunk ∈ next.chunks

/-- What `deallocate` gives: a chunk that is no longer live has no item in use. -/
structure Releases (pool next : Pool Pointer) : Prop where
  sound : next.Sound itemAt allocSize stack
  unused : ∀ chunk ∈ pool.chunks, chunk ∉ next.chunks →
    ∀ slot ∈ block itemAt allocSize chunk, slot ∉ next.inUse

variable {itemAt allocSize stack} {pool next : Pool Pointer} {item : Pointer}

theorem sound_create (distinct : (block itemAt allocSize stack).Nodup) :
    Sound itemAt allocSize stack (create itemAt allocSize stack) where
  distinct := by
    show (block itemAt allocSize stack ++ []).Nodup
    rwa [List.append_nil]
  apart := List.nodup_nil
  keys := rfl
  stack := divided_free distinct
  heap := fun _ inside => absurd inside List.not_mem_nil
  owned := fun _ inside => absurd inside List.not_mem_nil

namespace Sound

theorem keysDistinct (sound : pool.Sound itemAt allocSize stack) :
    (pool.heapAvail.map Prod.fst).Nodup := sound.keys ▸ sound.apart

/-- The slots of the chunks, chunk by chunk. -/
theorem flatMap_block (sound : pool.Sound itemAt allocSize stack) :
    pool.chunks.flatMap (block itemAt allocSize) =
      pool.heapAvail.flatMap fun entry => block itemAt allocSize entry.1 := by
  rw [← sound.keys, List.flatMap_map]

/-- The items in use on the heap, chunk by chunk. -/
theorem flatMap_usedIn (sound : pool.Sound itemAt allocSize stack) :
    (pool.heapAvail.flatMap fun entry => pool.usedIn entry.1).Perm
      (pool.heapInUse.map Prod.fst) := by
  have sorted := perm_flatMap_filter Prod.snd sound.apart sound.owned
  have mapped := sorted.map Prod.fst
  rw [List.map_flatMap, ← sound.keys, List.flatMap_map] at mapped
  exact mapped

/-- **Every slot is available or in use, and once.** -/
theorem divided (sound : pool.Sound itemAt allocSize stack) :
    Divided (pool.slots itemAt allocSize stack) pool.available pool.inUse := by
  have distinct := sound.distinct
  unfold slots at distinct ⊢
  rw [sound.flatMap_block] at distinct ⊢
  have chunks := (divided_flatMap sound.heap (List.nodup_append'.mp distinct).2.1).congr
    sound.flatMap_usedIn
  exact sound.stack.append chunks distinct

/-- An item of a chunk that is available is in use nowhere. -/
theorem notMem_inUse (sound : pool.Sound itemAt allocSize stack)
    {entry : Pointer × List Pointer} (inside : entry ∈ pool.heapAvail) (isFree : item ∈ entry.2) :
    item ∉ pool.inUse :=
  sound.divided.notMem_used
    (List.mem_append_right _ (List.mem_flatMap.mpr ⟨entry, inside, isFree⟩))

end Sound

/-! ### `allocate` -/

/-- **An item of the built-in array.** -/
theorem Sound.takeStack (sound : pool.Sound itemAt allocSize stack)
    (taken : pool.takeStack = some (item, next)) :
    pool.Hands itemAt allocSize stack next item := by
  unfold Pool.takeStack at taken
  cases last : pool.stackAvail.getLast? with
  | none =>
    rw [last] at taken
    cases taken
  | some lastItem =>
    rw [last] at taken
    cases taken
    have split : pool.stackAvail = pool.stackAvail.dropLast ++ [item] :=
      (List.dropLast_append_getLast? item last).symm
    have isFree : item ∈ pool.stackAvail := List.mem_of_getLast? last
    have unused : item ∉ pool.inUse :=
      sound.divided.notMem_used (List.mem_append_left _ isFree)
    have inserted : pool.stackInUse.insert item = item :: pool.stackInUse :=
      List.insert_of_not_mem fun isUsed => unused (List.mem_append_left _ isUsed)
    have divided : Divided (block itemAt allocSize stack) pool.stackAvail.dropLast
        (pool.stackInUse.insert item) := by
      rw [inserted]
      exact (split ▸ sound.stack).take
    refine ⟨⟨sound.distinct, sound.apart, sound.keys, divided, sound.heap, sound.owned⟩, unused, ?_,
      fun _ => sound.stack.mem_iff.mpr (.inl isFree), fun _ => id⟩
    exact List.mem_append_left _ (List.mem_insert_self)

/-- **An item of a chunk.** -/
theorem Sound.takeHeap (sound : pool.Sound itemAt allocSize stack)
    {iteration : Iteration (Pointer × List Pointer)} (empty : pool.stackAvail = [])
    (taken : pool.takeHeap iteration = some (item, next)) :
    pool.Hands itemAt allocSize stack next item := by
  obtain ⟨entry, found, rest⟩ := Option.bind_eq_some_iff.mp taken
  obtain ⟨lastItem, last, same⟩ := Option.bind_eq_some_iff.mp rest
  cases same
  have inside : entry ∈ pool.heapAvail := (iteration.perm _).mem_iff.mp (List.mem_of_find?_eq_some found)
  have split : entry.2 = entry.2.dropLast ++ [item] := (List.dropLast_append_getLast? item last).symm
  have unused : item ∉ pool.inUse := sound.notMem_inUse inside (List.mem_of_getLast? last)
  have inserted : insertUse pool.heapInUse (item, entry.1) = (item, entry.1) :: pool.heapInUse :=
    if_neg fun isUsed => unused (List.mem_append_right _ isUsed)
  have keys : (modify pool.heapAvail entry.1 List.dropLast).map Prod.fst = pool.chunks :=
    keys_modify.trans sound.keys
  refine ⟨⟨sound.distinct, sound.apart, keys, sound.stack, ?_, ?_⟩, unused, ?_,
    fun some => absurd empty some, fun _ => id⟩
  · intro other isOther
    show Divided _ other.2 (((insertUse pool.heapInUse (item, entry.1)).filter _).map Prod.fst)
    rw [inserted]
    rcases mem_modify sound.keysDistinct inside isOther with rfl | ⟨isOld, apart⟩
    · rw [List.filter_cons_of_pos (by simp)]
      have divided := sound.heap entry inside
      rw [split] at divided
      exact divided.take
    · rw [List.filter_cons_of_neg (by simpa using fun same => apart same.symm)]
      exact sound.heap other isOld
  · intro use isUse
    rw [show _ = _ from inserted] at isUse
    rcases List.mem_cons.mp isUse with rfl | isOld
    · exact sound.keys ▸ List.mem_map_of_mem inside
    · exact sound.owned use isOld
  · refine List.mem_append_right _ ?_
    show item ∈ (insertUse pool.heapInUse (item, entry.1)).map Prod.fst
    rw [inserted]
    exact List.mem_cons_self

theorem stackAvail_of_takeStack (none : pool.takeStack = none) : pool.stackAvail = [] := by
  unfold Pool.takeStack at none
  cases last : pool.stackAvail.getLast? with
  | none => exact List.getLast?_eq_none_iff.mp last
  | some lastItem =>
    rw [last] at none
    cases none

theorem Sound.take (sound : pool.Sound itemAt allocSize stack)
    {iteration : Iteration (Pointer × List Pointer)}
    (taken : pool.take iteration = some (item, next)) :
    pool.Hands itemAt allocSize stack next item := by
  unfold Pool.take at taken
  cases first : pool.takeStack with
  | some both =>
    rw [first, Option.some_or] at taken
    exact sound.takeStack (first.trans taken)
  | none =>
    rw [first, Option.none_or] at taken
    exact sound.takeHeap (stackAvail_of_takeStack first) taken

omit [DecidableEq Pointer] in
/-- A chunk that is fresh is not a live one. -/
theorem Fresh.notMem {chunk : Pointer} (positive : 0 < allocSize)
    (fresh : pool.Fresh itemAt allocSize stack chunk) : chunk ∉ pool.chunks := by
  intro isLive
  have first : itemAt chunk 0 ∈ block itemAt allocSize chunk :=
    List.mem_map_of_mem (List.mem_range.mpr positive)
  have isSlot : itemAt chunk 0 ∈ pool.slots itemAt allocSize stack :=
    List.mem_append_right _ (List.mem_flatMap.mpr ⟨chunk, isLive, first⟩)
  exact (List.nodup_append'.mp fresh).2.2 isSlot first

/-- **A new chunk.** -/
theorem Sound.grow (sound : pool.Sound itemAt allocSize stack) (positive : 0 < allocSize)
    {chunk : Pointer} (fresh : pool.Fresh itemAt allocSize stack chunk) :
    (pool.grow itemAt allocSize chunk).Sound itemAt allocSize stack := by
  have isNew := fresh.notMem positive
  have inserted : (pool.grow itemAt allocSize chunk).heapAvail =
      pool.heapAvail ++ [(chunk, block itemAt allocSize chunk)] :=
    if_neg (sound.keys ▸ isNew)
  have slots : (pool.grow itemAt allocSize chunk).slots itemAt allocSize stack =
      pool.slots itemAt allocSize stack ++ block itemAt allocSize chunk := by
    show _ ++ (pool.chunks ++ [chunk]).flatMap _ = _
    rw [List.flatMap_append, List.flatMap_singleton, ← List.append_assoc]
    rfl
  refine ⟨slots ▸ fresh, ?_, ?_, sound.stack, ?_, ?_⟩
  · exact List.nodup_append'.mpr ⟨sound.apart, List.nodup_singleton chunk, by simpa using isNew⟩
  · rw [inserted, List.map_append, sound.keys]
    rfl
  · intro entry inside
    rw [inserted] at inside
    rcases List.mem_append.mp inside with isOld | isLast
    · exact sound.heap entry isOld
    · obtain rfl := List.mem_singleton.mp isLast
      have none : pool.usedIn chunk = [] := by
        refine List.map_eq_nil_iff.mpr (List.filter_eq_nil_iff.mpr fun use isUse isIn => ?_)
        have same : use.2 = chunk := of_decide_eq_true isIn
        exact isNew (same ▸ sound.owned use isUse)
      show Divided _ _ (pool.usedIn chunk)
      rw [none]
      exact divided_free (List.nodup_append'.mp fresh).2.1
  · exact fun use isUse => List.mem_append_left _ (sound.owned use isUse)

/-- **`allocate` hands out an item that was not in use.** -/
theorem Sound.allocate (sound : pool.Sound itemAt allocSize stack) (positive : 0 < allocSize)
    {iteration : Iteration (Pointer × List Pointer)} {chunk : Pointer}
    (fresh : (pool.take iteration).isNone → pool.Fresh itemAt allocSize stack chunk)
    (allocated : pool.allocate itemAt allocSize iteration chunk = some (item, next)) :
    pool.Hands itemAt allocSize stack next item := by
  unfold Pool.allocate at allocated
  cases first : pool.take iteration with
  | some both =>
    rw [first, Option.some_or] at allocated
    exact sound.take (first.trans allocated)
  | none =>
    rw [first, Option.none_or] at allocated
    have grown := sound.grow positive (fresh (by rw [first]; rfl))
    have hands := grown.take allocated
    refine ⟨hands.sound, hands.unused, hands.used, hands.preferred, fun old isOld => ?_⟩
    exact hands.chunks old (List.mem_append_left _ isOld)

/-- Where a chunk has an item, the loop finds one. -/
theorem takeHeap_isSome {iteration : Iteration (Pointer × List Pointer)}
    {entry : Pointer × List Pointer} (inside : entry ∈ pool.heapAvail) (nonempty : entry.2 ≠ []) :
    (pool.takeHeap iteration).isSome := by
  have found : ((iteration.order pool.heapAvail).find? fun entry => !entry.2.isEmpty).isSome :=
    List.find?_isSome.mpr ⟨entry, (iteration.perm _).mem_iff.mpr inside, by simpa using nonempty⟩
  obtain ⟨first, isFirst⟩ := Option.isSome_iff_exists.mp found
  have hasItem : first.2 ≠ [] := by simpa using List.find?_some isFirst
  obtain ⟨item, last⟩ : ∃ item, first.2.getLast? = some item :=
    ⟨_, List.getLast?_eq_some_getLast hasItem⟩
  unfold Pool.takeHeap
  simp [isFirst, last]

/-- **`allocate` always ends with an item.** -/
theorem Sound.allocate_isSome (sound : pool.Sound itemAt allocSize stack) (positive : 0 < allocSize)
    {iteration : Iteration (Pointer × List Pointer)} {chunk : Pointer}
    (fresh : (pool.take iteration).isNone → pool.Fresh itemAt allocSize stack chunk) :
    (pool.allocate itemAt allocSize iteration chunk).isSome := by
  unfold Pool.allocate
  cases first : pool.take iteration with
  | some both => rfl
  | none =>
    have isNew := (fresh (by rw [first]; rfl)).notMem positive
    have inside : (chunk, block itemAt allocSize chunk) ∈
        (pool.grow itemAt allocSize chunk).heapAvail := by
      show _ ∈ if chunk ∈ pool.heapAvail.map Prod.fst then _ else _
      rw [sound.keys, if_neg isNew]
      exact List.mem_append_right _ List.mem_cons_self
    have nonempty : block itemAt allocSize chunk ≠ [] := by
      simpa [block] using positive.ne'
    have found : ((pool.grow itemAt allocSize chunk).takeHeap iteration).isSome :=
      takeHeap_isSome inside nonempty
    rw [Option.none_or]
    unfold Pool.take
    rw [Option.isSome_or, found, Bool.or_true]

/-! ### `deallocate` -/

/-- **An item of the built-in array comes back.** -/
theorem Sound.releaseStack (sound : pool.Sound itemAt allocSize stack)
    (isUsed : item ∈ pool.stackInUse) :
    ({ pool with
      stackAvail := pool.stackAvail ++ [item]
      stackInUse := pool.stackInUse.erase item } : Pool Pointer).Sound itemAt allocSize stack :=
  ⟨sound.distinct, sound.apart, sound.keys, sound.stack.give (List.perm_cons_erase isUsed), sound.heap,
    sound.owned⟩

/-- The items in use of a chunk, when one item is no longer so. -/
theorem usedIn_erase {use : Pointer × Pointer} (isUsed : use ∈ pool.heapInUse) (base : Pointer) :
    (pool.usedIn base).Perm
      ((if use.2 = base then [use.1] else []) ++
        (({ pool with heapInUse := pool.heapInUse.erase use } : Pool Pointer).usedIn base)) := by
  have taken := ((List.perm_cons_erase isUsed).filter fun one => one.2 = base).map Prod.fst
  unfold usedIn
  by_cases same : use.2 = base
  · rw [List.filter_cons_of_pos (by simpa using same)] at taken
    rw [if_pos same]
    exact taken
  · rw [List.filter_cons_of_neg (by simpa using same)] at taken
    rw [if_neg same]
    exact taken

/-- **An item of a chunk comes back.** -/
theorem Sound.giveBack (sound : pool.Sound itemAt allocSize stack) {use : Pointer × Pointer}
    (isUsed : use ∈ pool.heapInUse) :
    ({ pool with
      heapAvail := modify pool.heapAvail use.2 (· ++ [use.1])
      heapInUse := pool.heapInUse.erase use } : Pool Pointer).Sound itemAt allocSize stack := by
  have keys : (modify pool.heapAvail use.2 (· ++ [use.1])).map Prod.fst = pool.chunks :=
    keys_modify.trans sound.keys
  refine ⟨sound.distinct, sound.apart, keys, sound.stack, ?_,
    fun other isOther => sound.owned other (List.mem_of_mem_erase isOther)⟩
  have isLive : use.2 ∈ pool.heapAvail.map Prod.fst := sound.keys ▸ sound.owned use isUsed
  obtain ⟨entry, inside, isChunk⟩ := List.mem_map.mp isLive
  intro other isOther
  have isChanged : other ∈ modify pool.heapAvail entry.1 (· ++ [use.1]) := by
    rw [isChunk]
    exact isOther
  have erased := usedIn_erase isUsed other.1
  rcases mem_modify sound.keysDistinct inside isChanged with rfl | ⟨isOld, apart⟩
  · rw [if_pos isChunk.symm] at erased
    exact (sound.heap entry inside).give erased
  · rw [if_neg fun same => apart (same.symm.trans isChunk.symm)] at erased
    exact (sound.heap other isOld).congr erased

/-- **A chunk with all of its items available goes.** -/
theorem Sound.dropChunk (sound : pool.Sound itemAt allocSize stack)
    {entry : Pointer × List Pointer} (inside : entry ∈ pool.heapAvail) {chunk : Pointer}
    (isChunk : entry.1 = chunk) (full : entry.2.length = allocSize) :
    pool.Releases itemAt allocSize stack
      { pool with
        heapAvail := pool.heapAvail.filter fun other => other.1 ≠ chunk
        chunks := pool.chunks.filter (· ≠ chunk) } := by
  subst isChunk
  have divided := sound.heap entry inside
  have none : pool.usedIn entry.1 = [] := divided.used_eq_nil (by simpa [block] using full)
  have others : ∀ use ∈ pool.heapInUse, use.2 ≠ entry.1 := by
    intro use isUse same
    have isUsed : use.1 ∈ pool.usedIn entry.1 :=
      List.mem_map_of_mem (List.mem_filter.mpr ⟨isUse, decide_eq_true same⟩)
    exact List.not_mem_nil (none ▸ isUsed)
  refine ⟨⟨?_, sound.apart.filter _, ?_, sound.stack, ?_, ?_⟩, ?_⟩
  · refine sound.distinct.sublist (List.Sublist.append_left ?_ _)
    exact List.filter_sublist.flatMap _
  · show (pool.heapAvail.filter _).map Prod.fst = pool.chunks.filter _
    rw [← sound.keys, List.filter_map]
    rfl
  · exact fun other isOther => sound.heap other (List.mem_of_mem_filter isOther)
  · exact fun use isUse => List.mem_filter.mpr
      ⟨sound.owned use isUse, decide_eq_true (others use isUse)⟩
  · intro chunk isLive isGone slot isSlot
    have isChunk : chunk = entry.1 := by
      by_contra apart
      exact isGone (List.mem_filter.mpr ⟨isLive, decide_eq_true apart⟩)
    rw [isChunk, divided.mem_iff, none] at isSlot
    exact sound.notMem_inUse inside (isSlot.resolve_right List.not_mem_nil)

/-- **The end of `deallocate`.** -/
theorem Sound.releaseHeap (sound : pool.Sound itemAt allocSize stack) {use : Pointer × Pointer}
    (isUsed : use ∈ pool.heapInUse) :
    pool.Releases itemAt allocSize stack (pool.releaseHeap allocSize use.1 use.2) := by
  have isLive : use.2 ∈ pool.heapAvail.map Prod.fst := sound.keys ▸ sound.owned use isUsed
  have pushed : pushBack pool.heapAvail use.2 use.1 =
      modify pool.heapAvail use.2 (· ++ [use.1]) := if_pos isLive
  have given := sound.giveBack isUsed
  unfold Pool.releaseHeap
  simp only [pushed]
  split
  case isTrue full =>
    have isKey := given.keys ▸ sound.owned use isUsed
    obtain ⟨entry, inside, isChunk⟩ := List.mem_map.mp isKey
    rw [lookup_of_mem given.keysDistinct inside isChunk] at full
    have dropped := given.dropChunk inside isChunk full
    exact ⟨dropped.sound, dropped.unused⟩
  case isFalse =>
    exact ⟨given, fun chunk isLive isGone => absurd isLive isGone⟩

/-- **`deallocate`.** -/
theorem Sound.deallocate (sound : pool.Sound itemAt allocSize stack) (item : Pointer) :
    pool.Releases itemAt allocSize stack (pool.deallocate allocSize item) := by
  unfold Pool.deallocate
  by_cases isStack : item ∈ pool.stackInUse
  · rw [if_pos isStack]
    exact ⟨sound.releaseStack isStack, fun chunk isLive isGone => absurd isLive isGone⟩
  · rw [if_neg isStack]
    cases found : pool.heapInUse.find? fun use => use.1 = item with
    | some use => exact sound.releaseHeap (List.mem_of_find?_eq_some found)
    | none => exact ⟨sound, fun chunk isLive isGone => absurd isLive isGone⟩

omit stack itemAt in
/-- **What is not in use is not returned**, whatever the pointer. -/
theorem deallocate_of_notMem (unused : item ∉ pool.inUse) : pool.deallocate allocSize item = pool := by
  have notStack : item ∉ pool.stackInUse := fun isUsed => unused (List.mem_append_left _ isUsed)
  have notHeap : (pool.heapInUse.find? fun use => use.1 = item) = none := by
    refine List.find?_eq_none.mpr fun use isUse same => ?_
    have isItem : use.1 = item := of_decide_eq_true same
    exact unused (List.mem_append_right _ (isItem ▸ List.mem_map_of_mem isUse))
  unfold Pool.deallocate
  rw [if_neg notStack, notHeap]

/-! ### Whole runs -/

theorem Sound.step (positive : 0 < allocSize) (pool : Pool Pointer) (event : PoolEvent Pointer)
    (next : Pool Pointer) (sound : pool.Sound itemAt allocSize stack)
    (stepped : Pool.step itemAt allocSize stack pool event = some next) :
    next.Sound itemAt allocSize stack := by
  cases event with
  | allocate iteration chunk =>
    simp only [Pool.step] at stepped
    split at stepped
    case isTrue fresh =>
      obtain ⟨both, allocated, rfl⟩ := Option.map_eq_some_iff.mp stepped
      exact (sound.allocate positive fresh allocated).sound
    case isFalse => cases stepped
  | deallocate item =>
    cases stepped
    exact (sound.deallocate item).sound

/-- **The pool never hands an item out twice**: after any calls every slot is available or in use and
not both; `allocate` ends with an item that was not in use, one of the built-in array if one is free;
what is not in use is not returned, and a chunk goes back only when none of its items is in use. -/
theorem run_ownedOnce (positive : 0 < allocSize) (distinct : (block itemAt allocSize stack).Nodup)
    {events : List (PoolEvent Pointer)}
    (ran : run (Pool.step itemAt allocSize stack) (create itemAt allocSize stack) events = some pool) :
    Divided (pool.slots itemAt allocSize stack) pool.available pool.inUse ∧
    (∀ iteration chunk,
      ((pool.take iteration).isNone → pool.Fresh itemAt allocSize stack chunk) →
      ∃ item next, pool.allocate itemAt allocSize iteration chunk = some (item, next) ∧
        item ∉ pool.inUse ∧ item ∈ next.inUse ∧
        (pool.stackAvail ≠ [] → item ∈ block itemAt allocSize stack) ∧
        ∀ live ∈ pool.chunks, live ∈ next.chunks) ∧
    (∀ item, item ∉ pool.inUse → pool.deallocate allocSize item = pool) ∧
    ∀ item, ∀ chunk ∈ pool.chunks, chunk ∉ (pool.deallocate allocSize item).chunks →
      ∀ slot ∈ block itemAt allocSize chunk, slot ∉ (pool.deallocate allocSize item).inUse := by
  have sound : pool.Sound itemAt allocSize stack :=
    run_always (Sound itemAt allocSize stack) (Sound.step positive) (sound_create distinct) ran
  refine ⟨sound.divided, fun iteration chunk fresh => ?_, fun item => deallocate_of_notMem,
    fun item => (sound.deallocate item).unused⟩
  obtain ⟨⟨item, next⟩, allocated⟩ :=
    Option.isSome_iff_exists.mp (sound.allocate_isSome positive fresh)
  have hands := sound.allocate positive fresh allocated
  exact ⟨item, next, allocated, hands.unused, hands.used, hands.preferred, hands.chunks⟩

end Invariant

/-- The entries in the order they came. -/
def inOrder {α : Type} : Iteration α := ⟨id, fun _ => List.Perm.refl _⟩

/-- What is left of a pool with a built-in array of two items, and chunks of two. -/
def flatPool : Pool Nat := { stackAvail := [1], stackInUse := [0] }

/-- A chunk comes, an item goes back twice, and the chunk goes. -/
theorem run_ownedOnce_flat :
    run (Pool.step (· + ·) 2 0) (create (· + ·) 2 0)
      [.allocate inOrder 10, .allocate inOrder 10, .allocate inOrder 10, .deallocate 1,
        .deallocate 1, .deallocate 11] = some flatPool ∧
      Divided (flatPool.slots (· + ·) 2 0) flatPool.available flatPool.inUse := by
  have ran : run (Pool.step (· + ·) 2 0) (create (· + ·) 2 0)
      [.allocate inOrder 10, .allocate inOrder 10, .allocate inOrder 10, .deallocate 1,
        .deallocate 1, .deallocate 11] = some flatPool := by decide
  exact ⟨ran, (run_ownedOnce (by decide) (by decide) ran).1⟩

end Pool

end GemCaps
