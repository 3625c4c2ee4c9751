/-
**What eviction removes.**

`Removes` is all that `invalidate` does. The loop of `add` removes the entries in the order of the
time they have left, and equal times in the order of their keys, until the rest fits: an entry stays
exactly when those before it hold enough (`Spared`, `makeRoom_lookup`). The loop ends exactly when the
data fits beside what `size` counts and no loaded entry holds (`makeRoom_isSome_iff`).
-/

import GemCaps.Cache.Store

namespace GemCaps

open Std OrderedMap

/-! ### Words of 32 bits -/

theorem toNat_sub_ofNat {size : UInt32} {amount : Nat} (within : amount ≤ size.toNat) :
    (size - UInt32.ofNat amount).toNat = size.toNat - amount := by
  have small : amount < 2 ^ 32 := Nat.lt_of_le_of_lt within size.toNat_lt
  have same : (UInt32.ofNat amount).toNat = amount := UInt32.toNat_ofNat_of_lt' small
  rw [UInt32.toNat_sub_of_le, same]
  rwa [UInt32.le_iff_toNat_le, same]

theorem toNat_add_ofNat (size : UInt32) (amount : Nat) :
    (size + UInt32.ofNat amount).toNat = (size.toNat + amount) % 2 ^ 32 := by
  rw [UInt32.toNat_add, UInt32.toNat_ofNat']
  omega

/-! ### What entries hold -/

/-- The bytes that a loaded entry holds. -/
def CacheInfo.loadedSize (info : CacheInfo) : Nat := if info.isLoaded then info.getSize else 0

theorem CacheInfo.loadedSize_le_getSize (info : CacheInfo) : info.loadedSize ≤ info.getSize := by
  unfold loadedSize
  split
  · exact Nat.le_refl _
  · exact Nat.zero_le _

namespace Cache

/-- The bytes of all bodies. -/
def held (cache : Cache) : Nat := total (fun _ info => info.getSize) cache.cache

/-- The bytes of the bodies of loaded entries. -/
def stored (cache : Cache) : Nat := total (fun _ info => info.loadedSize) cache.cache

/-- The bytes that the key holds, if it is loaded. -/
def loadedSize (cache : Cache) (key : CacheKey) : Nat :=
  weightAt (fun _ info => info.loadedSize) cache.cache key

variable {cache next room : Cache} {key : CacheKey} {info : CacheInfo} {length : Nat}

theorem stored_le_held (cache : Cache) : cache.stored ≤ cache.held :=
  total_le_total fun _ info _ => info.loadedSize_le_getSize

theorem loadedSize_le_stored (cache : Cache) (key : CacheKey) : cache.loadedSize key ≤ cache.stored :=
  weightAt_le_total

theorem loadedSize_of_some (found : cache.cache[key]? = some info) :
    cache.loadedSize key = info.loadedSize := weightAt_of_some found

/-! ### `invalidate` -/

/-- An entry is removed, and what it held if it was loaded is taken from `size`. -/
structure Removes (cache next : Cache) (key : CacheKey) : Prop where
  self : next.cache[key]? = none
  others : ∀ other ≠ key, next.cache[other]? = cache.cache[other]?
  size : next.size = cache.size - UInt32.ofNat (cache.loadedSize key)
  subtractions : ∀ one ∈ next.subtractions,
    one ∈ cache.subtractions ∨ one = (cache.size, cache.loadedSize key)
  maxSize : next.maxSize = cache.maxSize
  now : next.now = cache.now
  calls : next.calls = cache.calls
  invoked : next.invoked = cache.invoked

/-- **All that `invalidate` does.** -/
theorem removes_invalidate (cache : Cache) (key : CacheKey) :
    Removes cache (cache.invalidate key) key := by
  unfold invalidate
  cases found : cache.cache[key]? with
  | none =>
    have none : cache.loadedSize key = 0 := weightAt_of_none found
    refine ⟨found, fun _ _ => rfl, ?_, fun _ => .inl, rfl, rfl, rfl, rfl⟩
    rw [none]
    exact (UInt32.sub_zero cache.size).symm
  | some info =>
    have size := loadedSize_of_some found
    unfold CacheInfo.loadedSize at size
    by_cases isLoaded : info.isLoaded = true
    · rw [if_pos isLoaded] at size
      simp only [isLoaded, if_true]
      refine ⟨TreeMap.getElem?_erase_self, fun _ apart => getElem?_erase_of_ne apart, ?_, ?_, rfl, rfl,
        rfl, rfl⟩
      · rw [size]
        rfl
      · intro one inside
        rw [size]
        exact (List.mem_append.mp inside).imp_right List.mem_singleton.mp
    · rw [if_neg isLoaded] at size
      simp only [isLoaded]
      refine ⟨TreeMap.getElem?_erase_self, fun _ apart => getElem?_erase_of_ne apart, ?_,
        fun _ => .inl, rfl, rfl, rfl, rfl⟩
      rw [size]
      exact (UInt32.sub_zero cache.size).symm

namespace Removes

/-- An entry that is left is another one, and as it was. -/
theorem kept (removes : Removes cache next key) {other : CacheKey}
    (found : next.cache[other]? = some info) : other ≠ key ∧ cache.cache[other]? = some info := by
  have apart : other ≠ key := fun same => by
    rw [same, removes.self] at found
    cases found
  exact ⟨apart, (removes.others other apart).symm.trans found⟩

/-- Every total loses what the key held. -/
theorem total (removes : Removes cache next key) (weight : CacheKey → CacheInfo → Nat) :
    OrderedMap.total weight next.cache + weightAt weight cache.cache key =
      OrderedMap.total weight cache.cache := by
  have same : OrderedMap.total weight next.cache =
      OrderedMap.total weight (cache.cache.erase key) := by
    refine total_congr fun other => ?_
    by_cases same : other = key
    · rw [same, removes.self, TreeMap.getElem?_erase_self]
    · rw [removes.others other same, getElem?_erase_of_ne same]
  rw [same]
  exact total_erase

theorem stored (removes : Removes cache next key) :
    next.stored + cache.loadedSize key = cache.stored := removes.total _

/-- **Where `size` counts what is stored, the subtraction is one of numbers.** -/
theorem toNat_size (removes : Removes cache next key) (counted : cache.stored ≤ cache.size.toNat) :
    next.size.toNat = cache.size.toNat - cache.loadedSize key := by
  rw [removes.size]
  exact toNat_sub_ofNat ((cache.loadedSize_le_stored key).trans counted)

theorem counted (removes : Removes cache next key) (counted : cache.stored ≤ cache.size.toNat) :
    next.stored ≤ next.size.toNat := by
  rw [removes.toNat_size counted]
  have stored := removes.stored
  omega

end Removes

/-! ### The order of eviction -/

/-- **The entry that goes first precedes all others.** -/
theorem oldest_precedes (picked : cache.oldest = some key) :
    ∃ info, cache.cache[key]? = some info ∧
      ∀ other held, cache.cache[other]? = some held → other ≠ key →
        Precedes compare (key, info.getTime cache.now) (other, held.getTime cache.now) := by
  have sorted : (cache.cache.toList.map fun pair => (pair.1, pair.2.getTime cache.now)).Pairwise
      fun first second => compare first.1 second.1 = .lt :=
    List.pairwise_map.mpr TreeMap.ordered_keys_toList
  have isEntry : ∀ other held, cache.cache[other]? = some held →
      (other, held.getTime cache.now) ∈
        cache.cache.toList.map fun pair => (pair.1, pair.2.getTime cache.now) := fun other held found =>
    List.mem_map.mpr ⟨(other, held), TreeMap.mem_toList_iff_getElem?_eq_some.mpr found, rfl⟩
  unfold oldest at picked
  cases entries : cache.cache.toList.map fun pair => (pair.1, pair.2.getTime cache.now) with
  | nil =>
    rw [entries] at picked
    cases picked
  | cons first rest =>
    simp only [entries, firstLeast, if_neg (Nat.lt_irrefl _), Option.some.injEq] at picked
    rw [entries] at sorted
    obtain ⟨inside, precedes⟩ := firstLeast_precedes sorted
    rw [← entries] at inside
    obtain ⟨⟨found, info⟩, isFound, same⟩ := List.mem_map.mp inside
    obtain rfl : found = key := (congrArg Prod.fst same).trans picked
    refine ⟨info, TreeMap.mem_toList_iff_getElem?_eq_some.mp isFound, fun other held isOther apart => ?_⟩
    have before := precedes (other, held.getTime cache.now) (entries ▸ isEntry other held isOther)
    rw [← same] at before
    exact before.resolve_left fun isKey => apart (congrArg Prod.fst isKey)

theorem lookup_of_oldest (picked : cache.oldest = none) (key : CacheKey) :
    cache.cache[key]? = none := by
  unfold oldest at picked
  cases entries : cache.cache.toList with
  | nil =>
    refine Option.eq_none_iff_forall_not_mem.mpr fun info found => ?_
    have inside := TreeMap.mem_toList_iff_getElem?_eq_some.mpr found
    rw [entries] at inside
    exact List.not_mem_nil inside
  | cons first rest =>
    rw [entries] at picked
    cases picked

/-- The loaded bytes of the entries that go before this one. -/
def ahead (cache : Cache) (key : CacheKey) (info : CacheInfo) : Nat :=
  total (fun other held =>
    if Precedes compare (other, held.getTime cache.now) (key, info.getTime cache.now) then
      held.loadedSize
    else 0) cache.cache

/-- Room for a body is there once the entries before this one are gone. -/
def Spared (cache : Cache) (length : Nat) (key : CacheKey) (info : CacheInfo) : Prop :=
  cache.size.toNat + length ≤ cache.maxSize.toNat + cache.ahead key info

instance (length : Nat) (key : CacheKey) (info : CacheInfo) :
    Decidable (cache.Spared length key info) := inferInstanceAs (Decidable (_ ≤ _))

/-- The entry that goes first has none before it. -/
theorem ahead_oldest (picked : cache.oldest = some key) (found : cache.cache[key]? = some info) :
    cache.ahead key info = 0 := by
  obtain ⟨info', isFound, precedes⟩ := oldest_precedes picked
  obtain rfl := Option.some.inj (isFound.symm.trans found)
  have nothing : cache.ahead key info' ≤ total (fun _ _ => 0) cache.cache := by
    refine total_le_total fun other held isOther => ?_
    by_cases same : other = key
    · subst same
      obtain rfl := Option.some.inj (isOther.symm.trans found)
      rw [if_neg (Precedes.irrefl _)]
    · rw [if_neg fun before => Precedes.irrefl _ (before.trans (precedes other held isOther same))]
  have zero : total (fun _ _ => 0) cache.cache = 0 := by simp [OrderedMap.total]
  omega

/-- Its loaded bytes count for every other entry. -/
theorem ahead_of_oldest (picked : cache.oldest = some key) {other : CacheKey}
    (found : cache.cache[other]? = some info) (apart : other ≠ key) :
    (cache.invalidate key).ahead other info + cache.loadedSize key = cache.ahead other info := by
  obtain ⟨first, isFirst, precedes⟩ := oldest_precedes picked
  have removes := removes_invalidate cache key
  have before := removes.total fun one held =>
    if Precedes compare (one, held.getTime cache.now) (other, info.getTime cache.now) then
      held.loadedSize
    else 0
  rw [weightAt_of_some isFirst, if_pos (precedes other info found apart),
    ← loadedSize_of_some isFirst] at before
  unfold ahead
  rw [removes.now]
  exact before

/-! ### The loop of `add` -/

/-- **The rule of the loop**: what every removal of the first entry keeps, the loop keeps, and then
the data fits. -/
theorem makeRoom_rule (holds : Cache → Prop)
    (keeps : ∀ cache key, holds cache → ¬ cache.Fits length → cache.oldest = some key →
      holds (cache.invalidate key)) :
    ∀ {entries : Nat} {cache : Cache}, holds cache → makeRoom length entries cache = some room →
      holds room ∧ room.Fits length := by
  intro entries
  induction entries with
  | zero =>
    intro cache start made
    unfold makeRoom at made
    split at made
    case isTrue fits => exact Option.some.inj made ▸ ⟨start, fits⟩
    case isFalse => cases made
  | succ entries ih =>
    intro cache start made
    unfold makeRoom at made
    split at made
    case isTrue fits => exact Option.some.inj made ▸ ⟨start, fits⟩
    case isFalse full =>
      refine ih ?_ made
      unfold removeOldCache
      cases picked : cache.oldest with
      | none => exact start
      | some key => exact keeps cache key start full picked

/-- **Which entries stay**: those whose predecessors hold enough. -/
theorem makeRoom_lookup {entries : Nat} (counted : cache.stored ≤ cache.size.toNat)
    (made : makeRoom length entries cache = some room) (key : CacheKey) (info : CacheInfo) :
    room.cache[key]? = some info ↔
      cache.cache[key]? = some info ∧ cache.Spared length key info := by
  have kept : (room.stored ≤ room.size.toNat ∧ room.maxSize = cache.maxSize ∧
      ∀ key info, (room.cache[key]? = some info ∧ room.Spared length key info) ↔
        (cache.cache[key]? = some info ∧ cache.Spared length key info)) ∧ room.Fits length := by
    refine makeRoom_rule (fun state => state.stored ≤ state.size.toNat ∧
      state.maxSize = cache.maxSize ∧ ∀ key info,
        (state.cache[key]? = some info ∧ state.Spared length key info) ↔
          (cache.cache[key]? = some info ∧ cache.Spared length key info)) ?_
      ⟨counted, rfl, fun _ _ => Iff.rfl⟩ made
    rintro state first ⟨isCounted, sameMax, same⟩ full picked
    have removes := removes_invalidate state first
    refine ⟨removes.counted isCounted, removes.maxSize.trans sameMax, fun key info => ?_⟩
    rw [← same key info]
    by_cases isFirst : key = first
    · subst isFirst
      refine iff_of_false (fun both => ?_) (fun both => ?_)
      · rw [removes.self] at both
        cases both.1
      · -- No entry goes before this one, and nothing fits.
        have spared := both.2
        unfold Spared at spared
        rw [ahead_oldest picked both.1] at spared
        exact full spared
    · rw [removes.others key isFirst]
      refine and_congr_right fun found => ?_
      have moved := ahead_of_oldest picked found isFirst
      have size := removes.toNat_size isCounted
      have part := (state.loadedSize_le_stored first).trans isCounted
      unfold Spared
      rw [removes.maxSize]
      omega
  obtain ⟨⟨_, _, same⟩, fits⟩ := kept
  rw [← same key info]
  refine (and_iff_left ?_).symm
  unfold Fits at fits
  unfold Spared
  omega

/-- The number of entries is a total. -/
theorem size_eq_total (cache : Cache) : cache.cache.size = total (fun _ _ => 1) cache.cache := by
  unfold OrderedMap.total
  rw [List.map_const', List.sum_replicate, TreeMap.length_toList]
  simp

/-! ### One round of the loop -/

theorem removeOldCache_of_none (picked : cache.oldest = none) : cache.removeOldCache = cache := by
  unfold removeOldCache
  rw [picked]

theorem removeOldCache_of_some (picked : cache.oldest = some key) :
    cache.removeOldCache = cache.invalidate key := by
  unfold removeOldCache
  rw [picked]

theorem size_of_oldest (picked : cache.oldest = none) : cache.cache.size = 0 := by
  rw [← TreeMap.length_toList, List.length_eq_zero_iff]
  refine List.eq_nil_iff_forall_not_mem.mpr fun pair inside => ?_
  have found := TreeMap.mem_toList_iff_getElem?_eq_some.mp inside
  rw [lookup_of_oldest picked] at found
  cases found

theorem oldest_of_size (empty : cache.cache.size = 0) : cache.oldest = none := by
  rw [← TreeMap.length_toList, List.length_eq_zero_iff] at empty
  unfold oldest
  rw [empty]
  rfl

theorem stored_of_size (empty : cache.cache.size = 0) : cache.stored = 0 := by
  rw [← TreeMap.length_toList, List.length_eq_zero_iff] at empty
  unfold stored OrderedMap.total
  rw [empty]
  rfl

/-- A round leaves one entry less, if there is any. -/
theorem size_removeOldCache (cache : Cache) :
    cache.removeOldCache.cache.size = cache.cache.size - 1 := by
  cases picked : cache.oldest with
  | none => rw [removeOldCache_of_none picked, size_of_oldest picked]
  | some key =>
    obtain ⟨info, found, _⟩ := oldest_precedes picked
    have one := (removes_invalidate cache key).total fun _ _ => 1
    rw [weightAt_of_some found, ← size_eq_total, ← size_eq_total] at one
    rw [removeOldCache_of_some picked]
    omega

/-- **A round keeps what `size` counts and no loaded entry holds.** -/
theorem removeOldCache_gap (counted : cache.stored ≤ cache.size.toNat) :
    cache.removeOldCache.stored ≤ cache.removeOldCache.size.toNat ∧
      cache.removeOldCache.size.toNat - cache.removeOldCache.stored =
        cache.size.toNat - cache.stored ∧
      cache.removeOldCache.maxSize = cache.maxSize := by
  cases picked : cache.oldest with
  | none =>
    rw [removeOldCache_of_none picked]
    exact ⟨counted, rfl, rfl⟩
  | some key =>
    have removes := removes_invalidate cache key
    have stored := removes.stored
    have size := removes.toNat_size counted
    have part := cache.loadedSize_le_stored key
    rw [removeOldCache_of_some picked]
    exact ⟨removes.counted counted, by omega, removes.maxSize⟩

/-- **When the loop ends**: each removal leaves one entry less and the same number of bytes that are
counted and not stored, and in the end nothing else counts. -/
theorem makeRoom_isSome_iff {entries : Nat} (counted : cache.stored ≤ cache.size.toNat)
    (enough : cache.cache.size ≤ entries) :
    (makeRoom length entries cache).isSome ↔
      cache.size.toNat - cache.stored + length ≤ cache.maxSize.toNat := by
  induction entries generalizing cache with
  | zero =>
    unfold makeRoom
    rw [stored_of_size (Nat.le_zero.mp enough), Nat.sub_zero]
    by_cases fits : cache.Fits length
    · rw [if_pos fits]
      exact iff_of_true rfl fits
    · rw [if_neg fits]
      exact iff_of_false nofun fits
  | succ entries ih =>
    unfold makeRoom
    by_cases fits : cache.Fits length
    · rw [if_pos fits]
      unfold Fits at fits
      exact iff_of_true rfl (by omega)
    · obtain ⟨stillCounted, gap, maxSize⟩ := removeOldCache_gap counted
      have fewer := size_removeOldCache cache
      rw [if_neg fits, ih stillCounted (by omega), gap, maxSize]

end Cache

end GemCaps
