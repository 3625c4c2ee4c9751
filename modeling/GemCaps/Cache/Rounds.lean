/-
**The rounds of the eviction loop.**

* `makeRoom_isSome_iff_rounds`: the loop of `add` ends when some number of rounds makes room.
  `run_addReturns_iff`: in a reachable cache this is when the new body fits beside what `size` counts
  and no loaded entry holds.
* `Evicts`: a loop that ends, round by round. `add_evicts`: it evicts in the order of the time left,
  stops as soon as the body fits, and leaves every other entry as it is.
-/

import GemCaps.Cache.Limit

namespace GemCaps

open Std OrderedMap Transition

namespace Cache

variable {cache next room : Cache} {key : CacheKey} {info : CacheInfo} {data : CachedData}
  {length entries : Nat}

/-! ### How many rounds there are -/

/-- **Some number of rounds makes room** exactly when the loop ends. -/
theorem makeRoom_isSome_iff_rounds (enough : cache.cache.size ≤ entries) :
    (makeRoom length entries cache).isSome = true ↔
      ∃ rounds, (removeOldCache^[rounds] cache).Fits length := by
  induction entries generalizing cache with
  | zero =>
    -- The cache is empty, and no round changes it.
    have empty : cache.oldest = none := oldest_of_size (Nat.le_zero.mp enough)
    have same : ∀ rounds, removeOldCache^[rounds] cache = cache := fun rounds =>
      Function.iterate_fixed (removeOldCache_of_none empty) rounds
    simp only [makeRoom, same, exists_const]
    by_cases fits : cache.Fits length
    · rw [if_pos fits]
      exact iff_of_true rfl fits
    · rw [if_neg fits]
      exact iff_of_false nofun fits
  | succ entries ih =>
    rw [makeRoom]
    by_cases fits : cache.Fits length
    · rw [if_pos fits]
      exact iff_of_true rfl ⟨0, fits⟩
    · have fewer := size_removeOldCache cache
      rw [if_neg fits, ih (by omega)]
      constructor
      · rintro ⟨rounds, room⟩
        exact ⟨rounds + 1, room⟩
      · rintro ⟨_ | rounds, room⟩
        · exact absurd room fits
        · exact ⟨rounds, room⟩

/-- **When `add` returns.** In a cache that a run has reached, the rounds end and `add` returns exactly
when the body fits beside what `size` counts and no loaded entry holds. -/
theorem run_addReturns_iff {maxSize : UInt32} (limited : 0 < maxSize) {events : List CacheEvent}
    (ran : run step { maxSize } events = some cache) (key : CacheKey) (data : CachedData) :
    ((∃ rounds, (removeOldCache^[rounds] cache).Fits data.body.length) ∧
        (cache.add key data).isSome = true) ↔
      cache.size.toNat - cache.stored + data.body.length ≤ maxSize.toNat := by
  obtain ⟨sameMax, isBounded⟩ := run_isBounded ran
  have counted := (isBounded limited).counted
  have returns : (cache.add key data).isSome =
      (makeRoom data.body.length cache.cache.size cache).isSome := by
    rw [add, if_pos (sameMax ▸ limited), Option.isSome_map]
  rw [returns, ← makeRoom_isSome_iff_rounds (Nat.le_refl _), and_self,
    makeRoom_isSome_iff counted (Nat.le_refl _), sameMax]

/-- A body that fits beside what is counted too much. -/
theorem run_addReturns_fits :
    ∃ cache, run step { maxSize := 10 }
        [.add firstKey (textData (text "hello") 0), .loading firstKey] = some cache ∧
      (∃ rounds, (removeOldCache^[rounds] cache).Fits 5) ∧
      (cache.add secondKey (textData (text "world") 0)).isSome = true := by
  have returns : (run step { maxSize := 10 }
      [.add firstKey (textData (text "hello") 0), .loading firstKey]).isSome := by decide
  obtain ⟨cache, ran⟩ := Option.isSome_iff_exists.mp returns
  have room : cache.size.toNat - cache.stored + 5 ≤ 10 := by
    have checked : (run step { maxSize := 10 } [.add firstKey (textData (text "hello") 0),
        .loading firstKey]).all fun cache => cache.size.toNat - cache.stored + 5 ≤ 10 := by decide
    rw [ran] at checked
    exact of_decide_eq_true checked
  exact ⟨cache, ran, (run_addReturns_iff (by decide) ran secondKey (textData (text "world") 0)).mpr
    room⟩

/-- A body above the limit, and one below it that comes when `size` counts an entry that was marked as
loading again: no number of rounds makes room. -/
theorem run_addHangs :
    (run step { maxSize := 5 } [.add firstKey (textData (text "welcome") 0)] = none ∧
        ¬ ∃ rounds, (removeOldCache^[rounds] ({ maxSize := 5 } : Cache)).Fits 7) ∧
      run step { maxSize := 10 } [.add firstKey (textData (text "hello") 0), .loading firstKey,
        .add firstKey (textData (text "welcome") 0)] = none := by
  refine ⟨⟨by decide, ?_⟩, by decide⟩
  rintro ⟨rounds, room⟩
  rw [Function.iterate_fixed (removeOldCache_of_none rfl) rounds] at room
  exact absurd room (by decide)

/-! ### The order of eviction -/

/-- A loop that ends: which keys it evicts, one after the other, and the cache it leaves. -/
inductive Evicts (length : Nat) : Cache → List CacheKey → Cache → Prop where
  | done {cache : Cache} (fits : cache.Fits length) : Evicts length cache [] cache
  | evict {cache room : Cache} {key : CacheKey} {keys : List CacheKey}
      (full : ¬ cache.Fits length) (picked : cache.oldest = some key)
      (rest : Evicts length (cache.invalidate key) keys room) : Evicts length cache (key :: keys) room

theorem exists_evicts_of_makeRoom (made : makeRoom length entries cache = some room) :
    ∃ keys, Evicts length cache keys room := by
  induction entries generalizing cache with
  | zero =>
    rw [makeRoom] at made
    split at made
    case isTrue fits => exact Option.some.inj made ▸ ⟨[], .done fits⟩
    case isFalse => cases made
  | succ entries ih =>
    rw [makeRoom] at made
    split at made
    case isTrue fits => exact Option.some.inj made ▸ ⟨[], .done fits⟩
    case isFalse full =>
      obtain ⟨keys, evicts⟩ := ih made
      cases picked : cache.oldest with
      | none =>
        rw [removeOldCache_of_none picked] at evicts
        exact ⟨keys, evicts⟩
      | some key =>
        rw [removeOldCache_of_some picked] at evicts
        exact ⟨key :: keys, .evict full picked evicts⟩

namespace Evicts

variable {keys : List CacheKey} {other : CacheKey}

theorem fits (evicts : Evicts length cache keys room) : room.Fits length := by
  induction evicts with
  | done fits => exact fits
  | evict _ _ _ ih => exact ih

/-- The cache that is left. -/
theorem room_eq (evicts : Evicts length cache keys room) : room = keys.foldl invalidate cache := by
  induction evicts with
  | done _ => rfl
  | evict _ _ _ ih => exact ih

/-- **No eviction once the body fits.** -/
theorem full (evicts : Evicts length cache keys room) {earlier later : List CacheKey}
    (split : keys = earlier ++ key :: later) : ¬ (earlier.foldl invalidate cache).Fits length := by
  induction evicts generalizing earlier with
  | done _ => simp at split
  | evict full _ _ ih =>
    cases earlier with
    | nil => exact full
    | cons first earlier =>
      obtain ⟨rfl, rest⟩ := List.cons.inj split
      exact ih rest

/-- **The frame**: an entry that is left is as it was. -/
theorem kept (evicts : Evicts length cache keys room) (found : room.cache[other]? = some info) :
    cache.cache[other]? = some info ∧ other ∉ keys := by
  induction evicts with
  | done _ => exact ⟨found, List.not_mem_nil⟩
  | @evict cache room key keys _ _ _ ih =>
    obtain ⟨later, notLater⟩ := ih found
    obtain ⟨apart, before⟩ := (removes_invalidate cache key).kept later
    exact ⟨before, fun inside => (List.mem_cons.mp inside).elim apart notLater⟩

/-- An entry that is not evicted is left. -/
theorem left (evicts : Evicts length cache keys room) (found : cache.cache[other]? = some info)
    (spared : other ∉ keys) : room.cache[other]? = some info := by
  induction evicts with
  | done _ => exact found
  | @evict cache room key keys _ _ _ ih =>
    obtain ⟨apart, notLater⟩ := not_or.mp (List.mem_cons.not.mp spared)
    refine ih ?_ notLater
    rwa [(removes_invalidate cache key).others other apart]

/-- **The order**: what is evicted had no more time left than what is left. -/
theorem order (evicts : Evicts length cache keys room) (evicted : key ∈ keys) :
    ∃ gone : CacheInfo, cache.cache[key]? = some gone ∧
      ∀ (other : CacheKey) (kept : CacheInfo), room.cache[other]? = some kept →
        gone.getTime cache.now ≤ kept.getTime cache.now := by
  induction evicts with
  | done _ => exact absurd evicted List.not_mem_nil
  | @evict cache room first keys full picked rest ih =>
    have removes := removes_invalidate cache first
    by_cases isFirst : key = first
    · subst isFirst
      obtain ⟨gone, isGone, precedes⟩ := oldest_precedes picked
      refine ⟨gone, isGone, fun other kept isKept => ?_⟩
      obtain ⟨found, notEvicted⟩ := (Evicts.evict full picked rest).kept isKept
      have apart : other ≠ key := fun same => notEvicted (same ▸ List.mem_cons_self)
      rcases precedes other kept found apart with less | ⟨same, _⟩
      · exact less.le
      · exact same.le
    · obtain ⟨gone, isGone, ordered⟩ := ih ((List.mem_cons.mp evicted).resolve_left isFirst)
      rw [removes.others key isFirst] at isGone
      rw [removes.now] at ordered
      exact ⟨gone, isGone, ordered⟩

end Evicts

/-- **Eviction follows the order of expiry.** An `add` that returns evicts some keys, one after the
other. Each of them had no more time left than any entry that survives; none goes once the body fits;
and the survivors, but for the key itself, are as they were. -/
theorem add_evicts (added : cache.add key data = some next) :
    ∃ (evicted : List CacheKey) (room : Cache), room = evicted.foldl invalidate cache ∧
      next = room.place key data ∧ (0 < cache.maxSize → room.Fits data.body.length) ∧
      (∀ one ∈ evicted, ∃ gone : CacheInfo, cache.cache[one]? = some gone ∧
        ∀ (other : CacheKey) (kept : CacheInfo), room.cache[other]? = some kept →
          gone.getTime cache.now ≤ kept.getTime cache.now) ∧
      (∀ earlier one later, evicted = earlier ++ one :: later →
        ¬ (earlier.foldl invalidate cache).Fits data.body.length) ∧
      (∀ other info, room.cache[other]? = some info ↔
        cache.cache[other]? = some info ∧ other ∉ evicted) ∧
      ∀ other ≠ key, next.cache[other]? = room.cache[other]? := by
  have others : ∀ (room : Cache), ∀ other ≠ key,
      (room.place key data).cache[other]? = room.cache[other]? := by
    intro room other apart
    rw [place_eq]
    exact getElem?_insert_of_ne apart
  obtain ⟨room, rfl, ⟨limited, made⟩ | ⟨free, rfl⟩⟩ := add_eq_some added
  · obtain ⟨keys, evicts⟩ := exists_evicts_of_makeRoom made
    refine ⟨keys, room, evicts.room_eq, rfl, fun _ => evicts.fits, ?_, ?_, ?_, others room⟩
    · exact fun one inside => evicts.order inside
    · exact fun earlier one later split => evicts.full split
    · exact fun other info => ⟨evicts.kept, fun both => evicts.left both.1 both.2⟩
  · refine ⟨[], room, rfl, rfl, fun limited => absurd limited free, ?_, ?_, ?_, others room⟩
    · exact fun one none => absurd none List.not_mem_nil
    · exact fun earlier one later split => by simp at split
    · simp

/-- Two entries of different age, and a body for which one of them has to go. -/
def agedRun : List CacheEvent :=
  [.add firstKey (textData (text "hello") 100), .add secondKey (textData (text "world") 50)]

theorem add_evicts_agedRun :
    ∃ cache next : Cache, run step { maxSize := 12 } agedRun = some cache ∧
      cache.add ⟨2, text "c"⟩ (textData (text "again") 0) = some next ∧
      ∃ (evicted : List CacheKey) (room : Cache), room = evicted.foldl invalidate cache ∧
        (0 < cache.maxSize → room.Fits 5) ∧
        ∀ one ∈ evicted, ∃ gone : CacheInfo, cache.cache[one]? = some gone ∧
          ∀ (other : CacheKey) (kept : CacheInfo), room.cache[other]? = some kept →
            gone.getTime cache.now ≤ kept.getTime cache.now := by
  have returns : (run step { maxSize := 12 }
      (agedRun ++ [.add ⟨2, text "c"⟩ (textData (text "again") 0)])).isSome := by decide
  obtain ⟨next, ran⟩ := Option.isSome_iff_exists.mp returns
  obtain ⟨cache, reached, added⟩ := (run_concat_eq_some step).mp ran
  obtain ⟨evicted, room, isRoom, _, fits, order, _⟩ := add_evicts added
  exact ⟨cache, next, reached, added, evicted, room, isRoom, fits, order⟩

end Cache

end GemCaps
