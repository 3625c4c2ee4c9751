/-
**The memory limit of the cache.**

`size` is never less than the bytes of all bodies and never more than `max_size` (`Bounded`): every
operation either leaves the bodies as they are or changes them by no more than it changes `size`
(`Cache.run_bounded`). `Stepped` lists what an event can do to the cache.
-/

import GemCaps.Cache.Eviction

namespace GemCaps

open Std OrderedMap Transition

namespace CacheInfo

variable (info : CacheInfo)

/-- An entry as `add` leaves it. -/
def placed (now : Nat) (data : CachedData) : CacheInfo :=
  { timer := if data.lifetime ≠ 0 then some (now + data.lifetime.toNat) else none
    ready := true
    data }

theorem cancelLoading_data : info.cancelLoading.1.data = info.data := by
  unfold cancelLoading
  cases info.callbacks.toList with
  | nil => rfl
  | cons first rest => rfl

theorem cancelLoading_ready : info.cancelLoading.1.ready = false := by
  unfold cancelLoading
  cases info.callbacks.toList with
  | nil => rfl
  | cons first rest => rfl

theorem loadedSize_of_not_ready (notReady : info.ready = false) : info.loadedSize = 0 := by
  unfold loadedSize isLoaded
  rw [notReady]
  rfl

end CacheInfo

namespace Cache

variable {cache next room : Cache} {key : CacheKey} {info : CacheInfo} {data : CachedData}

/-! ### What the operations write -/

/-- The weight of the entry that `_get` gives. -/
theorem weightAt_get {weight : CacheKey → CacheInfo → Nat} (nothing : weight key {} = 0) :
    weightAt weight cache.cache key = weight key (cache.get key) := by
  unfold get
  cases found : cache.cache[key]? with
  | none =>
    rw [weightAt_of_none found]
    exact nothing.symm
  | some info => exact weightAt_of_some found

theorem held_put :
    (cache.put key info).held + (cache.get key).getSize = cache.held + info.getSize := by
  have size : weightAt (fun _ info => info.getSize) cache.cache key = (cache.get key).getSize :=
    weightAt_get rfl
  rw [← size]
  exact total_insert

theorem stored_put :
    (cache.put key info).stored + cache.loadedSize key = cache.stored + info.loadedSize :=
  total_insert

/-- `add`, once there is room. -/
theorem place_eq : cache.place key data =
    { cache with
      cache := cache.cache.insert key (.placed cache.now data)
      size := cache.size + UInt32.ofNat data.body.length
      invoked := cache.invoked ++
        (cache.get key).callbacks.toList.map fun pair => ⟨pair.1, pair.2, data⟩ } := by
  unfold place CacheInfo.placed
  by_cases lifetime : data.lifetime ≠ 0
  · simp only [if_pos lifetime]
    rfl
  · simp only [if_neg lifetime]
    rfl

theorem held_place :
    (cache.place key data).held + (cache.get key).getSize = cache.held + data.body.length := by
  have written : (cache.put key (.placed cache.now data)).held + (cache.get key).getSize =
      cache.held + data.body.length := held_put
  rw [place_eq]
  exact written

theorem stored_place :
    (cache.place key data).stored + cache.loadedSize key = cache.stored + data.body.length := by
  have written : (cache.put key (.placed cache.now data)).stored + cache.loadedSize key =
      cache.stored + data.body.length := stored_put
  rw [place_eq]
  exact written

/-- A timer that runs out removes its entry. -/
theorem removes_timeout (timedOut : cache.timeout key = some next) : Removes cache next key := by
  unfold timeout at timedOut
  cases found : cache.cache[key]? with
  | none =>
    rw [found] at timedOut
    cases timedOut
  | some info =>
    simp only [found] at timedOut
    split at timedOut
    case isFalse => cases timedOut
    case isTrue =>
      cases timedOut
      have removes := removes_invalidate (cache.put key info.stopTimer) key
      have written : (cache.put key info.stopTimer).cache[key]? = some info.stopTimer :=
        TreeMap.getElem?_insert_self
      have same : (cache.put key info.stopTimer).loadedSize key = cache.loadedSize key := by
        rw [loadedSize_of_some found, loadedSize_of_some written]
        rfl
      refine ⟨removes.self, fun other apart => ?_, same ▸ removes.size, same ▸ removes.subtractions,
        removes.maxSize, removes.now, removes.calls, removes.invoked⟩
      exact (removes.others other apart).trans (getElem?_insert_of_ne apart)

/-- The room that `add` makes, and what it then does. -/
theorem add_eq_some (added : cache.add key data = some next) :
    ∃ room, next = room.place key data ∧
      (0 < cache.maxSize ∧ makeRoom data.body.length cache.cache.size cache = some room ∨
        ¬ 0 < cache.maxSize ∧ room = cache) := by
  unfold add at added
  obtain ⟨room, made, rfl⟩ := Option.map_eq_some_iff.mp added
  refine ⟨room, rfl, ?_⟩
  by_cases limited : cache.maxSize > 0
  · rw [if_pos limited] at made
    exact .inl ⟨limited, made⟩
  · rw [if_neg limited] at made
    exact .inr ⟨limited, (Option.some.inj made).symm⟩

/-! ### Every event -/

/-- What a step can be. -/
inductive Stepped (cache : Cache) : CacheEvent → Cache → Prop where
  | loading (key : CacheKey) : Stepped cache (.loading key) (cache.loading key)
  | cancelNone {key : CacheKey} (missing : cache.cache[key]? = none) :
      Stepped cache (.cancel key) cache
  | cancel {key : CacheKey} {info : CacheInfo} (found : cache.cache[key]? = some info) :
      Stepped cache (.cancel key)
        ((cache.put key info.cancelLoading.1).invoke info.cancelLoading.2)
  | addLimited {key : CacheKey} {data : CachedData} {room : Cache} (limited : 0 < cache.maxSize)
      (made : makeRoom data.body.length cache.cache.size cache = some room) :
      Stepped cache (.add key data) (room.place key data)
  | addFree {key : CacheKey} {data : CachedData} (free : ¬ 0 < cache.maxSize) :
      Stepped cache (.add key data) (cache.place key data)
  | clear : Stepped cache .clear cache.clear
  | invalidate {key : CacheKey} {next : Cache} (removes : Removes cache next key) :
      Stepped cache (.invalidate key) next
  | timeout {key : CacheKey} {next : Cache} (removes : Removes cache next key) :
      Stepped cache (.timeout key) next
  | unknown {key : CacheKey} {callback : CacheReadyCB} {argument : Nat}
      (missing : cache.cache[key]? = none) :
      Stepped cache (.getNotified key callback argument) { cache with calls := cache.calls + 1 }
  | answers {key : CacheKey} {callback : CacheReadyCB} {argument : Nat} {info : CacheInfo}
      (found : cache.cache[key]? = some info) (isLoaded : info.isLoaded = true) :
      Stepped cache (.getNotified key callback argument)
        (({ cache with calls := cache.calls + 1 } : Cache).invoke
          [⟨callback, ⟨argument, cache.calls⟩, info.data⟩])
  | waits {key : CacheKey} {callback : CacheReadyCB} {argument : Nat} {info : CacheInfo}
      (found : cache.cache[key]? = some info) (notLoaded : info.isLoaded = false) :
      Stepped cache (.getNotified key callback argument)
        (({ cache with calls := cache.calls + 1 } : Cache).put key
          (info.addCallback callback ⟨argument, cache.calls⟩))
  | elapse (time : Nat) : Stepped cache (.elapse time) { cache with now := cache.now + time }

/-- **Every step is one of these.** -/
theorem stepped_of_step {event : CacheEvent} (stepped : cache.step event = some next) :
    Stepped cache event next := by
  cases event with
  | loading key => exact Option.some.inj stepped ▸ .loading key
  | cancel key =>
    obtain rfl := Option.some.inj stepped
    cases found : cache.cache[key]? with
    | none =>
      rw [cancel_of_none found]
      exact .cancelNone found
    | some info =>
      rw [cancel_of_some found]
      exact .cancel found
  | add key data =>
    obtain ⟨room, rfl, ⟨limited, made⟩ | ⟨free, rfl⟩⟩ := add_eq_some stepped
    · exact .addLimited limited made
    · exact .addFree free
  | clear => exact Option.some.inj stepped ▸ .clear
  | invalidate key => exact Option.some.inj stepped ▸ .invalidate (removes_invalidate cache key)
  | getNotified key callback argument =>
    obtain rfl := Option.some.inj stepped
    cases found : cache.cache[key]? with
    | none =>
      rw [getNotified_of_none found]
      exact .unknown found
    | some info =>
      cases isLoaded : info.isLoaded with
      | true =>
        rw [getNotified_of_loaded found isLoaded]
        exact .answers found isLoaded
      | false =>
        rw [getNotified_of_waiting found isLoaded]
        exact .waits found isLoaded
  | timeout key => exact .timeout (removes_timeout stepped)
  | elapse time => exact Option.some.inj stepped ▸ .elapse time

/-! ### The limit -/

/-- All bodies are counted, `size` is within the limit, and no subtraction was too large. -/
structure Bounded (cache : Cache) : Prop where
  held : cache.held ≤ cache.size.toNat
  size : cache.size ≤ cache.maxSize
  subtractions : ∀ one ∈ cache.subtractions, one.2 ≤ one.1.toNat

namespace Bounded

theorem counted (bounded : cache.Bounded) : cache.stored ≤ cache.size.toNat :=
  cache.stored_le_held.trans bounded.held

/-- **Removing an entry** takes from `size` no more than the entry held. -/
theorem removes (bounded : cache.Bounded) (removes : Removes cache next key) : next.Bounded := by
  have held : next.held + weightAt (fun _ info => info.getSize) cache.cache key = cache.held :=
    removes.total _
  have part : cache.loadedSize key ≤ weightAt (fun _ info => info.getSize) cache.cache key := by
    unfold loadedSize
    cases found : cache.cache[key]? with
    | none => exact (weightAt_of_none found).trans_le (Nat.zero_le _)
    | some info =>
      rw [weightAt_of_some found, weightAt_of_some found]
      exact info.loadedSize_le_getSize
  have size := removes.toNat_size bounded.counted
  have within := bounded.held
  refine ⟨by omega, ?_, fun one inside => ?_⟩
  · have limit := UInt32.le_iff_toNat_le.mp bounded.size
    rw [UInt32.le_iff_toNat_le, removes.maxSize]
    omega
  · rcases removes.subtractions one inside with isOld | rfl
    · exact bounded.subtractions one isOld
    · exact (cache.loadedSize_le_stored key).trans bounded.counted

/-- **Writing an entry back** with the data it had. -/
theorem put (bounded : cache.Bounded) (same : info.getSize = (cache.get key).getSize) :
    (cache.put key info).Bounded := by
  have held : (cache.put key info).held + (cache.get key).getSize = cache.held + info.getSize :=
    held_put
  have unchanged : (cache.put key info).held = cache.held := by omega
  exact ⟨unchanged ▸ bounded.held, bounded.size, bounded.subtractions⟩

/-- **Data that fits**: `size` grows by its length, and the bodies by no more. -/
theorem place (bounded : cache.Bounded) (fits : cache.Fits data.body.length) :
    (cache.place key data).Bounded := by
  have held : (cache.place key data).held + (cache.get key).getSize =
      cache.held + data.body.length := held_place
  have size : (cache.place key data).size.toNat = cache.size.toNat + data.body.length := by
    rw [place_eq]
    show (cache.size + UInt32.ofNat data.body.length).toNat = _
    rw [toNat_add_ofNat]
    exact Nat.mod_eq_of_lt (Nat.lt_of_le_of_lt fits cache.maxSize.toNat_lt)
  have within := bounded.held
  refine ⟨by omega, ?_, ?_⟩
  · rw [UInt32.le_iff_toNat_le, size, place_eq]
    exact fits
  · rw [place_eq]
    exact bounded.subtractions

/-- The limit and what was subtracted do not change where the cache and `size` do not. -/
theorem congr (bounded : cache.Bounded) (same : next.cache = cache.cache)
    (size : next.size = cache.size) (maxSize : next.maxSize = cache.maxSize)
    (subtractions : next.subtractions = cache.subtractions) : next.Bounded := by
  refine ⟨?_, ?_, ?_⟩
  · unfold Cache.held
    rw [same, size]
    exact bounded.held
  · rw [size, maxSize]
    exact bounded.size
  · rw [subtractions]
    exact bounded.subtractions

/-- **The room that `add` makes.** -/
theorem makeRoom {length entries : Nat} (bounded : cache.Bounded)
    (made : Cache.makeRoom length entries cache = some room) : room.Bounded ∧ room.Fits length :=
  makeRoom_rule Bounded
    (fun state key holds _ _ => holds.removes (removes_invalidate state key)) bounded made

/-- **Every event keeps the bound.** -/
theorem step {event : CacheEvent} (bounded : cache.Bounded) (limited : 0 < cache.maxSize)
    (stepped : cache.step event = some next) : next.Bounded := by
  cases stepped_of_step stepped with
  | loading key => exact bounded.put rfl
  | cancelNone missing => exact bounded
  | cancel found =>
    refine Bounded.congr (bounded.put ?_) rfl rfl rfl rfl
    unfold CacheInfo.getSize
    rw [CacheInfo.cancelLoading_data, get_of_some found]
  | addLimited limited made =>
    obtain ⟨isBounded, fits⟩ := bounded.makeRoom made
    exact isBounded.place fits
  | addFree free => exact absurd limited free
  | clear => exact ⟨Nat.zero_le _, bounded.size, bounded.subtractions⟩
  | invalidate removes | timeout removes => exact bounded.removes removes
  | unknown missing | answers found isLoaded | elapse time => exact bounded.congr rfl rfl rfl rfl
  | waits found notLoaded =>
    refine Bounded.congr (bounded.put ?_) rfl rfl rfl rfl
    rw [get_of_some found]
    rfl

end Bounded

/-- The limit never changes. -/
theorem maxSize_step {event : CacheEvent} (stepped : cache.step event = some next) :
    next.maxSize = cache.maxSize := by
  cases stepped_of_step stepped with
  | addLimited limited made =>
    rw [place_eq]
    exact (makeRoom_rule (fun state => state.maxSize = cache.maxSize)
      (fun state key holds _ _ => (removes_invalidate state key).maxSize.trans holds) rfl made).1
  | addFree free => rw [place_eq]
  | invalidate removes | timeout removes => exact removes.maxSize
  | _ => rfl

/-- A cache that starts empty is bounded in every run, if it has a limit. -/
theorem run_isBounded {maxSize : UInt32} {events : List CacheEvent} {final : Cache}
    (ran : run step { maxSize } events = some final) :
    final.maxSize = maxSize ∧ (0 < maxSize → final.Bounded) := by
  refine run_always (fun cache => cache.maxSize = maxSize ∧ (0 < maxSize → cache.Bounded)) ?_
    ⟨rfl, fun _ => ⟨Nat.zero_le _, UInt32.zero_le, fun _ inside => absurd inside List.not_mem_nil⟩⟩ ran
  rintro cache event next ⟨sameMax, bounded⟩ stepped
  exact ⟨(maxSize_step stepped).trans sameMax,
    fun limited => (bounded limited).step (sameMax.symm ▸ limited) stepped⟩

/-- **The cache respects its limit**: all the bodies it holds, in loaded entries and others, are no
longer than `max_size` together, and no subtraction from `size` was larger than `size`. -/
theorem run_bounded {maxSize : UInt32} (limited : 0 < maxSize) {events : List CacheEvent}
    {final : Cache} (ran : run step { maxSize } events = some final) :
    final.held ≤ maxSize.toNat ∧ ∀ one ∈ final.subtractions, one.2 ≤ one.1.toNat := by
  obtain ⟨sameMax, isBounded⟩ := run_isBounded ran
  have bounded := isBounded limited
  have within := UInt32.le_iff_toNat_le.mp bounded.size
  rw [sameMax] at within
  exact ⟨bounded.held.trans within, bounded.subtractions⟩

/-- Two keys and their data, for runs. -/
def firstKey : CacheKey := ⟨1, text "a"⟩

def secondKey : CacheKey := ⟨1, text "b"⟩

def textData (body : Bytes) (lifetime : UInt32) : CachedData := ⟨text "text/gemini", 20, body, lifetime⟩

/-- An entry is marked as loading, written again and pushed out. -/
def fullRun : List CacheEvent :=
  [.add firstKey (textData (text "hello") 100), .loading firstKey,
    .add firstKey (textData (text "hey") 100), .elapse 10,
    .add secondKey (textData (text "welcome") 50)]

theorem run_bounded_fullRun :
    ∃ final, run step { maxSize := 15 } fullRun = some final ∧ final.held ≤ 15 ∧
      ∀ one ∈ final.subtractions, one.2 ≤ one.1.toNat := by
  have returns : (run step { maxSize := 15 } fullRun).isSome := by decide
  obtain ⟨final, ran⟩ := Option.isSome_iff_exists.mp returns
  exact ⟨final, ran, run_bounded (by decide) ran⟩

end Cache

end GemCaps
