/-
**What `size` counts.**

`size` is exact as long as no operation takes a body out of a loaded entry without counting it
(`Cache.run_counted_iff`): `loading`, `cancel`, `clear` and a second `add` do not count.
-/

import GemCaps.Cache.Limit

namespace GemCaps

open Std OrderedMap Transition

namespace Cache

variable {cache next room : Cache} {key : CacheKey} {data : CachedData}

/-! ### When the counter is exact -/

/-- `size` is what the loaded entries hold. -/
def Counted (cache : Cache) : Prop := cache.size.toNat = cache.stored

instance (cache : Cache) : Decidable cache.Counted := inferInstanceAs (Decidable (_ = _))

/-- `add` comes to the key with its entry still there. -/
def StaysFor (cache : Cache) (key : CacheKey) (length : Nat) : Prop :=
  0 < cache.maxSize → ∃ info, cache.cache[key]? = some info ∧ cache.Spared length key info

/-- No operation but `invalidate`, the timer and eviction meets a body in a loaded entry. -/
def Counts (cache : Cache) : CacheEvent → Prop
  | .loading key => cache.loadedSize key = 0
  | .cancel key => cache.loadedSize key = 0
  | .add key data => cache.StaysFor key data.body.length → cache.loadedSize key = 0
  | .clear => ∀ key, cache.loadedSize key = 0
  | .invalidate _ => True
  | .getNotified _ _ _ => True
  | .timeout _ => True
  | .elapse _ => True

theorem Counted.removes (counted : cache.Counted) (removes : Removes cache next key) :
    next.Counted := by
  have stored := removes.stored
  have size := removes.toNat_size counted.ge
  unfold Counted at counted ⊢
  omega

/-- Where the stored bytes change and `size` does not, it stays exact only if they do not. -/
theorem counted_iff_of_size (counted : cache.Counted) {amount : Nat}
    (stored : next.stored + amount = cache.stored) (size : next.size = cache.size) :
    next.Counted ↔ amount = 0 := by
  unfold Counted at counted ⊢
  rw [size]
  omega

/-- **Data in its place**: `size` is exact when no bytes were overwritten. -/
theorem counted_place_iff (counted : cache.Counted)
    (small : (cache.place key data).stored < 2 ^ 32) :
    (cache.place key data).Counted ↔ cache.loadedSize key = 0 := by
  have stored : (cache.place key data).stored + cache.loadedSize key =
      cache.stored + data.body.length := stored_place
  have size : (cache.place key data).size.toNat =
      (cache.size.toNat + data.body.length) % 2 ^ 32 := by
    rw [place_eq]
    exact toNat_add_ofNat _ _
  have part := cache.loadedSize_le_stored key
  have word := cache.size.toNat_lt
  unfold Counted at counted ⊢
  omega

/-- **The room of `add`** is exact, and holds the entry that stays. -/
theorem Counted.makeRoom {length entries : Nat} (counted : cache.Counted)
    (limited : 0 < cache.maxSize) (made : makeRoom length entries cache = some room) :
    room.Counted ∧ (room.loadedSize key = 0 ↔ (cache.StaysFor key length → cache.loadedSize key = 0)) := by
  refine ⟨(makeRoom_rule Counted
    (fun state key holds _ _ => holds.removes (removes_invalidate state key)) counted made).1, ?_⟩
  have stays := makeRoom_lookup counted.ge made key
  by_cases isThere : ∃ info, cache.cache[key]? = some info ∧ cache.Spared length key info
  · obtain ⟨info, found, spared⟩ := isThere
    have staysFor : cache.StaysFor key length := fun _ => ⟨info, found, spared⟩
    rw [loadedSize_of_some ((stays info).mpr ⟨found, spared⟩), ← loadedSize_of_some found]
    exact ⟨fun nothing _ => nothing, fun only => only staysFor⟩
  · have gone : room.cache[key]? = none := by
      refine Option.eq_none_iff_forall_not_mem.mpr fun info found => ?_
      exact isThere ⟨info, (stays info).mp found⟩
    refine iff_of_true (weightAt_of_none gone) fun staysFor => ?_
    exact absurd (staysFor limited) isThere

/-- **What one event needs** to keep `size` exact. -/
theorem counted_step_iff {event : CacheEvent} (counted : cache.Counted)
    (small : next.stored < 2 ^ 32) (stepped : cache.step event = some next) :
    next.Counted ↔ cache.Counts event := by
  cases stepped_of_step stepped with
  | loading key =>
    have stored : (cache.loading key).stored + cache.loadedSize key = cache.stored := by
      have written : (cache.loading key).stored + cache.loadedSize key =
          cache.stored + (cache.get key).setLoading.stopTimer.loadedSize := stored_put
      rw [written, CacheInfo.loadedSize_of_not_ready _ rfl, Nat.add_zero]
    exact counted_iff_of_size counted stored rfl
  | cancelNone missing => exact iff_of_true counted (weightAt_of_none missing)
  | @cancel key info found =>
    have stored : (cache.put key info.cancelLoading.1).stored + cache.loadedSize key =
        cache.stored := by
      have written : (cache.put key info.cancelLoading.1).stored + cache.loadedSize key =
          cache.stored + info.cancelLoading.1.loadedSize := stored_put
      rw [written, CacheInfo.loadedSize_of_not_ready _ info.cancelLoading_ready, Nat.add_zero]
    exact counted_iff_of_size counted stored rfl
  | addLimited limited made =>
    obtain ⟨isCounted, stays⟩ := counted.makeRoom limited made
    exact (counted_place_iff isCounted small).trans stays
  | @addFree key data free =>
    have staysFor : cache.StaysFor key data.body.length := fun limited => absurd limited free
    refine (counted_place_iff counted small).trans ?_
    exact ⟨fun nothing _ => nothing, fun only => only staysFor⟩
  | clear =>
    have emptied : cache.clear.stored + cache.stored = cache.stored := Nat.zero_add _
    refine (counted_iff_of_size counted emptied rfl).trans ?_
    constructor
    · intro nothing key
      have part := cache.loadedSize_le_stored key
      omega
    · intro nothing
      have each : cache.stored ≤ total (fun _ _ => 0) cache.cache := by
        refine total_le_total fun key info found => ?_
        exact (loadedSize_of_some found).symm.le.trans (nothing key).le
      have zero : total (fun _ _ => 0) cache.cache = 0 := by simp [OrderedMap.total]
      omega
  | invalidate removes | timeout removes => exact iff_of_true (counted.removes removes) trivial
  | unknown missing | answers found isLoaded | elapse time => exact iff_of_true counted trivial
  | @waits key callback argument info found notLoaded =>
    refine iff_of_true ?_ trivial
    have written : (cache.put key (info.addCallback callback ⟨argument, cache.calls⟩)).stored +
        cache.loadedSize key = cache.stored + info.loadedSize := stored_put
    rw [loadedSize_of_some found] at written
    have same : (cache.put key (info.addCallback callback ⟨argument, cache.calls⟩)).stored + 0 =
        cache.stored := Nat.add_right_cancel written
    exact (counted_iff_of_size counted same rfl).mpr rfl

/-- **When the counter is exact**: throughout a run whose stored bytes stay below `2 ^ 32`, `size` is
what the loaded entries hold exactly when every event of the run counts what it takes away. -/
theorem run_counted_iff {maxSize : UInt32} {events : List CacheEvent} {final : Cache}
    (ran : run step { maxSize } events = some final)
    (small : Throughout step (fun cache => cache.stored < 2 ^ 32) { maxSize } events) :
    Throughout step Counted { maxSize } events ↔ Along step Counts { maxSize } events :=
  throughout_iff_along
    (fun _ _ _ _ small counted stepped => counted_step_iff counted small stepped) small rfl ran

/-- With a limit the stored bytes stay below it. -/
theorem throughout_small {maxSize : UInt32} (limited : 0 < maxSize) (events : List CacheEvent) :
    Throughout step (fun cache => cache.stored < 2 ^ 32) { maxSize } events := by
  refine throughout_iff_prefix.mpr fun past _ reached ran => ?_
  have counted := ((run_isBounded ran).2 limited).counted
  exact Nat.lt_of_le_of_lt counted reached.size.toNat_lt

/-- The data is pushed out before it is written again. -/
def countedRun : List CacheEvent :=
  [.add firstKey (textData (text "hello") 100), .add firstKey (textData (text "welcome") 100),
    .invalidate firstKey]

theorem run_counted_iff_countedRun :
    (run step { maxSize := 10 } countedRun).isSome ∧
      (Throughout step Counted { maxSize := 10 } countedRun ↔
        Along step Counts { maxSize := 10 } countedRun) := by
  have returns : (run step { maxSize := 10 } countedRun).isSome := by decide
  obtain ⟨final, ran⟩ := Option.isSome_iff_exists.mp returns
  exact ⟨returns, run_counted_iff ran (throughout_small (by decide) countedRun)⟩

/-- Five bytes are added under a limit of 100, and what comes then leaves `size` wrong. -/
def Miscounts (after : CacheEvent) : Prop :=
  Throughout step (fun cache => cache.stored < 2 ^ 32) { maxSize := 100 }
      [.add firstKey (textData (text "hello") 0), after] ∧
    ∃ final, run step { maxSize := 100 } [.add firstKey (textData (text "hello") 0), after] =
      some final ∧ ¬ final.Counted

/-- The entry is marked as loading, cancelled, cleared or written again: `size` and the bytes of the
loaded entries differ. -/
theorem run_notCounted : Miscounts (.loading firstKey) ∧ Miscounts (.cancel firstKey) ∧
    Miscounts .clear ∧ Miscounts (.add firstKey (textData (text "hey") 0)) := by
  have miscounts : ∀ after : CacheEvent,
      (run step { maxSize := 100 } [.add firstKey (textData (text "hello") 0), after]).any
        (fun final => ¬ final.Counted) = true →
      Throughout step (fun cache => cache.stored < 2 ^ 32) { maxSize := 100 }
        [.add firstKey (textData (text "hello") 0), after] → Miscounts after := by
    intro after wrongly small
    obtain ⟨final, ran, wrong⟩ := (Option.any_eq_true _ _).mp wrongly
    exact ⟨small, final, ran, of_decide_eq_true wrong⟩
  exact ⟨miscounts _ (by decide) (throughout_small (by decide) _),
    miscounts _ (by decide) (throughout_small (by decide) _),
    miscounts _ (by decide) (throughout_small (by decide) _),
    miscounts _ (by decide) (throughout_small (by decide) _)⟩

end Cache

end GemCaps
