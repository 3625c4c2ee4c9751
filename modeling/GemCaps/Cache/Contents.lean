/-
**What the cache holds.**

The cache is a store that may lose what was added to it, but never mixes it up. `run_loaded_iff`: what
it has loaded under a key is the data of an `add` of that key, and no event since has been about the
key, nor has room been made at its cost. `run_timeout_iff`: the timer of a key runs out exactly when the
lifetime of the latest `add` is over, so that no data goes before its time and data without a lifetime
never does. Both read the entry as a register that the events write, keep or clear.
-/

import GemCaps.Library.Register
import GemCaps.Cache.Limit

namespace GemCaps

open Std OrderedMap Transition Register

namespace Cache

variable {cache next room : Cache} {key other : CacheKey} {info : CacheInfo} {data : CachedData}
  {event : CacheEvent}

/-- `get(key)`; none is the exception of `at`. -/
def getData (cache : Cache) (key : CacheKey) : Option CachedData :=
  (cache.cache[key]?).map CacheInfo.data

/-- The data that the cache gives for a key it has loaded. -/
def loaded (cache : Cache) (key : CacheKey) : Option CachedData :=
  if cache.isLoaded key then cache.getData key else none

/-- When the timer of a key is due. -/
def due (cache : Cache) (key : CacheKey) : Option Nat := (cache.cache[key]?).bind CacheInfo.timer

/-- The entry of the key stays when room is made for a body. -/
def StaysBeside (cache : Cache) (length : Nat) (key : CacheKey) : Prop :=
  0 < cache.maxSize → ∀ info ∈ cache.cache[key]?, cache.Spared length key info

instance (cache : Cache) (length : Nat) (key : CacheKey) : Decidable (cache.StaysBeside length key) :=
  inferInstanceAs (Decidable (_ → ∀ info ∈ _, _))

/-- A loaded entry of the key stays loaded. -/
def KeepsLoaded (key : CacheKey) (cache : Cache) : CacheEvent → Prop
  | .add added data => added ≠ key ∧ cache.StaysBeside data.body.length key
  | .loading other | .cancel other | .invalidate other | .timeout other => other ≠ key
  | .clear => False
  | .getNotified _ _ _ | .elapse _ => True

/-- The timer of the key stays as it is; `cancel` does not stop it. -/
def KeepsTimer (key : CacheKey) (cache : Cache) : CacheEvent → Prop
  | .add added data => added ≠ key ∧ cache.StaysBeside data.body.length key
  | .loading other | .invalidate other | .timeout other => other ≠ key
  | .clear => False
  | .cancel _ | .getNotified _ _ _ | .elapse _ => True

/-- The data that an event writes under the key. -/
def addedData (key : CacheKey) (_ : Cache) : CacheEvent → Option CachedData
  | .add added data => if added = key then some data else none
  | _ => none

/-- The time that an event sets the timer of the key to. -/
def addedDue (key : CacheKey) (cache : Cache) : CacheEvent → Option Nat
  | .add added data =>
    if added = key ∧ data.lifetime ≠ 0 then some (cache.now + data.lifetime.toNat) else none
  | _ => none

theorem addedData_eq_some : addedData key cache event = some data ↔ event = .add key data := by
  cases event with
  | add added data' =>
    by_cases same : added = key
    · simp [addedData, same]
    · simp [addedData, same]
  | _ => exact iff_of_false nofun nofun

theorem addedDue_eq_some {time : Nat} : addedDue key cache event = some time ↔
    ∃ data, event = .add key data ∧ data.lifetime ≠ 0 ∧ time = cache.now + data.lifetime.toNat := by
  cases event with
  | add added data =>
    by_cases same : added = key ∧ data.lifetime ≠ 0
    · obtain ⟨rfl, lasts⟩ := same
      simp [addedDue, lasts, eq_comm]
    · rw [addedDue, if_neg same]
      refine iff_of_false nofun ?_
      rintro ⟨_, isAdd, lasts, _⟩
      obtain ⟨rfl, rfl⟩ := CacheEvent.add.inj isAdd
      exact same ⟨rfl, lasts⟩
  | _ => exact iff_of_false nofun (by simp)

/-! ### One entry -/

theorem loaded_eq : cache.loaded key =
    (cache.cache[key]?).bind fun info => if info.isLoaded then some info.data else none := by
  unfold loaded isLoaded getData
  cases cache.cache[key]? with
  | none => rfl
  | some info => rfl

theorem loaded_of_lookup (same : next.cache[key]? = cache.cache[key]?) :
    next.loaded key = cache.loaded key := by
  rw [loaded_eq, loaded_eq, same]

theorem due_of_lookup (same : next.cache[key]? = cache.cache[key]?) : next.due key = cache.due key := by
  rw [due, due, same]

theorem lookup_place_self :
    (cache.place key data).cache[key]? = some (.placed cache.now data) := by
  rw [place_eq]
  exact TreeMap.getElem?_insert_self

theorem lookup_place_of_ne (apart : other ≠ key) :
    (cache.place other data).cache[key]? = cache.cache[key]? := by
  rw [place_eq]
  exact getElem?_insert_of_ne (Ne.symm apart)

theorem lookup_put_self (cache : Cache) (key : CacheKey) (info : CacheInfo) :
    (cache.put key info).cache[key]? = some info := TreeMap.getElem?_insert_self

theorem lookup_put_of_ne (cache : Cache) (apart : other ≠ key) :
    (cache.put other info).cache[key]? = cache.cache[key]? :=
  getElem?_insert_of_ne (Ne.symm apart)

/-- What is known in a run of a cache with a limit. -/
def Known (cache : Cache) : Prop := 0 < cache.maxSize → cache.Bounded

theorem Known.step (known : cache.Known) (stepped : cache.step event = some next) : next.Known := by
  intro limited
  rw [maxSize_step stepped] at limited
  exact (known limited).step limited stepped

theorem known_empty (maxSize : UInt32) : ({ maxSize } : Cache).Known :=
  fun _ => ⟨Nat.zero_le _, UInt32.zero_le, fun _ inside => absurd inside List.not_mem_nil⟩

/-- **Another key is added**: an entry that stays is as it was, any other is gone. -/
theorem lookup_add (known : cache.Known) (added : cache.add other data = some next)
    (apart : other ≠ key) :
    (cache.StaysBeside data.body.length key → next.cache[key]? = cache.cache[key]?) ∧
      (¬ cache.StaysBeside data.body.length key → next.cache[key]? = none) := by
  obtain ⟨room, rfl, ⟨limited, made⟩ | ⟨free, rfl⟩⟩ := add_eq_some added
  · have left := makeRoom_lookup (known limited).counted made key
    rw [lookup_place_of_ne apart]
    constructor
    · intro stays
      refine Option.ext fun info => ?_
      rw [left]
      exact and_iff_left_of_imp fun found => stays limited info found
    · intro goes
      refine Option.eq_none_iff_forall_not_mem.mpr fun info found => goes fun _ infoToo found' => ?_
      obtain ⟨before, spared⟩ := (left info).mp found
      obtain rfl := Option.some.inj (before.symm.trans found')
      exact spared
  · rw [lookup_place_of_ne apart]
    exact ⟨fun _ => rfl, fun goes => absurd (fun limited => absurd limited free) goes⟩

/-- An event that is about another key, and leaves the entry of this one in the cache. -/
def Passes (key : CacheKey) (cache : Cache) : CacheEvent → Prop
  | .add added data => added ≠ key ∧ cache.StaysBeside data.body.length key
  | .loading other | .cancel other | .invalidate other | .timeout other => other ≠ key
  | .getNotified other _ _ => other ≠ key
  | .clear => False
  | .elapse _ => True

/-- **The frame**: such an event does not touch the entry. -/
theorem lookup_of_passes (known : cache.Known) (stepped : cache.step event = some next)
    (passes : Passes key cache event) : next.cache[key]? = cache.cache[key]? := by
  cases event with
  | add added data => exact (lookup_add known stepped passes.1).1 passes.2
  | loading other =>
    obtain rfl := Option.some.inj stepped
    exact lookup_put_of_ne cache passes
  | cancel other =>
    cases stepped_of_step stepped with
    | cancelNone missing => rfl
    | cancel found => exact lookup_put_of_ne cache passes
  | invalidate other =>
    cases stepped_of_step stepped with
    | invalidate removes => exact removes.others key (Ne.symm passes)
  | timeout other =>
    cases stepped_of_step stepped with
    | timeout removes => exact removes.others key (Ne.symm passes)
  | getNotified other callback argument =>
    cases stepped_of_step stepped with
    | unknown missing | answers found isLoaded => rfl
    | waits found notLoaded =>
      exact lookup_put_of_ne { cache with calls := cache.calls + 1 } passes
  | clear => exact passes.elim
  | elapse time =>
    obtain rfl := Option.some.inj stepped
    rfl

/-- `getNotified` leaves the data and the timer of the entry. -/
theorem lookup_getNotified {callback : CacheReadyCB} {argument : Nat}
    (stepped : cache.step (.getNotified key callback argument) = some next) :
    next.loaded key = cache.loaded key ∧ next.due key = cache.due key := by
  cases stepped_of_step stepped with
  | unknown missing | answers found isLoaded => exact ⟨rfl, rfl⟩
  | @waits _ _ _ info found notLoaded =>
    have written : (({ cache with calls := cache.calls + 1 } : Cache).put key
        (info.addCallback callback ⟨argument, cache.calls⟩)).cache[key]? =
          some (info.addCallback callback ⟨argument, cache.calls⟩) := lookup_put_self _ _ _
    rw [loaded_eq, loaded_eq, due, due, written, found]
    exact ⟨rfl, rfl⟩

/-- `cancel` leaves the timer. -/
theorem due_cancel (stepped : cache.step (.cancel key) = some next) : next.due key = cache.due key := by
  cases stepped_of_step stepped with
  | cancelNone missing => rfl
  | @cancel _ info found =>
    have written : ((cache.put key info.cancelLoading.1).invoke info.cancelLoading.2).cache[key]? =
        some info.cancelLoading.1 := lookup_put_self cache _ _
    rw [due, due, written, found]
    unfold CacheInfo.cancelLoading
    cases info.callbacks.toList with
    | nil => rfl
    | cons first rest => rfl

/-- What removes the entry, or leaves it not loaded. -/
theorem loaded_eq_none (known : cache.Known) (stepped : cache.step event = some next)
    (notAdded : addedData key cache event = none) (loses : ¬ KeepsLoaded key cache event) :
    next.loaded key = none := by
  have gone : ∀ {state : Cache}, state.cache[key]? = none → state.loaded key = none := by
    intro state missing
    rw [loaded_eq, missing]
    rfl
  cases event with
  | add added data =>
    have apart : added ≠ key := fun same => by simp [addedData, same] at notAdded
    exact gone ((lookup_add known stepped apart).2 fun stays => loses ⟨apart, stays⟩)
  | loading other =>
    obtain rfl := not_not.mp loses
    obtain rfl := Option.some.inj stepped
    rw [loaded_eq, loading, lookup_put_self]
    rfl
  | cancel other =>
    obtain rfl := not_not.mp loses
    cases stepped_of_step stepped with
    | cancelNone missing => exact gone missing
    | @cancel _ info found =>
      have written : ((cache.put other info.cancelLoading.1).invoke
          info.cancelLoading.2).cache[other]? = some info.cancelLoading.1 :=
        lookup_put_self cache _ _
      rw [loaded_eq, written, Option.bind_some, CacheInfo.isLoaded, CacheInfo.cancelLoading_ready]
      rfl
  | invalidate other =>
    obtain rfl := not_not.mp loses
    cases stepped_of_step stepped with
    | invalidate removes => exact gone removes.self
  | timeout other =>
    obtain rfl := not_not.mp loses
    cases stepped_of_step stepped with
    | timeout removes => exact gone removes.self
  | clear =>
    obtain rfl := Option.some.inj stepped
    exact gone rfl
  | getNotified other callback argument => exact absurd trivial loses
  | elapse time => exact absurd trivial loses

/-- **The loaded data is a register** that `add` writes. -/
theorem follows_loaded (key : CacheKey) :
    Follows step Known (fun cache => cache.loaded key) (addedData key) (KeepsLoaded key) where
  knows _ _ _ known stepped := known.step stepped
  written := by
    intro cache event next data _ stepped written
    obtain rfl := addedData_eq_some.mp written
    obtain ⟨room, rfl, _⟩ := add_eq_some stepped
    rw [loaded_eq, lookup_place_self]
    rfl
  kept := by
    intro cache event next known stepped _ keeps
    cases event with
    | getNotified other callback argument =>
      by_cases same : other = key
      · obtain rfl := same
        exact (lookup_getNotified stepped).1
      · exact loaded_of_lookup (lookup_of_passes known stepped same)
    | add added data => exact loaded_of_lookup (lookup_of_passes known stepped keeps)
    | loading other | cancel other | invalidate other | timeout other =>
      exact loaded_of_lookup (lookup_of_passes known stepped keeps)
    | clear => exact keeps.elim
    | elapse time => exact loaded_of_lookup (lookup_of_passes known stepped trivial)
  cleared _ _ _ known stepped notAdded loses := loaded_eq_none known stepped notAdded loses

/-- What removes the entry, or stops its timer. -/
theorem due_eq_none (known : cache.Known) (stepped : cache.step event = some next)
    (notAdded : addedDue key cache event = none) (loses : ¬ KeepsTimer key cache event) :
    next.due key = none := by
  have gone : ∀ {state : Cache}, state.cache[key]? = none → state.due key = none := by
    intro state missing
    rw [due, missing]
    rfl
  cases event with
  | add added data =>
    by_cases same : added = key
    · obtain rfl := same
      have noLifetime : data.lifetime = 0 := by
        by_contra lasts
        have isAdded : addedDue added cache (.add added data) =
            some (cache.now + data.lifetime.toNat) := addedDue_eq_some.mpr ⟨data, rfl, lasts, rfl⟩
        rw [notAdded] at isAdded
        cases isAdded
      obtain ⟨room, rfl, _⟩ := add_eq_some stepped
      rw [due, lookup_place_self, Option.bind_some, CacheInfo.placed, noLifetime]
      rfl
    · exact gone ((lookup_add known stepped same).2 fun stays => loses ⟨same, stays⟩)
  | loading other =>
    obtain rfl := not_not.mp loses
    obtain rfl := Option.some.inj stepped
    rw [due, loading, lookup_put_self]
    rfl
  | invalidate other =>
    obtain rfl := not_not.mp loses
    cases stepped_of_step stepped with
    | invalidate removes => exact gone removes.self
  | timeout other =>
    obtain rfl := not_not.mp loses
    cases stepped_of_step stepped with
    | timeout removes => exact gone removes.self
  | clear =>
    obtain rfl := Option.some.inj stepped
    exact gone rfl
  | cancel other => exact absurd trivial loses
  | getNotified other callback argument => exact absurd trivial loses
  | elapse time => exact absurd trivial loses

/-- **The timer is a register** that `add` writes. -/
theorem follows_due (key : CacheKey) :
    Follows step Known (fun cache => cache.due key) (addedDue key) (KeepsTimer key) where
  knows _ _ _ known stepped := known.step stepped
  written := by
    intro cache event next time _ stepped written
    obtain ⟨data, rfl, lasts, rfl⟩ := addedDue_eq_some.mp written
    have added : cache.add key data = some next := stepped
    obtain ⟨room, rfl, made⟩ := add_eq_some added
    have sameNow : room.now = cache.now := by
      rcases made with ⟨_, made⟩ | ⟨_, rfl⟩
      · exact (makeRoom_rule (fun state => state.now = cache.now)
          (fun state key holds _ _ => (removes_invalidate state key).now.trans holds) rfl made).1
      · rfl
    rw [due, lookup_place_self, Option.bind_some, CacheInfo.placed, if_pos lasts, sameNow]
  kept := by
    intro cache event next known stepped _ keeps
    cases event with
    | getNotified other callback argument =>
      by_cases same : other = key
      · obtain rfl := same
        exact (lookup_getNotified stepped).2
      · exact due_of_lookup (lookup_of_passes known stepped same)
    | cancel other =>
      by_cases same : other = key
      · obtain rfl := same
        exact due_cancel stepped
      · exact due_of_lookup (lookup_of_passes known stepped same)
    | add added data => exact due_of_lookup (lookup_of_passes known stepped keeps)
    | loading other | invalidate other | timeout other =>
      exact due_of_lookup (lookup_of_passes known stepped keeps)
    | clear => exact keeps.elim
    | elapse time => exact due_of_lookup (lookup_of_passes known stepped trivial)
  cleared _ _ _ known stepped notAdded loses := due_eq_none known stepped notAdded loses

/-! ### Runs -/

theorem leaves_loaded (key : CacheKey) :
    Leaves (addedData key) (KeepsLoaded key) = KeepsLoaded key := by
  funext cache event
  refine propext (and_iff_right_of_imp fun keeps => ?_)
  cases event with
  | add added data => exact if_neg keeps.1
  | _ => rfl

theorem leaves_due (key : CacheKey) : Leaves (addedDue key) (KeepsTimer key) = KeepsTimer key := by
  funext cache event
  refine propext (and_iff_right_of_imp fun keeps => ?_)
  cases event with
  | add added data => exact if_neg fun both => keeps.1 both.1
  | _ => rfl

/-- The time that passes. -/
def elapsed : List CacheEvent → Nat
  | [] => 0
  | .elapse time :: events => time + elapsed events
  | _ :: events => elapsed events

theorem now_step (stepped : cache.step event = some next) :
    next.now = cache.now + elapsed [event] := by
  cases stepped_of_step stepped with
  | addLimited limited made =>
    rw [place_eq]
    exact (makeRoom_rule (fun state => state.now = cache.now)
      (fun state key holds _ _ => (removes_invalidate state key).now.trans holds) rfl made).1
  | addFree free => rw [place_eq]; rfl
  | invalidate removes | timeout removes => exact removes.now
  | _ => rfl

theorem elapsed_cons (event : CacheEvent) (events : List CacheEvent) :
    elapsed (event :: events) = elapsed [event] + elapsed events := by
  cases event <;> simp [elapsed]

theorem run_now {events : List CacheEvent} {start final : Cache}
    (ran : run step start events = some final) : final.now = start.now + elapsed events := by
  induction events generalizing start with
  | nil =>
    rw [run_nil, Option.some.injEq] at ran
    rw [← ran]
    rfl
  | cons event events ih =>
    obtain ⟨next, stepped, rest⟩ := (run_cons_eq_some step).mp ran
    rw [ih rest, now_step stepped, elapsed_cons event events, Nat.add_assoc]

/-- **What is loaded**: in every run, the cache has loaded under a key exactly the data of an `add` of
the key since which no event has been about the key, but for `getNotified`, the cache has not been
cleared, and no other `add` has made room at the cost of the key. -/
theorem run_loaded_iff {maxSize : UInt32} {events : List CacheEvent} {final : Cache}
    (ran : run step { maxSize } events = some final) (key : CacheKey) (data : CachedData) :
    final.loaded key = some data ↔ ∃ before after added,
      events = before ++ .add key data :: after ∧
        run step { maxSize } (before ++ [.add key data]) = some added ∧
        Along step (KeepsLoaded key) added after := by
  rw [(follows_loaded key).run_eq_some_iff (known_empty maxSize) rfl ran, leaves_loaded]
  constructor
  · rintro ⟨before, event, after, middle, next, rfl, ranBefore, stepped, written, along⟩
    obtain rfl := addedData_eq_some.mp written
    exact ⟨before, after, next, rfl, (run_concat_eq_some step).mpr ⟨middle, ranBefore, stepped⟩, along⟩
  · rintro ⟨before, after, added, rfl, ranAdded, along⟩
    obtain ⟨middle, ranBefore, stepped⟩ := (run_concat_eq_some step).mp ranAdded
    exact ⟨before, _, after, middle, added, rfl, ranBefore, stepped,
      addedData_eq_some.mpr rfl, along⟩

theorem run_loaded_iff_fullRun :
    ∃ final, run step { maxSize := 15 } fullRun = some final ∧
      (final.loaded secondKey = some (textData (text "welcome") 50) ↔ ∃ before after added,
        fullRun = before ++ .add secondKey (textData (text "welcome") 50) :: after ∧
          run step { maxSize := 15 } (before ++ [.add secondKey (textData (text "welcome") 50)]) =
            some added ∧
          Along step (KeepsLoaded secondKey) added after) := by
  have returns : (run step { maxSize := 15 } fullRun).isSome := by decide
  obtain ⟨final, ran⟩ := Option.isSome_iff_exists.mp returns
  exact ⟨final, ran, run_loaded_iff ran secondKey _⟩

theorem timeout_isSome_iff : (cache.timeout key).isSome = true ↔ ∃ time ∈ cache.due key, time ≤ cache.now := by
  unfold timeout due
  cases found : cache.cache[key]? with
  | none => simp
  | some info =>
    simp only [Option.bind_some]
    split
    · exact iff_of_true rfl ‹_›
    · exact iff_of_false nofun ‹_›

/-- **When a timer runs out**: in every run, the timer of a key is due exactly when an `add` has put
data with a lifetime there, the lifetime is over, and nothing since has written, removed or reloaded
the key; cancelling it does not count. -/
theorem run_timeout_iff {maxSize : UInt32} {events : List CacheEvent} {final : Cache}
    (ran : run step { maxSize } events = some final) (key : CacheKey) :
    (final.timeout key).isSome = true ↔ ∃ before data after added,
      events = before ++ .add key data :: after ∧
        run step { maxSize } (before ++ [.add key data]) = some added ∧
        Along step (KeepsTimer key) added after ∧
        data.lifetime ≠ 0 ∧ data.lifetime.toNat ≤ elapsed after := by
  have holds : ∀ time, final.due key = some time ↔ _ := fun time =>
    (follows_due key).run_eq_some_iff (known_empty maxSize) rfl ran
  simp only [leaves_due] at holds
  simp only [timeout_isSome_iff, Option.mem_def, holds]
  constructor
  · rintro ⟨time, ⟨before, event, after, middle, next, rfl, ranBefore, stepped, written, along⟩, isDue⟩
    obtain ⟨data, rfl, lasts, rfl⟩ := addedDue_eq_some.mp written
    have ranNext := (run_concat_eq_some step).mpr ⟨middle, ranBefore, stepped⟩
    obtain ⟨_, isMiddle, rest⟩ := (run_append_eq_some step).mp ran
    obtain rfl := Option.some.inj (ranBefore.symm.trans isMiddle)
    obtain ⟨_, isNext, ranAfter⟩ := (run_cons_eq_some step).mp rest
    obtain rfl := Option.some.inj (stepped.symm.trans isNext)
    have atEnd := run_now ranAfter
    have atNext := now_step stepped
    simp only [elapsed] at atNext
    exact ⟨before, data, after, next, rfl, ranNext, along, lasts, by omega⟩
  · rintro ⟨before, data, after, added, rfl, ranAdded, along, lasts, ended⟩
    obtain ⟨middle, ranBefore, stepped⟩ := (run_concat_eq_some step).mp ranAdded
    obtain ⟨_, isMiddle, rest⟩ := (run_append_eq_some step).mp ran
    obtain rfl := Option.some.inj (ranBefore.symm.trans isMiddle)
    obtain ⟨_, isNext, ranAfter⟩ := (run_cons_eq_some step).mp rest
    obtain rfl := Option.some.inj (stepped.symm.trans isNext)
    have atEnd := run_now ranAfter
    have atNext := now_step stepped
    simp only [elapsed] at atNext
    exact ⟨_, ⟨before, _, after, middle, added, rfl, ranBefore, stepped,
      addedDue_eq_some.mpr ⟨data, rfl, lasts, rfl⟩, along⟩, by omega⟩

theorem run_timeout_iff_fullRun :
    ∃ final, run step { maxSize := 15 } (fullRun ++ [.elapse 50]) = some final ∧
      ((final.timeout secondKey).isSome = true ↔ ∃ before data after added,
        fullRun ++ [.elapse 50] = before ++ .add secondKey data :: after ∧
          run step { maxSize := 15 } (before ++ [.add secondKey data]) = some added ∧
          Along step (KeepsTimer secondKey) added after ∧
          data.lifetime ≠ 0 ∧ data.lifetime.toNat ≤ elapsed after) := by
  have returns : (run step { maxSize := 15 } (fullRun ++ [.elapse 50])).isSome := by decide
  obtain ⟨final, ran⟩ := Option.isSome_iff_exists.mp returns
  exact ⟨final, ran, run_timeout_iff ran secondKey⟩

end Cache

end GemCaps
