/-
**Who loads what `getNotified` promises.**

`getNotified` promises a call for every key that is in the cache. `Backed` says that somebody is going
to make it: the key is loaded, or a `loading` has not been answered, or the last `cancel` called a
waiter, who takes the job over. `cancel` does not remove an entry that nobody waits for, though, and
then nobody is left. `run_backed_iff`: the promises of a run are kept exactly when no `cancel` of the
run meets such an entry.
-/

import GemCaps.Cache.Rounds

namespace GemCaps

open Std OrderedMap Transition

namespace Cache

variable {cache next room start : Cache} {key other : CacheKey} {info : CacheInfo}
  {past : List CacheEvent} {event : CacheEvent}

/-- The event answers a `loading` of the key. -/
def Answers (key : CacheKey) : CacheEvent → Prop
  | .add other _ => other = key
  | .cancel other => other = key
  | _ => False

/-- A `loading` of the key has not been answered. -/
def Unanswered (past : List CacheEvent) (key : CacheKey) : Prop :=
  ∃ before after, past = before ++ .loading key :: after ∧ ∀ event ∈ after, ¬ Answers key event

/-- The last `cancel` of the key has called a waiter. -/
def HandedOver (start : Cache) (past : List CacheEvent) (key : CacheKey) : Prop :=
  ∃ before after earlier, past = before ++ .cancel key :: after ∧ .cancel key ∉ after ∧
    run step start before = some earlier ∧ (earlier.cancel key).invoked ≠ earlier.invoked

/-- The promises that are given after these events have somebody behind them. -/
structure Backed (start : Cache) (past : List CacheEvent) (cache : Cache) : Prop where
  promised : ∀ key callback argument, (cache.getNotified key callback argument).1 = true →
    (∃ info, cache.cache[key]? = some info ∧ info.isLoaded = true ∧
      (cache.getNotified key callback argument).2.invoked =
        cache.invoked ++ [⟨callback, ⟨argument, cache.calls⟩, info.data⟩]) ∨
    Unanswered past key ∨ HandedOver start past key
  cancelled : ∀ key before earlier, past = before ++ [.cancel key] →
    run step start before = some earlier →
    (∀ info, earlier.cache[key]? = some info → info.callbacks.toList = []) →
    cache.cache[key]? = none

/-- A `cancel` meets no entry, or one that somebody waits for. -/
def Hands (cache : Cache) : CacheEvent → Prop
  | .cancel key => ∀ info, cache.cache[key]? = some info → info.callbacks.toList ≠ []
  | _ => True

/-! ### The history of a key -/

theorem unanswered_loading (past : List CacheEvent) (key : CacheKey) :
    Unanswered (past ++ [.loading key]) key :=
  ⟨past, [], rfl, fun _ inside => absurd inside List.not_mem_nil⟩

theorem Unanswered.concat (unanswered : Unanswered past key) (other : ¬ Answers key event) :
    Unanswered (past ++ [event]) key := by
  obtain ⟨before, after, rfl, none⟩ := unanswered
  refine ⟨before, after ++ [event], by simp, fun one inside => ?_⟩
  rcases List.mem_append.mp inside with earlier | last
  · exact none one earlier
  · exact List.mem_singleton.mp last ▸ other

theorem HandedOver.concat (handed : HandedOver start past key) (other : ¬ Answers key event) :
    HandedOver start (past ++ [event]) key := by
  obtain ⟨before, after, earlier, rfl, last, ran, called⟩ := handed
  refine ⟨before, after ++ [event], earlier, by simp, fun inside => ?_, ran, called⟩
  rcases List.mem_append.mp inside with before' | isEvent
  · exact last before'
  · exact other (List.mem_singleton.mp isEvent ▸ rfl)

/-- A `cancel` that finds a waiter calls it. -/
theorem handedOver_cancel (ran : run step start past = some cache)
    (found : cache.cache[key]? = some info) (waits : info.callbacks.toList ≠ []) :
    HandedOver start (past ++ [.cancel key]) key := by
  refine ⟨past, [], cache, rfl, List.not_mem_nil, ran, ?_⟩
  rw [cancel_of_some found, CacheInfo.cancelLoading]
  cases waiting : info.callbacks.toList with
  | nil => exact absurd waiting waits
  | cons first rest => simp [invoke, put]

/-! ### Who is left -/

/-- Every entry that is not loaded has somebody who loads it. -/
def Loads (start : Cache) (past : List CacheEvent) (cache : Cache) : Prop :=
  ∀ key info, cache.cache[key]? = some info → info.isLoaded = false →
    Unanswered past key ∨ HandedOver start past key

/-- What `add` leaves unloaded was there before, under another key. -/
theorem unloaded_of_place {data : CachedData}
    (found : (cache.place key data).cache[other]? = some info) (notLoaded : info.isLoaded = false) :
    other ≠ key ∧ cache.cache[other]? = some info := by
  rw [place_eq] at found
  have apart : other ≠ key := by
    rintro rfl
    rw [TreeMap.getElem?_insert_self, Option.some.injEq] at found
    rw [← found] at notLoaded
    exact absurd notLoaded (by simp [CacheInfo.placed, CacheInfo.isLoaded])
  exact ⟨apart, (getElem?_insert_of_ne apart).symm.trans found⟩

/-- **Where an entry that is not loaded comes from**: a `loading` or a `cancel` of its key, or it was
there before. -/
theorem unloaded_of_step (stepped : cache.step event = some next)
    (found : next.cache[other]? = some info) (notLoaded : info.isLoaded = false) :
    event = .loading other ∨ (event = .cancel other ∧ ∃ before, cache.cache[other]? = some before) ∨
      (¬ Answers other event ∧
        ∃ before, cache.cache[other]? = some before ∧ before.isLoaded = false) := by
  cases stepped_of_step stepped with
  | loading key =>
    by_cases same : other = key
    · exact .inl (same ▸ rfl)
    · have before : cache.cache[other]? = some info := (getElem?_insert_of_ne same).symm.trans found
      exact .inr (.inr ⟨not_false, info, before, notLoaded⟩)
  | @cancelNone key missing =>
    refine .inr (.inr ⟨fun same => ?_, info, found, notLoaded⟩)
    obtain rfl : key = other := same
    rw [missing] at found
    cases found
  | @cancel key entry isEntry =>
    by_cases same : other = key
    · subst same
      exact .inr (.inl ⟨rfl, entry, isEntry⟩)
    · have before : cache.cache[other]? = some info := (getElem?_insert_of_ne same).symm.trans found
      exact .inr (.inr ⟨Ne.symm same, info, before, notLoaded⟩)
  | @addLimited key data room limited made =>
    obtain ⟨apart, left⟩ := unloaded_of_place found notLoaded
    obtain ⟨keys, evicts⟩ := exists_evicts_of_makeRoom made
    exact .inr (.inr ⟨Ne.symm apart, info, (evicts.kept left).1, notLoaded⟩)
  | @addFree key data free =>
    obtain ⟨apart, before⟩ := unloaded_of_place found notLoaded
    exact .inr (.inr ⟨Ne.symm apart, info, before, notLoaded⟩)
  | clear => exact absurd found (by simp [clear])
  | invalidate removes | timeout removes =>
    exact .inr (.inr ⟨not_false, info, (removes.kept found).2, notLoaded⟩)
  | unknown missing | answers isEntry isLoaded | elapse time =>
    exact .inr (.inr ⟨not_false, info, found, notLoaded⟩)
  | @waits key callback argument entry isEntry notReady =>
    by_cases same : other = key
    · subst same
      exact .inr (.inr ⟨not_false, entry, isEntry, notReady⟩)
    · have before : cache.cache[other]? = some info := (getElem?_insert_of_ne same).symm.trans found
      exact .inr (.inr ⟨not_false, info, before, notLoaded⟩)

/-- **One event keeps somebody behind every entry**, unless it is a `cancel` that nobody waits for. -/
theorem loads_step (ran : run step start past = some cache) (loads : Loads start past cache)
    (hands : Hands cache event) (stepped : cache.step event = some next) :
    Loads start (past ++ [event]) next := by
  intro key info found notLoaded
  rcases unloaded_of_step stepped found notLoaded with rfl | ⟨rfl, before, isEntry⟩ |
    ⟨other, before, isEntry, unready⟩
  · exact .inl (unanswered_loading past key)
  · exact .inr (handedOver_cancel ran isEntry (hands before isEntry))
  · exact (loads key before isEntry unready).imp (fun held => held.concat other)
      (fun held => held.concat other)

/-- A run that meets the condition has somebody behind every entry. -/
theorem run_loads {maxSize : UInt32} {events : List CacheEvent}
    (hands : Along step Hands { maxSize } events) {final : Cache}
    (ran : run step { maxSize } events = some final) : Loads { maxSize } events final := by
  induction events using List.reverseRecOn generalizing final with
  | nil =>
    obtain rfl := Option.some.inj ran
    intro key info found
    simp at found
  | append_singleton past event ih =>
    obtain ⟨middle, before, last⟩ := (run_concat_eq_some step).mp ran
    obtain ⟨earlier, met⟩ := along_append step hands before
    exact loads_step before (ih earlier before) met.1 last

/-! ### The promises -/

/-- Entries with somebody behind them back the promises. -/
theorem Loads.backed (loads : Loads start past cache) (ran : run step start past = some cache)
    (hands : Along step Hands start past) : Backed start past cache := by
  refine ⟨fun key callback argument promised => ?_, fun key before earlier isPast ranBefore none => ?_⟩
  · cases found : cache.cache[key]? with
    | none =>
      rw [getNotified_of_none found] at promised
      cases promised
    | some info =>
      cases isLoaded : info.isLoaded with
      | true =>
        refine .inl ⟨info, rfl, isLoaded, ?_⟩
        rw [getNotified_of_loaded found isLoaded]
        rfl
      | false => exact .inr (loads key info found isLoaded)
  · subst isPast
    have met := along_iff_reached step |>.mp hands before (.cancel key) [] rfl earlier ranBefore
    have missing : earlier.cache[key]? = .none := by
      refine Option.eq_none_iff_forall_not_mem.mpr fun info found => ?_
      exact met info found (none info found)
    obtain ⟨middle, ranMiddle, last⟩ := (run_concat_eq_some step).mp ran
    obtain rfl := Option.some.inj (ranMiddle.symm.trans ranBefore)
    obtain rfl := Option.some.inj last
    rw [cancel_of_none missing]
    exact missing

/-- **When every promise has a loader behind it**: at each point of a run, exactly if each `cancel` of
the run meets no entry, or one that somebody waits for. -/
theorem run_backed_iff {maxSize : UInt32} {events : List CacheEvent} {final : Cache}
    (ran : run step { maxSize } events = some final) :
    (∀ past, past <+: events → ∀ reached, run step { maxSize } past = some reached →
        Backed { maxSize } past reached) ↔ Along step Hands { maxSize } events := by
  constructor
  · intro backed
    refine (along_iff_reached step).mpr fun past event rest split reached ranPast => ?_
    cases event with
    | cancel key =>
      intro info found none
      have isPrefix : past ++ [.cancel key] <+: events := ⟨rest, by simp [split]⟩
      have ranCancel : run step { maxSize } (past ++ [.cancel key]) = some (reached.cancel key) :=
        (run_concat_eq_some step).mpr ⟨reached, ranPast, rfl⟩
      have gone := (backed _ isPrefix _ ranCancel).cancelled key past reached rfl ranPast
        fun other isOther => by
          obtain rfl := Option.some.inj (found.symm.trans isOther)
          exact none
      rw [cancel_of_some found] at gone
      have still : ((reached.put key info.cancelLoading.1).invoke info.cancelLoading.2).cache[key]? =
          some info.cancelLoading.1 := TreeMap.getElem?_insert_self
      rw [still] at gone
      cases gone
    | _ => exact trivial
  · rintro hands past ⟨rest, rfl⟩ reached ranPast
    have earlier := (along_append step hands ranPast).1
    exact (run_loads earlier ranPast).backed ranPast earlier

/-- A waiter takes the job over. -/
def handedRun : List CacheEvent :=
  [.loading firstKey, .getNotified firstKey 1 2, .cancel firstKey, .getNotified firstKey 3 4]

theorem run_backed_handedRun :
    (run step { maxSize := 0 } handedRun).isSome ∧
      ((∀ past, past <+: handedRun → ∀ reached, run step { maxSize := 0 } past = some reached →
        Backed { maxSize := 0 } past reached) ↔ Along step Hands { maxSize := 0 } handedRun) := by
  have returns : (run step { maxSize := 0 } handedRun).isSome := by decide
  obtain ⟨final, ran⟩ := Option.isSome_iff_exists.mp returns
  exact ⟨returns, run_backed_iff ran⟩

/-- Nobody waits when the job is cancelled, and the next request waits for nobody. -/
theorem run_notBacked :
    ∃ final, run step { maxSize := 0 } [.loading firstKey, .cancel firstKey] = some final ∧
      (final.getNotified firstKey 1 2).1 = true ∧
      ¬ Backed { maxSize := 0 } [.loading firstKey, .cancel firstKey] final := by
  refine ⟨_, rfl, by decide, fun backed => ?_⟩
  have marked : ∀ info, (({ maxSize := 0 } : Cache).loading firstKey).cache[firstKey]? = some info →
      info.callbacks.toList = [] := by
    intro info found
    rw [loading, put, TreeMap.getElem?_insert_self, Option.some.injEq] at found
    exact found ▸ rfl
  have gone := backed.cancelled firstKey [.loading firstKey] _ rfl rfl marked
  have still : ((({ maxSize := 0 } : Cache).loading firstKey).cancel firstKey).cache[firstKey]?.isSome =
      true := by decide
  exact absurd (congrArg Option.isSome gone) (by rw [still]; decide)

end Cache

end GemCaps
