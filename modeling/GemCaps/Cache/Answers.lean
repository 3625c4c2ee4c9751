/-
**Who is given what.**

A callback that the cache calls has been handed over by a call of `getNotified` (`Asked`), and is given
data of the key which that call was about: what an `add` of the key brings, what is loaded under the
key, or, where a load is cancelled, what the entry of the key has (`run_invoked`).
-/

import GemCaps.Cache.Contents
import GemCaps.Cache.Waiters

namespace GemCaps

open Std OrderedMap Transition

namespace Cache

variable {cache next : Cache} {key : CacheKey} {info : CacheInfo} {event : CacheEvent}
  {past : List CacheEvent} {callback : CacheReadyCB} {waiter : Waiter}

/-- The call of `getNotified` with this number was for the key, with this callback and argument. -/
def Asked (past : List CacheEvent) (key : CacheKey) (callback : CacheReadyCB) (waiter : Waiter) : Prop :=
  ∃ earlier later, past = earlier ++ .getNotified key callback waiter.argument :: later ∧
    (earlier.map numbersTaken).sum = waiter.call

/-- How a callback came to be called: the event that called it, and the key it was about. -/
def Answered (start : Cache) (past : List CacheEvent) (one : Invocation) : Prop :=
  ∃ before event after reached key, past = before ++ event :: after ∧
    run step start before = some reached ∧
    Asked (before ++ [event]) key one.callback one.waiter ∧
    (event = .add key one.data ∨
      event = .getNotified key one.callback one.waiter.argument ∧ reached.loaded key = some one.data ∨
      event = .cancel key ∧ reached.getData key = some one.data)

theorem Asked.concat (asked : Asked past key callback waiter) (event : CacheEvent) :
    Asked (past ++ [event]) key callback waiter := by
  obtain ⟨earlier, later, rfl, isCall⟩ := asked
  exact ⟨earlier, later ++ [event], by rw [List.append_assoc, List.cons_append], isCall⟩

theorem Answered.concat {start : Cache} {one : Invocation} (answered : Answered start past one)
    (event : CacheEvent) : Answered start (past ++ [event]) one := by
  obtain ⟨before, by_, after, reached, key, rfl, rest⟩ := answered
  exact ⟨before, by_, after ++ [event], reached, key,
    by rw [List.append_assoc, List.cons_append], rest⟩

/-- What holds of the waiters and of the calls made so far. -/
structure Addressed (start : Cache) (past : List CacheEvent) (cache : Cache) : Prop where
  calls : (past.map numbersTaken).sum = cache.calls
  waiting : ∀ (key : CacheKey) (info : CacheInfo), cache.cache[key]? = some info →
    ∀ (callback : CacheReadyCB) (waiter : Waiter), info.callbacks[callback]? = some waiter →
      Asked past key callback waiter
  called : ∀ one ∈ cache.invoked, Answered start past one

namespace Addressed

variable {start : Cache}

/-- One more event: what waits was waiting or is asked for by it, what is called was called or is
answered by it. -/
theorem extend (addressed : Addressed start past cache)
    (calls : next.calls = cache.calls + numbersTaken event)
    (waiting : ∀ (key : CacheKey) (info : CacheInfo), next.cache[key]? = some info →
      ∀ (callback : CacheReadyCB) (waiter : Waiter), info.callbacks[callback]? = some waiter →
        (∃ before : CacheInfo, cache.cache[key]? = some before ∧
          before.callbacks[callback]? = some waiter) ∨
        Asked (past ++ [event]) key callback waiter)
    (called : ∀ one ∈ next.invoked, one ∈ cache.invoked ∨ Answered start (past ++ [event]) one) :
    Addressed start (past ++ [event]) next := by
  refine ⟨?_, fun key info found callback waiter waits => ?_, fun one inside => ?_⟩
  · rw [List.map_append, List.sum_append, addressed.calls, calls]
    simp
  · rcases waiting key info found callback waiter waits with ⟨before, isBefore, same⟩ | asked
    · exact (addressed.waiting key before isBefore callback waiter same).concat event
    · exact asked
  · rcases called one inside with isOld | answered
    · exact (addressed.called one isOld).concat event
    · exact answered

/-- Entries that are as they were. -/
theorem of_kept (addressed : Addressed start past cache) (event : CacheEvent)
    (takes : numbersTaken event = 0) (calls : next.calls = cache.calls)
    (invoked : next.invoked = cache.invoked)
    (kept : ∀ (key : CacheKey) (info : CacheInfo), next.cache[key]? = some info →
      cache.cache[key]? = some info) : Addressed start (past ++ [event]) next := by
  refine addressed.extend (by rw [calls, takes]; rfl) (fun key info found callback waiter waits => ?_)
    fun one inside => .inl (invoked ▸ inside)
  exact .inl ⟨info, kept key info found, waits⟩

/-- The call that an event makes now. -/
theorem asked_now (addressed : Addressed start past cache) (key : CacheKey) (callback : CacheReadyCB)
    (argument : Nat) :
    Asked (past ++ [.getNotified key callback argument]) key callback ⟨argument, cache.calls⟩ :=
  ⟨past, [], rfl, addressed.calls⟩

theorem answered_now (addressed : Addressed start past cache) (ran : run step start past = some cache)
    {one : Invocation} (found : cache.cache[key]? = some info)
    (waits : info.callbacks[one.callback]? = some one.waiter)
    (how : event = .add key one.data ∨ event = .cancel key ∧ info.data = one.data) :
    Answered start (past ++ [event]) one := by
  refine ⟨past, event, [], cache, key, rfl, ran, ?_, ?_⟩
  · exact (addressed.waiting key info found _ _ waits).concat event
  · rcases how with isAdd | ⟨isCancel, isData⟩
    · exact .inl isAdd
    · exact .inr (.inr ⟨isCancel, by rw [getData, found, Option.map_some, isData]⟩)

/-- **`add`**: it calls the waiters of the key, with the data it brings. -/
theorem place {data : CachedData} {room : Cache} (addressed : Addressed start past cache)
    (ran : run step start past = some cache)
    (kept : ∀ (other : CacheKey) (info : CacheInfo), room.cache[other]? = some info →
      cache.cache[other]? = some info)
    (calls : room.calls = cache.calls) (invoked : room.invoked = cache.invoked) :
    Addressed start (past ++ [.add key data]) (room.place key data) := by
  refine addressed.extend (by rw [place_eq]; exact calls) ?_ ?_
  · intro other info found callback waiter waits
    by_cases same : key = other
    · subst same
      rw [lookup_place_self, Option.some.injEq] at found
      rw [← found] at waits
      cases waits.symm.trans TreeMap.getElem?_emptyc
    · rw [lookup_place_of_ne same] at found
      exact .inl ⟨info, kept other info found, waits⟩
  · intro one inside
    rw [place_eq] at inside
    rcases List.mem_append.mp inside with isOld | isNew
    · exact .inl (invoked ▸ isOld)
    · obtain ⟨⟨callback, waiter⟩, waits, rfl⟩ := List.mem_map.mp isNew
      have waits := TreeMap.mem_toList_iff_getElem?_eq_some.mp waits
      unfold get at waits
      cases found : room.cache[key]? with
      | none =>
        rw [found] at waits
        cases waits.symm.trans TreeMap.getElem?_emptyc
      | some info =>
        rw [found] at waits
        exact .inr (addressed.answered_now ran (kept key info found) waits (.inl rfl))

/-- **`cancel`**: it calls the first waiter, with the data of the entry. -/
theorem cancel (addressed : Addressed start past cache) (ran : run step start past = some cache)
    (found : cache.cache[key]? = some info) :
    Addressed start (past ++ [.cancel key])
      ((cache.put key info.cancelLoading.1).invoke info.cancelLoading.2) := by
  -- The entry keeps all waiters but the first; this one is called.
  have fewer : ∀ (callback : CacheReadyCB) (waiter : Waiter),
      info.cancelLoading.1.callbacks[callback]? = some waiter → info.callbacks[callback]? = some waiter := by
    intro callback waiter waits
    unfold CacheInfo.cancelLoading at waits
    cases entries : info.callbacks.toList with
    | nil => simpa only [entries] using waits
    | cons first rest =>
      simp only [entries, TreeMap.getElem?_erase] at waits
      split at waits
      case isTrue => cases waits
      case isFalse => exact waits
  have waited : ∀ one ∈ info.cancelLoading.2,
      info.callbacks[one.callback]? = some one.waiter ∧ info.data = one.data := by
    intro one inside
    unfold CacheInfo.cancelLoading at inside
    cases entries : info.callbacks.toList with
    | nil =>
      simp only [entries] at inside
      exact absurd inside List.not_mem_nil
    | cons first rest =>
      simp only [entries, List.mem_singleton] at inside
      subst inside
      refine ⟨TreeMap.mem_toList_iff_getElem?_eq_some.mp ?_, rfl⟩
      rw [entries]
      exact List.mem_cons_self
  refine addressed.extend rfl ?_ ?_
  · intro other infoToo foundToo callback waiter waits
    by_cases same : key = other
    · subst same
      have written : (cache.put key info.cancelLoading.1).cache[key]? = some infoToo := foundToo
      rw [lookup_put_self, Option.some.injEq] at written
      subst written
      exact .inl ⟨info, found, fewer callback waiter waits⟩
    · have untouched : (cache.put key info.cancelLoading.1).cache[other]? = some infoToo := foundToo
      rw [lookup_put_of_ne _ same] at untouched
      exact .inl ⟨infoToo, untouched, waits⟩
  · intro one inside
    rcases List.mem_append.mp inside with isOld | isNew
    · exact .inl isOld
    · obtain ⟨waits, isData⟩ := waited one isNew
      exact .inr (addressed.answered_now ran found waits (.inr ⟨rfl, isData⟩))

/-- **`getNotified`**, of a key that is loaded. -/
theorem answers {argument : Nat} (addressed : Addressed start past cache)
    (ran : run step start past = some cache) (found : cache.cache[key]? = some info)
    (isLoaded : info.isLoaded = true) :
    Addressed start (past ++ [.getNotified key callback argument])
      (({ cache with calls := cache.calls + 1 } : Cache).invoke
        [⟨callback, ⟨argument, cache.calls⟩, info.data⟩]) := by
  refine addressed.extend rfl (fun other other' foundToo callback waiter waits =>
    .inl ⟨other', foundToo, waits⟩) fun one inside => ?_
  rcases List.mem_append.mp inside with isOld | isNew
  · exact .inl isOld
  · obtain rfl := List.mem_singleton.mp isNew
    refine .inr ⟨past, _, [], cache, key, rfl, ran, addressed.asked_now key callback argument, ?_⟩
    refine .inr (.inl ⟨rfl, ?_⟩)
    rw [loaded_eq, found, Option.bind_some, if_pos isLoaded]

/-- **`getNotified`**, of a key that is not. -/
theorem waits {argument : Nat} (addressed : Addressed start past cache)
    (found : cache.cache[key]? = some info) :
    Addressed start (past ++ [.getNotified key callback argument])
      (({ cache with calls := cache.calls + 1 } : Cache).put key
        (info.addCallback callback ⟨argument, cache.calls⟩)) := by
  refine addressed.extend rfl ?_ fun one inside => .inl inside
  intro other infoToo foundToo callbackToo waiter waits
  by_cases same : key = other
  · subst same
    rw [lookup_put_self, Option.some.injEq] at foundToo
    subst foundToo
    unfold CacheInfo.addCallback at waits
    rw [TreeMap.getElem?_insert] at waits
    split at waits
    case isTrue isSame =>
      obtain rfl := Option.some.inj waits
      obtain rfl := LawfulEqOrd.eq_of_compare isSame
      exact .inr (addressed.asked_now key callback argument)
    case isFalse => exact .inl ⟨info, found, waits⟩
  · rw [lookup_put_of_ne _ same] at foundToo
    exact .inl ⟨infoToo, foundToo, waits⟩

/-- **One event.** -/
theorem step (addressed : Addressed start past cache) (ran : run Cache.step start past = some cache)
    (stepped : cache.step event = some next) : Addressed start (past ++ [event]) next := by
  cases stepped_of_step stepped with
  | loading key =>
    refine addressed.extend rfl ?_ fun one inside => .inl inside
    intro other info found callback waiter waits
    by_cases same : key = other
    · subst same
      rw [loading, lookup_put_self, Option.some.injEq] at found
      subst found
      have waits : (cache.get key).callbacks[callback]? = some waiter := waits
      unfold get at waits
      cases held : cache.cache[key]? with
      | none =>
        rw [held] at waits
        cases waits.symm.trans TreeMap.getElem?_emptyc
      | some before =>
        rw [held] at waits
        exact .inl ⟨before, rfl, waits⟩
    · rw [loading, lookup_put_of_ne _ same] at found
      exact .inl ⟨info, found, waits⟩
  | cancelNone missing => exact addressed.of_kept _ rfl rfl rfl fun _ _ found => found
  | cancel found => exact addressed.cancel ran found
  | @addLimited key data room limited made =>
    have fromLoop := (makeRoom_rule (fun state => state.calls = cache.calls ∧
      state.invoked = cache.invoked ∧ ∀ (other : CacheKey) (info : CacheInfo),
        state.cache[other]? = some info → cache.cache[other]? = some info)
      (fun state key holds _ _ => by
        have removes := removes_invalidate state key
        exact ⟨removes.calls.trans holds.1, removes.invoked.trans holds.2.1,
          fun other info found => holds.2.2 other info (removes.kept found).2⟩)
      ⟨rfl, rfl, fun _ _ found => found⟩ made).1
    exact addressed.place ran fromLoop.2.2 fromLoop.1 fromLoop.2.1
  | addFree free => exact addressed.place ran (fun _ _ found => found) rfl rfl
  | clear =>
    refine addressed.of_kept _ rfl rfl rfl fun key info found => ?_
    cases found.symm.trans TreeMap.getElem?_emptyc
  | invalidate removes | timeout removes =>
    exact addressed.of_kept _ rfl removes.calls removes.invoked fun _ _ found =>
      (removes.kept found).2
  | @unknown key callback argument missing =>
    exact addressed.extend rfl (fun other info found callback waiter waits =>
      .inl ⟨info, found, waits⟩) fun one inside => .inl inside
  | answers found isLoaded => exact addressed.answers ran found isLoaded
  | waits found notLoaded => exact addressed.waits found
  | elapse time => exact addressed.of_kept _ rfl rfl rfl fun _ _ found => found

end Addressed

/-- **Nobody is given the data of another key**: in every run, each callback that the cache has called
was handed over by a call of `getNotified` for some key, and was called with the data of this key: by
an `add` of the key with just these data, from what was loaded under the key when it asked, or, where
the load was cancelled, with what the entry of the key had. -/
theorem run_invoked {maxSize : UInt32} {events : List CacheEvent} {final : Cache}
    (ran : run step { maxSize } events = some final) :
    ∀ one ∈ final.invoked, Answered { maxSize } events one := by
  have both : run step { maxSize } events = some final ∧ Addressed { maxSize } events final := by
    refine run_history (fun past cache => run step { maxSize } past = some cache ∧
      Addressed { maxSize } past cache) ⟨rfl, rfl, ?_, fun _ inside => absurd inside List.not_mem_nil⟩
      ?_ ran
    · intro key info found
      cases found.symm.trans TreeMap.getElem?_emptyc
    · intro past cache event next both stepped
      exact ⟨(run_concat_eq_some step).mpr ⟨cache, both.1, stepped⟩, both.2.step both.1 stepped⟩
  exact both.2.called

theorem run_invoked_fullRun :
    ∃ final, run step { maxSize := 15 } (fullRun ++ [.getNotified secondKey 7 1]) = some final ∧
      final.invoked ≠ [] ∧
      ∀ one ∈ final.invoked, Answered { maxSize := 15 } (fullRun ++ [.getNotified secondKey 7 1]) one := by
  have returns : ((run step { maxSize := 15 } (fullRun ++ [.getNotified secondKey 7 1])).any
      fun final => decide (final.invoked ≠ [])) = true := by decide
  obtain ⟨final, ran, called⟩ := (Option.any_eq_true _ _).mp returns
  exact ⟨final, ran, of_decide_eq_true called, run_invoked ran⟩

end Cache

end GemCaps
