/-
**No waiter is lost.**

For any selection of waiters, the number of those that wait and of the calls that were made to them
never grows but by a new waiter (`selected_step`), so that no call of `getNotified` is answered twice.
For one key it does not shrink either, unless a function is overwritten or an entry with waiters is
evicted (`Spares`, `selectedAt_step`). The next `add` of the key turns those that wait into calls:
`Cache.run_notified`.
-/

import GemCaps.Cache.Limit

namespace GemCaps

open Std OrderedMap Transition

section Selection

variable (selects : CacheReadyCB → Waiter → Bool)

/-- The selected waiters of an entry. -/
def CacheInfo.waiting (info : CacheInfo) : Nat :=
  total (fun callback waiter => (selects callback waiter).toNat) info.callbacks

/-- The selected waiters among those that were called. -/
def answered (invocations : List Invocation) : Nat :=
  (invocations.map fun one => (selects one.callback one.waiter).toNat).sum

namespace Cache

/-- The selected waiters, waiting or called. -/
def selected (cache : Cache) : Nat :=
  total (fun _ info => info.waiting selects) cache.cache + answered selects cache.invoked

/-- Those that wait for the key, or were called. -/
def selectedAt (key : CacheKey) (cache : Cache) : Nat :=
  weightAt (fun _ info => info.waiting selects) cache.cache key + answered selects cache.invoked

end Cache

variable {selects} {first second : List Invocation} {info : CacheInfo}

theorem answered_append :
    answered selects (first ++ second) = answered selects first + answered selects second := by
  unfold answered
  rw [List.map_append, List.sum_append]

/-- **`setLoaded` calls every waiter.** -/
theorem answered_setLoaded (data : CachedData) :
    answered selects (info.callbacks.toList.map fun pair => ⟨pair.1, pair.2, data⟩) =
      info.waiting selects := by
  unfold answered CacheInfo.waiting total
  rw [List.map_map]
  rfl

/-- **`cancelLoading` calls the first, and the others wait on.** -/
theorem waiting_cancelLoading :
    info.cancelLoading.1.waiting selects + answered selects info.cancelLoading.2 =
      info.waiting selects := by
  unfold CacheInfo.cancelLoading
  cases entries : info.callbacks.toList with
  | nil => exact Nat.add_zero _
  | cons first rest =>
    have found : info.callbacks[first.1]? = some first.2 := by
      refine TreeMap.mem_toList_iff_getElem?_eq_some.mp ?_
      rw [entries]
      exact List.mem_cons_self
    have erased : total (fun callback waiter => (selects callback waiter).toNat)
          (info.callbacks.erase first.1) +
        weightAt (fun callback waiter => (selects callback waiter).toNat) info.callbacks first.1 =
        info.waiting selects := total_erase
    rw [weightAt_of_some found] at erased
    exact erased

/-- **`addCallback` adds a waiter**, and drops the one that had the function. -/
theorem waiting_addCallback {callback : CacheReadyCB} {waiter : Waiter} :
    (info.addCallback callback waiter).waiting selects +
        weightAt (fun callback waiter => (selects callback waiter).toNat) info.callbacks callback =
      info.waiting selects + (selects callback waiter).toNat :=
  total_insert

namespace Cache

variable {cache next room : Cache} {key other : CacheKey} {data : CachedData}

/-! ### Nothing is answered twice -/

theorem Removes.selected_le (removes : Removes cache next key) :
    next.selected selects ≤ cache.selected selects := by
  have waiting := removes.total fun _ info => info.waiting selects
  unfold selected
  rw [removes.invoked]
  omega

/-- An entry is written back. -/
theorem selected_put :
    (cache.put key info).selected selects + (cache.get key).waiting selects =
      cache.selected selects + info.waiting selects := by
  have held : weightAt (fun _ info => info.waiting selects) cache.cache key =
      (cache.get key).waiting selects := weightAt_get total_empty
  have written : total (fun _ info => info.waiting selects) (cache.cache.insert key info) +
      weightAt (fun _ info => info.waiting selects) cache.cache key =
      total (fun _ info => info.waiting selects) cache.cache + info.waiting selects := total_insert
  unfold selected put
  simp only
  omega

/-- Callbacks are called. -/
theorem selected_invoke (invocations : List Invocation) :
    (cache.invoke invocations).selected selects =
      cache.selected selects + answered selects invocations := by
  unfold selected invoke
  rw [answered_append, Nat.add_assoc]

/-- **`add` calls all waiters of its key.** -/
theorem selected_place : (cache.place key data).selected selects = cache.selected selects := by
  have written : (cache.put key (.placed cache.now data)).selected selects +
      (cache.get key).waiting selects = cache.selected selects + 0 := selected_put
  have called : (cache.place key data).selected selects =
      (cache.put key (.placed cache.now data)).selected selects + (cache.get key).waiting selects := by
    rw [place_eq, ← answered_setLoaded data]
    unfold selected put
    simp only [answered_append]
    rw [Nat.add_assoc]
  omega

/-- The waiter that an event asks for, if it is selected. -/
def asked (selects : CacheReadyCB → Waiter → Bool) (cache : Cache) : CacheEvent → Nat
  | .getNotified _ callback argument => (selects callback ⟨argument, cache.calls⟩).toNat
  | _ => 0

/-- The numbers of calls that an event takes. -/
def numbersTaken : CacheEvent → Nat
  | .getNotified _ _ _ => 1
  | _ => 0

/-- The room of `add`: no waiter comes, and nothing is called. -/
theorem selected_makeRoom {length entries : Nat} (made : makeRoom length entries cache = some room) :
    room.selected selects ≤ cache.selected selects ∧ room.calls = cache.calls ∧
      room.invoked = cache.invoked := by
  refine (makeRoom_rule (fun state => state.selected selects ≤ cache.selected selects ∧
    state.calls = cache.calls ∧ state.invoked = cache.invoked) ?_ ⟨Nat.le_refl _, rfl, rfl⟩ made).1
  rintro state first ⟨fewer, calls, invoked⟩ _ _
  have removes := removes_invalidate state first
  exact ⟨removes.selected_le.trans fewer, removes.calls.trans calls, removes.invoked.trans invoked⟩

/-- **No event answers a waiter that was not there**, or that was answered. -/
theorem selected_step {event : CacheEvent} (stepped : cache.step event = some next) :
    next.selected selects ≤ cache.selected selects + asked selects cache event ∧
      next.calls = cache.calls + numbersTaken event := by
  cases stepped_of_step stepped with
  | loading key =>
    have written : (cache.loading key).selected selects + (cache.get key).waiting selects =
        cache.selected selects + (cache.get key).waiting selects := selected_put
    exact ⟨(Nat.add_right_cancel written).le, rfl⟩
  | cancelNone missing | elapse time => exact ⟨Nat.le_refl _, rfl⟩
  | @cancel key info found =>
    have written : (cache.put key info.cancelLoading.1).selected selects +
        (cache.get key).waiting selects =
        cache.selected selects + info.cancelLoading.1.waiting selects := selected_put
    have called : info.cancelLoading.1.waiting selects + answered selects info.cancelLoading.2 =
        info.waiting selects := waiting_cancelLoading
    rw [get_of_some found] at written
    rw [selected_invoke]
    refine ⟨?_, rfl⟩
    show _ ≤ _ + 0
    omega
  | addLimited limited made =>
    obtain ⟨fewer, calls, _⟩ := selected_makeRoom made
    rw [selected_place]
    refine ⟨fewer, ?_⟩
    rw [place_eq]
    exact calls
  | addFree free =>
    rw [selected_place]
    refine ⟨Nat.le_refl _, ?_⟩
    rw [place_eq]
    rfl
  | clear =>
    refine ⟨?_, rfl⟩
    show 0 + answered selects cache.invoked ≤ _ + 0
    unfold selected
    omega
  | invalidate removes | timeout removes => exact ⟨removes.selected_le, removes.calls⟩
  | unknown missing => exact ⟨Nat.le_add_right _ _, rfl⟩
  | answers found isLoaded =>
    rw [selected_invoke]
    exact ⟨Nat.le_refl _, rfl⟩
  | @waits key callback argument info found notLoaded =>
    have written : (cache.put key (info.addCallback callback ⟨argument, cache.calls⟩)).selected
        selects + (cache.get key).waiting selects = cache.selected selects +
        (info.addCallback callback ⟨argument, cache.calls⟩).waiting selects := selected_put
    have added : (info.addCallback callback ⟨argument, cache.calls⟩).waiting selects + _ =
        info.waiting selects + (selects callback ⟨argument, cache.calls⟩).toNat :=
      waiting_addCallback
    rw [get_of_some found] at written
    refine ⟨?_, rfl⟩
    show (cache.put key _).selected selects ≤ _ + (selects callback ⟨argument, cache.calls⟩).toNat
    omega

/-- **Each call of `getNotified` has one waiter or one answer at most**, in every run. -/
theorem run_selected_le {maxSize : UInt32} {events : List CacheEvent} {final : Cache}
    (ran : run step { maxSize } events = some final) (call : Nat) :
    final.selected (fun _ waiter => waiter.call == call) ≤ if call < final.calls then 1 else 0 := by
  refine run_always
    (fun cache => cache.selected (fun _ waiter => waiter.call == call) ≤
      if call < cache.calls then 1 else 0) ?_ (Nat.zero_le _) ran
  intro cache event next few stepped
  obtain ⟨fewer, calls⟩ : next.selected (fun _ waiter => waiter.call == call) ≤ _ ∧ _ :=
    selected_step stepped
  cases event with
  | getNotified key callback argument =>
    simp only [asked, numbersTaken] at fewer calls
    rw [calls]
    by_cases same : cache.calls = call
    · rw [if_neg (by omega)] at few
      rw [if_pos (by omega)]
      have one := Bool.toNat_le (cache.calls == call)
      omega
    · rw [beq_eq_false_iff_ne.mpr same, Bool.toNat_false] at fewer
      split at few
      case isTrue before =>
        rw [if_pos (by omega)]
        omega
      case isFalse =>
        have none : cache.selected (fun _ waiter => waiter.call == call) = 0 := by omega
        omega
  | _ =>
    rw [show next.calls = cache.calls from calls]
    exact fewer.trans few

/-! ### No waiter of a key is dropped -/

/-- No function that waits is overwritten, and no entry with waiters is evicted. -/
def Spares (cache : Cache) : CacheEvent → Prop
  | .getNotified key callback _ =>
    ∀ info ∈ cache.cache[key]?, info.isLoaded = false → info.callbacks[callback]? = none
  | .add _ data => 0 < cache.maxSize → ∀ entry ∈ cache.cache.toList,
      entry.2.callbacks.isEmpty = false → cache.Spared data.body.length entry.1 entry.2
  | _ => True

instance (cache : Cache) : (event : CacheEvent) → Decidable (cache.Spares event)
  | .getNotified _ _ _ => inferInstanceAs (Decidable (∀ info ∈ _, _))
  | .add _ _ => inferInstanceAs (Decidable (_ → _))
  | .loading _ | .cancel _ | .clear | .invalidate _ | .timeout _ | .elapse _ => .isTrue trivial

/-- The events that end the wait for a key. -/
def Ends (key : CacheKey) : CacheEvent → Prop
  | .add added _ => added = key
  | .clear => True
  | .invalidate removed => removed = key
  | .timeout removed => removed = key
  | _ => False

theorem Removes.selectedAt (removes : Removes cache next other) (apart : key ≠ other) :
    next.selectedAt selects key = cache.selectedAt selects key := by
  unfold Cache.selectedAt weightAt
  rw [removes.others key apart, removes.invoked]

/-- Another entry is written, and what is called is called. -/
theorem selectedAt_put_of_ne (apart : key ≠ other) :
    (cache.put other info).selectedAt selects key = cache.selectedAt selects key := by
  have same : weightAt (fun _ info => info.waiting selects) (cache.cache.insert other info) key =
      weightAt (fun _ info => info.waiting selects) cache.cache key := weightAt_insert_of_ne apart
  exact congrArg (· + _) same

theorem selectedAt_put_self :
    (cache.put key info).selectedAt selects key =
      info.waiting selects + answered selects cache.invoked :=
  congrArg (· + _) weightAt_insert_self

theorem selectedAt_invoke (invocations : List Invocation) :
    (cache.invoke invocations).selectedAt selects key =
      cache.selectedAt selects key + answered selects invocations := by
  unfold selectedAt invoke
  rw [answered_append, Nat.add_assoc]

theorem selectedAt_get :
    cache.selectedAt selects key = (cache.get key).waiting selects + answered selects cache.invoked := by
  have held : weightAt (fun _ info => info.waiting selects) cache.cache key =
      (cache.get key).waiting selects := weightAt_get total_empty
  exact congrArg (· + _) held

/-- **The room of `add`** keeps the waiters of every key. -/
theorem selectedAt_makeRoom {length entries : Nat} (counted : cache.stored ≤ cache.size.toNat)
    (spares : ∀ entry ∈ cache.cache.toList, entry.2.callbacks.isEmpty = false →
      cache.Spared length entry.1 entry.2)
    (made : makeRoom length entries cache = some room) :
    cache.selectedAt selects key ≤ room.selectedAt selects key := by
  obtain ⟨_, _, invoked⟩ : room.selected selects ≤ cache.selected selects ∧ _ := selected_makeRoom made
  unfold selectedAt
  rw [invoked]
  refine Nat.add_le_add_right ?_ _
  cases found : cache.cache[key]? with
  | none => exact (weightAt_of_none found).trans_le (Nat.zero_le _)
  | some info =>
    cases empty : info.callbacks.isEmpty with
    | true =>
      have none : info.waiting selects = 0 := by
        have nil : info.callbacks.toList = [] := by
          rw [← List.isEmpty_iff, TreeMap.isEmpty_toList]
          exact empty
        unfold CacheInfo.waiting OrderedMap.total
        rw [nil]
        rfl
      rw [weightAt_of_some found, none]
      exact Nat.zero_le _
    | false =>
      have spared := spares (key, info) (TreeMap.mem_toList_iff_getElem?_eq_some.mpr found) empty
      have stays := (makeRoom_lookup counted made key info).mpr ⟨found, spared⟩
      rw [weightAt_of_some found, weightAt_of_some stays]

/-- **`add` of another key.** -/
theorem selectedAt_place_of_ne (apart : key ≠ other) :
    cache.selectedAt selects key ≤ (cache.place other data).selectedAt selects key := by
  rw [place_eq]
  have same : weightAt (fun _ info => info.waiting selects)
      (cache.cache.insert other (.placed cache.now data)) key =
      weightAt (fun _ info => info.waiting selects) cache.cache key := weightAt_insert_of_ne apart
  unfold selectedAt
  simp only [same, answered_append]
  omega

/-- **`add` of the key** calls those that wait for it. -/
theorem answered_place :
    answered selects (cache.place key data).invoked = cache.selectedAt selects key := by
  rw [place_eq, selectedAt_get]
  simp only [answered_append, answered_setLoaded]
  exact Nat.add_comm _ _

/-- **No event but those that end the wait drops a waiter of the key.** -/
theorem selectedAt_step {event : CacheEvent}
    (counted : 0 < cache.maxSize → cache.stored ≤ cache.size.toNat) (spares : cache.Spares event)
    (waits : ¬ Ends key event) (stepped : cache.step event = some next) :
    cache.selectedAt selects key ≤ next.selectedAt selects key := by
  cases stepped_of_step stepped with
  | loading other =>
    by_cases same : key = other
    · subst same
      have written : (cache.loading key).selectedAt selects key =
          (cache.get key).waiting selects + answered selects cache.invoked := selectedAt_put_self
      rw [written, selectedAt_get]
    · exact (selectedAt_put_of_ne same).ge
  | cancelNone missing | unknown missing | elapse time => exact Nat.le_refl _
  | @cancel other info found =>
    rw [selectedAt_invoke]
    by_cases same : key = other
    · subst same
      have called : info.cancelLoading.1.waiting selects + answered selects info.cancelLoading.2 =
          info.waiting selects := waiting_cancelLoading
      rw [selectedAt_put_self, selectedAt_get, get_of_some found]
      omega
    · rw [selectedAt_put_of_ne same]
      exact Nat.le_add_right _ _
  | @addLimited other data room limited made =>
    have apart : key ≠ other := fun same => waits same.symm
    have kept : cache.selectedAt selects key ≤ room.selectedAt selects key :=
      selectedAt_makeRoom (counted limited) (spares limited) made
    exact kept.trans (selectedAt_place_of_ne apart)
  | addFree free => exact selectedAt_place_of_ne fun same => waits same.symm
  | clear => exact absurd trivial waits
  | invalidate removes | timeout removes =>
    exact (removes.selectedAt fun same => waits same.symm).ge
  | answers found isLoaded =>
    rw [selectedAt_invoke]
    exact Nat.le_add_right _ _
  | @waits other callback argument info found notLoaded =>
    by_cases same : key = other
    · subst same
      have added : (info.addCallback callback ⟨argument, cache.calls⟩).waiting selects + _ =
          info.waiting selects + (selects callback ⟨argument, cache.calls⟩).toNat :=
        waiting_addCallback
      -- The function does not wait yet, so that nothing is overwritten.
      rw [weightAt_of_none (spares info found notLoaded)] at added
      rw [selectedAt_put_self, selectedAt_get, get_of_some found]
      simp only
      omega
    · exact (selectedAt_put_of_ne same).ge

theorem answered_le_append : answered selects first ≤ answered selects (first ++ second) := by
  rw [answered_append]
  exact Nat.le_add_right _ _

/-- **What was called stays so.** -/
theorem answered_step {event : CacheEvent} (stepped : cache.step event = some next) :
    answered selects cache.invoked ≤ answered selects next.invoked := by
  cases stepped_of_step stepped with
  | loading key | cancelNone missing | clear | unknown missing | waits found notLoaded
  | elapse time => exact Nat.le_refl _
  | cancel found | answers found isLoaded => exact answered_le_append
  | addLimited limited made =>
    obtain ⟨_, _, invoked⟩ : _ ≤ cache.selected selects ∧ _ := selected_makeRoom made
    rw [place_eq, ← invoked]
    exact answered_le_append
  | addFree free =>
    rw [place_eq]
    exact answered_le_append
  | invalidate removes | timeout removes => rw [removes.invoked]

end Cache

end Selection

namespace Cache

/-! ### Whole runs -/

/-- What a run keeps of the waiters of a key. -/
theorem run_selectedAt {selects : CacheReadyCB → Waiter → Bool} {key : CacheKey} {maxSize : UInt32}
    {middle : List CacheEvent} :
    ∀ {past : List CacheEvent} {cache next : Cache},
      run step { maxSize } past = some cache → Along step Spares cache middle →
      (∀ event ∈ middle, ¬ Ends key event) → run step cache middle = some next →
      cache.selectedAt selects key ≤ next.selectedAt selects key := by
  induction middle with
  | nil =>
    intro past cache next _ _ _ ran
    rw [run_nil, Option.some.injEq] at ran
    rw [ran]
  | cons event middle ih =>
    intro past cache next before spares waits ran
    obtain ⟨second, stepped, rest⟩ := (run_cons_eq_some step).mp ran
    obtain ⟨spared, later⟩ := (along_cons_of_eq_some step stepped).mp spares
    obtain ⟨waitsFirst, waitsLater⟩ := List.forall_mem_cons.mp waits
    obtain ⟨sameMax, bounded⟩ := run_isBounded before
    have kept : cache.selectedAt selects key ≤ second.selectedAt selects key :=
      selectedAt_step (fun limited => (bounded (sameMax ▸ limited)).counted) spared waitsFirst stepped
    have reached : run step { maxSize } (past ++ [event]) = some second :=
      (run_concat_eq_some step).mpr ⟨cache, before, stepped⟩
    exact kept.trans (ih reached later waitsLater rest)

theorem run_answered {selects : CacheReadyCB → Waiter → Bool} {events : List CacheEvent}
    {cache final : Cache} (ran : run step cache events = some final) :
    answered selects cache.invoked ≤ answered selects final.invoked :=
  run_always (fun state => answered selects cache.invoked ≤ answered selects state.invoked)
    (fun _ _ _ fewer stepped => fewer.trans (answered_step stepped)) (Nat.le_refl _) ran

/-- **The next `add` of the key** calls what waits. -/
theorem answered_add {selects : CacheReadyCB → Waiter → Bool} {cache next : Cache} {key : CacheKey}
    {data : CachedData} (counted : 0 < cache.maxSize → cache.stored ≤ cache.size.toNat)
    (spares : cache.Spares (.add key data)) (added : cache.add key data = some next) :
    cache.selectedAt selects key ≤ answered selects next.invoked := by
  obtain ⟨room, rfl, ⟨limited, made⟩ | ⟨_, rfl⟩⟩ := add_eq_some added
  · rw [answered_place]
    exact selectedAt_makeRoom (counted limited) (spares limited) made
  · exact answered_place.ge

/-- The promise of `getNotified` for a key that is not loaded. -/
theorem waits_of_promised {cache : Cache} {key : CacheKey} {callback : CacheReadyCB} {argument : Nat}
    (notLoaded : cache.isLoaded key = false)
    (promised : (cache.getNotified key callback argument).1 = true) :
    1 ≤ (cache.getNotified key callback argument).2.selectedAt
      (fun one waiter => one == callback && waiter == ⟨argument, cache.calls⟩) key := by
  cases found : cache.cache[key]? with
  | none =>
    rw [getNotified_of_none found] at promised
    cases promised
  | some info =>
    unfold isLoaded at notLoaded
    rw [found] at notLoaded
    rw [getNotified_of_waiting found notLoaded, selectedAt_put_self]
    have own : weightAt (fun one waiter =>
        (one == callback && waiter == (⟨argument, cache.calls⟩ : Waiter)).toNat)
        (info.callbacks.insert callback ⟨argument, cache.calls⟩) callback = 1 := by
      rw [weightAt_insert_self]
      simp
    exact (own.symm.le.trans weightAt_le_total).trans (Nat.le_add_right _ _)

end Cache

/-- The selected calls, counted. -/
theorem answered_eq_length {selects : CacheReadyCB → Waiter → Bool} (invocations : List Invocation) :
    answered selects invocations =
      (invocations.filter fun one => selects one.callback one.waiter).length := by
  induction invocations with
  | nil => rfl
  | cons one rest ih =>
    have split : answered selects (one :: rest) =
        (selects one.callback one.waiter).toNat + answered selects rest := rfl
    rw [split, ih, List.filter_cons]
    cases selects one.callback one.waiter with
    | true => exact Nat.add_comm _ _
    | false => exact Nat.zero_add _

/-- One call of its own, and no two with its number. -/
theorem answered_once {invocations : List Invocation} {callback : CacheReadyCB} {waiter : Waiter}
    (own : 1 ≤ answered (fun one other => one == callback && other == waiter) invocations)
    (few : answered (fun _ other => other.call == waiter.call) invocations ≤ 1) :
    ∃ data, (invocations.filter fun one => one.waiter.call == waiter.call) =
      [⟨callback, waiter, data⟩] := by
  rw [answered_eq_length] at own few
  obtain ⟨⟨function, other, data⟩, inside⟩ := List.exists_mem_of_length_pos own
  obtain ⟨isCalled, isOwn⟩ := List.mem_filter.mp inside
  simp only [Bool.and_eq_true, beq_iff_eq] at isOwn
  obtain ⟨rfl, rfl⟩ := isOwn
  have isOfCall : (⟨function, other, data⟩ : Invocation) ∈
      invocations.filter fun one => one.waiter.call == other.call :=
    List.mem_filter.mpr ⟨isCalled, beq_self_eq_true _⟩
  refine ⟨data, ?_⟩
  cases calls : invocations.filter fun one => one.waiter.call == other.call with
  | nil =>
    rw [calls] at isOfCall
    cases isOfCall
  | cons first rest =>
    rw [calls] at isOfCall few
    have single : rest = [] := List.length_eq_zero_iff.mp (by simpa using few)
    rw [single] at isOfCall ⊢
    rw [List.mem_singleton.mp isOfCall]

namespace Cache

/-- **No waiter is lost**: where `getNotified` has promised to notify of a key that is not loaded, and
the wait is not ended by `invalidate`, `clear` or the timer, the callback is called exactly once, with
its own argument, when the next `add` of the key returns; in runs in which no waiting function is
overwritten and no entry with waiters is evicted. -/
theorem run_notified {maxSize : UInt32} {before middle after : List CacheEvent} {key : CacheKey}
    {callback : CacheReadyCB} {argument : Nat} {data : CachedData} {reached final : Cache}
    (spares : Along step Spares { maxSize }
      (before ++ .getNotified key callback argument :: (middle ++ .add key data :: after)))
    (ranBefore : run step { maxSize } before = some reached)
    (notLoaded : reached.isLoaded key = false)
    (promised : (reached.getNotified key callback argument).1 = true)
    (waits : ∀ event ∈ middle, ¬ Ends key event)
    (ran : run step { maxSize }
      (before ++ .getNotified key callback argument :: (middle ++ .add key data :: after)) =
        some final) :
    ∃ data', (final.invoked.filter fun one => one.waiter.call == reached.calls) =
      [⟨callback, ⟨argument, reached.calls⟩, data'⟩] := by
  obtain ⟨start, isStart, rest⟩ := (run_append_eq_some step).mp ran
  obtain rfl := Option.some.inj (isStart.symm.trans ranBefore)
  obtain ⟨asked, isAsked, restAsked⟩ := (run_cons_eq_some step).mp rest
  obtain ⟨waited, ranMiddle, restWaited⟩ := (run_append_eq_some step).mp restAsked
  obtain ⟨added, isAdded, ranAfter⟩ := (run_cons_eq_some step).mp restWaited
  have sparesAsked := ((along_cons_of_eq_some step isAsked).mp (along_append step spares ranBefore).2).2
  obtain ⟨sparesMiddle, sparesWaited⟩ := along_append step sparesAsked ranMiddle
  have sparesAdd := ((along_cons_of_eq_some step isAdded).mp sparesWaited).1
  have reachedAsked : run step { maxSize } (before ++ [.getNotified key callback argument]) =
      some asked := (run_concat_eq_some step).mpr ⟨start, ranBefore, isAsked⟩
  have reachedWaited : run step { maxSize }
      ((before ++ [.getNotified key callback argument]) ++ middle) = some waited :=
    (run_append_eq_some step).mpr ⟨asked, reachedAsked, ranMiddle⟩
  obtain ⟨sameMax, bounded⟩ := run_isBounded reachedWaited
  -- The waiter is there, stays through the middle, is called by `add`, and no other call has its number.
  have isThere := waits_of_promised notLoaded promised
  rw [Option.some.inj isAsked] at isThere
  have stays := isThere.trans (run_selectedAt reachedAsked sparesMiddle waits ranMiddle)
  have called := stays.trans
    (answered_add (fun limited => (bounded (sameMax ▸ limited)).counted) sparesAdd isAdded)
  have own := called.trans (run_answered ranAfter)
  have few : answered (fun _ waiter => waiter.call == start.calls) final.invoked ≤ 1 := by
    have most := run_selected_le ran start.calls
    unfold selected at most
    split at most
    · omega
    · omega
  exact answered_once own few

/-- Two functions wait for one key. -/
theorem run_notified_two :
    ∃ final, run step { maxSize := 10 }
        ([.loading firstKey] ++ .getNotified firstKey 7 1 :: ([.getNotified firstKey 8 2] ++
          .add firstKey (textData (text "hello") 0) :: [])) = some final ∧
      ∃ data, (final.invoked.filter fun one => one.waiter.call == 0) = [⟨7, ⟨1, 0⟩, data⟩] := by
  have returns : (run step { maxSize := 10 }
      ([.loading firstKey] ++ .getNotified firstKey 7 1 :: ([.getNotified firstKey 8 2] ++
        .add firstKey (textData (text "hello") 0) :: []))).isSome := by decide
  obtain ⟨final, ran⟩ := Option.isSome_iff_exists.mp returns
  refine ⟨final, ran, run_notified (by decide) rfl (by decide) (by decide) ?_ ran⟩
  intro event inside
  rw [List.mem_singleton.mp inside]
  exact id

/-- Six bytes are there, and the entry that waits goes first when seven come. -/
def crowded : List CacheEvent :=
  [.add secondKey (textData (text "hello!") 0), .loading firstKey]

/-- A function is passed twice, with two arguments, and is called with the second only; and an entry
with a waiter is evicted by an `add` of another key, so that the next `add` of its own calls nobody. -/
theorem waiter_lost :
    ((run step {} [.loading firstKey]).map fun cache =>
      ((cache.getNotified firstKey 7 1).1, cache.isLoaded firstKey)) = some (true, false) ∧
    ((run step {} [.loading firstKey, .getNotified firstKey 7 1, .getNotified firstKey 7 2,
        .add firstKey (textData (text "hey") 0)]).map fun cache =>
      cache.invoked.map fun one => (one.callback, one.waiter.argument)) = some [(7, 2)] ∧
    ((run step { maxSize := 10 } crowded).map fun cache =>
      ((cache.getNotified firstKey 7 1).1, cache.isLoaded firstKey)) = some (true, false) ∧
    ((run step { maxSize := 10 } (crowded ++ [.getNotified firstKey 7 1,
        .add secondKey (textData (text "welcome") 0), .add firstKey (textData (text "hey") 0)])).map
      fun cache => cache.invoked) = some [] := by
  decide

end Cache

end GemCaps
