/-
**A register that events write, keep and clear.**

What a register of a machine holds in the end of a run is what the last event has written that writes
it, as long as every event since has kept it (`Follows.run_eq_some_iff`). What an event writes and
whether it keeps the register may depend on the state it finds.
-/

import GemCaps.Library.Transition

namespace Register

open Transition

variable {State Event Value : Type} {step : State → Event → Option State} {known : State → Prop}
  {view : State → Option Value} {writes : State → Event → Option Value}
  {keeps : State → Event → Prop} {state start final : State} {events : List Event} {value : Value}

/-- In the states that are known, every step writes the register, keeps it or clears it. -/
structure Follows (step : State → Event → Option State) (known : State → Prop)
    (view : State → Option Value) (writes : State → Event → Option Value)
    (keeps : State → Event → Prop) : Prop where
  knows : ∀ state event next, known state → step state event = some next → known next
  written : ∀ state event next value, known state → step state event = some next →
    writes state event = some value → view next = some value
  kept : ∀ state event next, known state → step state event = some next →
    writes state event = none → keeps state event → view next = view state
  cleared : ∀ state event next, known state → step state event = some next →
    writes state event = none → ¬ keeps state event → view next = none

/-- The event leaves the register as it is. -/
def Leaves (writes : State → Event → Option Value) (keeps : State → Event → Prop) (state : State)
    (event : Event) : Prop :=
  writes state event = none ∧ keeps state event

namespace Follows

/-- Events that leave the register. -/
theorem run_leaves (follows : Follows step known view writes keeps) (isKnown : known state)
    (along : Along step (Leaves writes keeps) state events)
    (ran : run step state events = some final) : known final ∧ view final = view state := by
  refine run_invariant (fun reached => known reached ∧ view reached = view state)
    (fun reached event next both leaves stepped => ⟨?_, ?_⟩) ⟨isKnown, rfl⟩ along ran
  · exact follows.knows reached event next both.1 stepped
  · exact (follows.kept reached event next both.1 stepped leaves.1 leaves.2).trans both.2

/-- **What the register holds**: the last value written, where every event since has left it. -/
theorem run_eq_some_iff (follows : Follows step known view writes keeps) (isKnown : known start)
    (empty : view start = none) (ran : run step start events = some final) :
    view final = some value ↔ ∃ before event after middle next,
      events = before ++ event :: after ∧ run step start before = some middle ∧
        step middle event = some next ∧ writes middle event = some value ∧
        Along step (Leaves writes keeps) next after := by
  constructor
  · intro holds
    induction events using List.reverseRecOn generalizing final with
    | nil =>
      rw [run_nil, Option.some.injEq] at ran
      rw [← ran, empty] at holds
      cases holds
    | append_singleton past last ih =>
      obtain ⟨middle, before, stepped⟩ := (run_concat_eq_some step).mp ran
      have knownMiddle : known middle := run_always known follows.knows isKnown before
      cases written : writes middle last with
      | some other =>
        have isOther := follows.written middle last final other knownMiddle stepped written
        obtain rfl := Option.some.inj (isOther.symm.trans holds)
        exact ⟨past, last, [], middle, final, rfl, before, stepped, written, trivial⟩
      | none =>
        by_cases keeping : keeps middle last
        · have same := follows.kept middle last final knownMiddle stepped written keeping
          obtain ⟨earlier, event, after, found, next, rfl, ranEarlier, isNext, isValue, along⟩ :=
            ih before (same.symm.trans holds)
          have ranAfter : run step next after = some middle := by
            obtain ⟨foundToo, isFound, rest⟩ := (run_append_eq_some step).mp before
            obtain rfl := Option.some.inj (ranEarlier.symm.trans isFound)
            obtain ⟨nextToo, isNextToo, later⟩ := (run_cons_eq_some step).mp rest
            obtain rfl := Option.some.inj (isNext.symm.trans isNextToo)
            exact later
          refine ⟨earlier, event, after ++ [last], found, next, ?_, ranEarlier, isNext, isValue,
            along_concat _ along ranAfter ⟨written, keeping⟩⟩
          rw [List.append_assoc, List.cons_append]
        · rw [follows.cleared middle last final knownMiddle stepped written keeping] at holds
          cases holds
  · rintro ⟨before, event, after, middle, next, rfl, ranBefore, stepped, written, along⟩
    obtain ⟨middleToo, isMiddle, rest⟩ := (run_append_eq_some step).mp ran
    obtain rfl := Option.some.inj (ranBefore.symm.trans isMiddle)
    obtain ⟨nextToo, isNext, ranAfter⟩ := (run_cons_eq_some step).mp rest
    obtain rfl := Option.some.inj (stepped.symm.trans isNext)
    have knownMiddle : known middle := run_always known follows.knows isKnown ranBefore
    have knownNext := follows.knows middle event next knownMiddle stepped
    rw [(follows.run_leaves knownNext along ranAfter).2]
    exact follows.written middle event next value knownMiddle stepped written

end Follows

end Register
