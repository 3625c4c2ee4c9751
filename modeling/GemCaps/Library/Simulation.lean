/-
**Forward simulation of one machine by another.**

Both are machines over lists of events. `Simulates`: whatever the first does in one step, the second
answers with a run of any length, of no event too, and the states stay related. `run_simulates`: then
every run of the first is answered by a run of the second.
-/

import GemCaps.Library.Transition

namespace Transition

variable {State Event Other OtherEvent : Type} {step : State → Event → Option State}
  {otherStep : Other → OtherEvent → Option Other} {related : State → Other → Prop}

/-- Every step from related states is answered by a run of the other machine. -/
def Simulates (step : State → Event → Option State)
    (otherStep : Other → OtherEvent → Option Other) (related : State → Other → Prop) : Prop :=
  ∀ ⦃state other⦄, related state other → ∀ ⦃event next⦄, step state event = some next →
    ∃ events otherNext, run otherStep other events = some otherNext ∧ related next otherNext

/-- An answer of no event. -/
theorem answered_idle {next : State} {other : Other} (kept : related next other) :
    ∃ events otherNext, run otherStep other events = some otherNext ∧ related next otherNext :=
  ⟨[], other, rfl, kept⟩

/-- An answer of one event. -/
theorem answered_step {next : State} {other otherNext : Other} {event : OtherEvent}
    (stepped : otherStep other event = some otherNext) (kept : related next otherNext) :
    ∃ events otherNext, run otherStep other events = some otherNext ∧ related next otherNext :=
  ⟨[event], otherNext, (run_singleton otherStep other event).trans stepped, kept⟩

/-- **Every run is answered by a run.** -/
theorem run_simulates (simulates : Simulates step otherStep related) {events : List Event} :
    ∀ {state final : State} {other : Other}, related state other →
      run step state events = some final →
      ∃ otherEvents otherFinal, run otherStep other otherEvents = some otherFinal ∧
        related final otherFinal := by
  induction events with
  | nil =>
    intro state final other isRelated ran
    rw [run_nil, Option.some.injEq] at ran
    exact answered_idle (ran ▸ isRelated)
  | cons event events ih =>
    intro state final other isRelated ran
    obtain ⟨next, stepped, rest⟩ := (run_cons_eq_some step).mp ran
    obtain ⟨first, otherNext, ranFirst, stillRelated⟩ := simulates isRelated stepped
    obtain ⟨second, otherFinal, ranSecond, atEnd⟩ := ih stillRelated rest
    exact ⟨first ++ second, otherFinal,
      (run_append_eq_some otherStep).mpr ⟨otherNext, ranFirst, ranSecond⟩, atEnd⟩

end Transition
