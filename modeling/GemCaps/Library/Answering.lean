/-
**Machines that answer.**

`step state call` is the next state with the answer of the call, `none` when the call fails. `run` makes
a list of calls and collects one answer for each, in their order: `run_append_eq_some` cuts a run in
two, `run_split_eq_some` looks at one call in the middle, and `run_follows` carries the answers of a
machine to those of another one that it follows call by call.
-/

import Mathlib.Data.List.Basic

namespace Answering

variable {State Other Call Answer : Type} (step : State → Call → Option (State × Answer))

/-- Make the calls one after the other. -/
def run : State → List Call → Option (State × List Answer)
  | state, [] => some (state, [])
  | state, call :: calls => (step state call).bind fun (next, answer) =>
      (run next calls).map fun (final, answers) => (final, answer :: answers)

@[simp] theorem run_nil (state : State) : run step state [] = some (state, []) := rfl

theorem run_cons_eq_some {state final : State} {call : Call} {calls : List Call}
    {answers : List Answer} :
    run step state (call :: calls) = some (final, answers) ↔
      ∃ next answer rest, step state call = some (next, answer) ∧
        run step next calls = some (final, rest) ∧ answers = answer :: rest := by
  rw [run, Option.bind_eq_some_iff]
  constructor
  · rintro ⟨⟨next, answer⟩, stepped, remaining⟩
    obtain ⟨⟨last, rest⟩, ran, same⟩ := Option.map_eq_some_iff.mp remaining
    obtain ⟨rfl, rfl⟩ := Prod.mk.inj same
    exact ⟨next, answer, rest, stepped, ran, rfl⟩
  · rintro ⟨next, answer, rest, stepped, ran, rfl⟩
    exact ⟨(next, answer), stepped, Option.map_eq_some_iff.mpr ⟨(final, rest), ran, rfl⟩⟩

/-- The calls of two stretches. -/
theorem run_append_eq_some {state final : State} {first second : List Call} {answers : List Answer} :
    run step state (first ++ second) = some (final, answers) ↔
      ∃ middle early late, run step state first = some (middle, early) ∧
        run step middle second = some (final, late) ∧ answers = early ++ late := by
  induction first generalizing state answers with
  | nil =>
    constructor
    · exact fun ran => ⟨state, [], answers, rfl, ran, rfl⟩
    · rintro ⟨middle, early, late, none, ran, rfl⟩
      obtain ⟨rfl, rfl⟩ := Prod.mk.inj (Option.some.inj none)
      exact ran
  | cons call first ih =>
    rw [List.cons_append, run_cons_eq_some]
    constructor
    · rintro ⟨next, answer, rest, stepped, ran, rfl⟩
      obtain ⟨middle, early, late, before, after, rfl⟩ := ih.mp ran
      exact ⟨middle, answer :: early, late,
        (run_cons_eq_some step).mpr ⟨next, answer, early, stepped, before, rfl⟩, after, rfl⟩
    · rintro ⟨middle, early, late, before, after, rfl⟩
      obtain ⟨next, answer, rest, stepped, ran, rfl⟩ := (run_cons_eq_some step).mp before
      exact ⟨next, answer, rest ++ late, stepped, ih.mpr ⟨middle, rest, late, ran, after, rfl⟩, rfl⟩

/-- **Every call has its answer.** -/
theorem length_of_run {state final : State} {calls : List Call} {answers : List Answer}
    (ran : run step state calls = some (final, answers)) : answers.length = calls.length := by
  induction calls generalizing state answers with
  | nil =>
    obtain ⟨rfl, rfl⟩ := Prod.mk.inj (Option.some.inj ran)
    rfl
  | cons call calls ih =>
    obtain ⟨next, answer, rest, _, remaining, rfl⟩ := (run_cons_eq_some step).mp ran
    rw [List.length_cons, List.length_cons, ih remaining]

/-- **One call of a run**: the calls before it lead to a state in which it gives the answer that stands
in its place. -/
theorem run_split_eq_some {state final : State} {before after : List Call} {call : Call}
    {answers : List Answer}
    (ran : run step state (before ++ call :: after) = some (final, answers)) :
    ∃ middle next answer, run step state before = some (middle, answers.take before.length) ∧
      step middle call = some (next, answer) ∧ answers[before.length]? = some answer := by
  obtain ⟨middle, early, late, first, second, rfl⟩ := (run_append_eq_some step).mp ran
  obtain ⟨next, answer, rest, stepped, _, rfl⟩ := (run_cons_eq_some step).mp second
  have count := length_of_run step first
  refine ⟨middle, next, answer, ?_, stepped, ?_⟩
  · rw [← count, List.take_left']
    · exact first
    · rfl
  · rw [← count, List.getElem?_append_right (Nat.le_refl _), Nat.sub_self, List.getElem?_cons_zero]

/-- **Answer for answer.** Where every call of one machine is a call of the other, up to a view of the
answers, so are their runs. What relates the two may speak of the calls that are still to come. -/
theorem run_follows {Reply : Type} {step : State → Call → Option (State × Answer)}
    {spec : Other → Call → Option (Other × Reply)} (view : Answer → Reply)
    (related : List Call → State → Other → Prop)
    (follows : ∀ call calls state other, related (call :: calls) state other →
      ∃ next after answer, step state call = some (next, answer) ∧
        spec other call = some (after, view answer) ∧ related calls next after) :
    ∀ {calls : List Call} {state : State} {other : Other}, related calls state other →
      ∃ final last answers, run step state calls = some (final, answers) ∧
        run spec other calls = some (last, answers.map view) ∧ related [] final last := by
  intro calls
  induction calls with
  | nil => exact fun {state other} relates => ⟨state, other, [], rfl, rfl, relates⟩
  | cons call calls ih =>
    intro state other relates
    obtain ⟨next, after, answer, stepped, specified, still⟩ := follows call calls state other relates
    obtain ⟨final, last, answers, ran, runs, ends⟩ := ih still
    exact ⟨final, last, answer :: answers,
      (run_cons_eq_some step).mpr ⟨next, answer, answers, stepped, ran, rfl⟩,
      (run_cons_eq_some spec).mpr ⟨after, view answer, _, specified, runs, rfl⟩, ends⟩

end Answering
