/-
**Runs of a deterministic machine over a list of events.**

`step state event` is the next state, `none` when the event cannot happen in that state. `run`
feeds a list of events; `run_append` cuts a run in two. Two rules carry an induction over a whole
run once and for all:

* `run_invariant`: an invariant kept by every step whose event and prior state meet a condition
  (`run_always`: by every step);
* `run_history`: an invariant that also speaks about the events so far.

`Throughout` says that a property holds of every state that a run goes through;
`throughout_iff_along` turns what one step needs to keep it into what a whole run needs.
`along_iff_not_broken` says exactly which runs meet a condition whose first violation is never
undone. `run_view` carries runs from one machine to another that is a view of it. `chain_of_rank`
bounds the chains of a relation along which a rank falls.
-/

import Mathlib.Data.List.Basic
import Mathlib.Data.List.Chain
import Mathlib.Data.List.Induction

namespace Transition

variable {State Event : Type} (step : State → Event → Option State)

/-- Feed the events one after the other. -/
def run : State → List Event → Option State
  | state, [] => some state
  | state, event :: events => (step state event).bind fun next => run next events

@[simp] theorem run_nil (state : State) : run step state [] = some state := rfl

theorem run_cons (state : State) (event : Event) (events : List Event) :
    run step state (event :: events) = (step state event).bind fun next => run step next events :=
  rfl

@[simp] theorem run_singleton (state : State) (event : Event) :
    run step state [event] = step state event := Option.bind_fun_some _

theorem run_append (state : State) (first second : List Event) :
    run step state (first ++ second) =
      (run step state first).bind fun middle => run step middle second := by
  induction first generalizing state with
  | nil => rfl
  | cons event first ih =>
    rw [List.cons_append, run_cons, run_cons, Option.bind_assoc]
    exact congrArg _ (funext ih)

theorem run_cons_eq_some {state final : State} {event : Event} {events : List Event} :
    run step state (event :: events) = some final ↔
      ∃ next, step state event = some next ∧ run step next events = some final := by
  rw [run_cons, Option.bind_eq_some_iff]

theorem run_append_eq_some {state final : State} {first second : List Event} :
    run step state (first ++ second) = some final ↔
      ∃ middle, run step state first = some middle ∧ run step middle second = some final := by
  rw [run_append, Option.bind_eq_some_iff]

theorem run_concat_eq_some {state final : State} {events : List Event} {event : Event} :
    run step state (events ++ [event]) = some final ↔
      ∃ middle, run step state events = some middle ∧ step middle event = some final := by
  rw [run_append_eq_some]
  refine exists_congr fun middle => and_congr_right fun _ => ?_
  rw [run_cons, Option.bind_eq_some_iff]
  simp

/-- Every step of the run meets a condition on its event and the state it starts from. -/
def Along (meets : State → Event → Prop) : State → List Event → Prop
  | _, [] => True
  | state, event :: events =>
    meets state event ∧ ∀ next, step state event = some next → Along meets next events

/-- What `Along` says when the first step is known. -/
theorem along_cons_of_eq_some {meets : State → Event → Prop} {state next : State} {event : Event}
    {events : List Event} (stepped : step state event = some next) :
    Along step meets state (event :: events) ↔
      meets state event ∧ Along step meets next events := by
  refine and_congr_right fun _ => ⟨fun rest => rest next stepped, fun rest other same => ?_⟩
  rw [stepped, Option.some.injEq] at same
  exact same ▸ rest

theorem along_cons_of_eq_none {meets : State → Event → Prop} {state : State} {event : Event}
    {events : List Event} (stuck : step state event = none) :
    Along step meets state (event :: events) ↔ meets state event := by
  refine ⟨And.left, fun met => ⟨met, fun next same => ?_⟩⟩
  rw [stuck] at same
  cases same

/-- A condition along a run in two parts. -/
theorem along_append {meets : State → Event → Prop} {first second : List Event} :
    ∀ {state middle : State}, Along step meets state (first ++ second) →
      run step state first = some middle →
      Along step meets state first ∧ Along step meets middle second := by
  induction first with
  | nil =>
    intro state middle along ran
    rw [run_nil, Option.some.injEq] at ran
    exact ⟨trivial, ran ▸ along⟩
  | cons event first ih =>
    intro state middle along ran
    obtain ⟨next, stepped, rest⟩ := (run_cons_eq_some step).mp ran
    obtain ⟨met, later⟩ := (along_cons_of_eq_some step stepped).mp along
    obtain ⟨ofFirst, ofSecond⟩ := ih later rest
    exact ⟨(along_cons_of_eq_some step stepped).mpr ⟨met, ofFirst⟩, ofSecond⟩

theorem along_and {first second : State → Event → Prop} {state : State} {events : List Event}
    (met : Along step first state events) (also : Along step second state events) :
    Along step (fun state event => first state event ∧ second state event) state events := by
  induction events generalizing state with
  | nil => trivial
  | cons event events ih =>
    exact ⟨⟨met.1, also.1⟩, fun next stepped => ih (met.2 next stepped) (also.2 next stepped)⟩

theorem along_concat {meets : State → Event → Prop} {state middle : State} {events : List Event}
    {event : Event} (along : Along step meets state events) (ran : run step state events = some middle)
    (met : meets middle event) : Along step meets state (events ++ [event]) := by
  induction events generalizing state with
  | nil =>
    rw [run_nil, Option.some.injEq] at ran
    exact ⟨ran ▸ met, fun _ _ => trivial⟩
  | cons first events ih =>
    obtain ⟨next, stepped, rest⟩ := (run_cons_eq_some step).mp ran
    exact (along_cons_of_eq_some step stepped).mpr ⟨along.1, ih (along.2 next stepped) rest⟩

/-- The steps of a run start from the states that its beginnings end in. -/
theorem along_iff_reached {meets : State → Event → Prop} {events : List Event} :
    ∀ {state : State}, Along step meets state events ↔
      ∀ past event rest, events = past ++ event :: rest →
        ∀ reached, run step state past = some reached → meets reached event := by
  induction events with
  | nil => exact fun {state} => iff_of_true trivial fun past event rest split => by simp at split
  | cons event events ih =>
    intro state
    constructor
    · rintro ⟨met, later⟩ past other rest split reached ran
      cases past with
      | nil =>
        rw [run_nil, Option.some.injEq] at ran
        exact ran ▸ (List.cons.inj split).1 ▸ met
      | cons first past =>
        obtain ⟨rfl, isRest⟩ := List.cons.inj split
        obtain ⟨next, stepped, remaining⟩ := (run_cons_eq_some step).mp ran
        exact ih.mp (later next stepped) past other rest isRest reached remaining
    · intro all
      refine ⟨all [] event events rfl state rfl, fun next stepped => ih.mpr ?_⟩
      intro past other rest split reached ran
      exact all (event :: past) other rest (congrArg _ split) reached
        ((run_cons_eq_some step).mpr ⟨next, stepped, ran⟩)

/-- A condition that is decidable at each step is decidable along a run. -/
def decidableAlong (meets : State → Event → Prop) [∀ state event, Decidable (meets state event)] :
    (events : List Event) → (state : State) → Decidable (Along step meets state events)
  | [], _ => .isTrue trivial
  | event :: events, state =>
    match outcome : step state event with
    | none => decidable_of_iff _ (along_cons_of_eq_none step outcome).symm
    | some next =>
      have := decidableAlong meets events next
      decidable_of_iff _ (along_cons_of_eq_some step outcome).symm

instance {meets : State → Event → Prop} [∀ state event, Decidable (meets state event)]
    (state : State) (events : List Event) : Decidable (Along step meets state events) :=
  decidableAlong step meets events state

variable {step}

/-- **The invariant rule.** -/
theorem run_invariant {meets : State → Event → Prop} (invariant : State → Prop)
    (keeps : ∀ state event next, invariant state → meets state event →
      step state event = some next → invariant next) :
    ∀ {events : List Event} {state final : State}, invariant state →
      Along step meets state events → run step state events = some final → invariant final := by
  intro events
  induction events with
  | nil =>
    intro state final holds _ ran
    rw [run_nil, Option.some.injEq] at ran
    exact ran ▸ holds
  | cons event events ih =>
    intro state final holds along ran
    obtain ⟨next, stepped, rest⟩ := (run_cons_eq_some step).mp ran
    exact ih (keeps state event next holds along.1 stepped) (along.2 next stepped) rest

theorem along_of_forall {meets : State → Event → Prop} :
    ∀ {events : List Event} {state : State},
      (∀ event ∈ events, ∀ state, meets state event) → Along step meets state events := by
  intro events
  induction events with
  | nil => exact fun _ => trivial
  | cons event events ih =>
    intro state always
    exact ⟨always event List.mem_cons_self state,
      fun next _ => ih fun later inside => always later (List.mem_cons_of_mem _ inside)⟩

/-- The invariant rule for an invariant that every step keeps. -/
theorem run_always (invariant : State → Prop)
    (keeps : ∀ state event next, invariant state → step state event = some next → invariant next)
    {events : List Event} {state final : State} (holds : invariant state)
    (ran : run step state events = some final) : invariant final :=
  run_invariant invariant (fun state event next holds (_ : True) => keeps state event next holds)
    holds (along_of_forall fun _ _ _ => trivial) ran

/-- **The exact condition.** A step that meets the condition keeps `sound`, one that does not breaks
the state, and what is broken stays so: a run meets the condition at every step exactly when it does
not end broken. All of this may rest on an assumption about the steps of the run. -/
theorem along_iff_not_broken {assumed meets : State → Event → Prop} (sound broken : State → Prop)
    (keeps : ∀ state event next, sound state → assumed state event → meets state event →
      step state event = some next → sound next)
    (breaks : ∀ state event next, sound state → assumed state event → ¬ meets state event →
      step state event = some next → broken next)
    (stays : ∀ state event next, broken state → step state event = some next → broken next)
    (apart : ∀ state, sound state → ¬ broken state) :
    ∀ {events : List Event} {state final : State}, sound state →
      Along step assumed state events → run step state events = some final →
      (Along step meets state events ↔ ¬ broken final) := by
  intro events
  induction events with
  | nil =>
    intro state final isSound _ ran
    rw [run_nil, Option.some.injEq] at ran
    exact ⟨fun _ => ran ▸ apart state isSound, fun _ => trivial⟩
  | cons event events ih =>
    intro state final isSound along ran
    obtain ⟨next, stepped, rest⟩ := (run_cons_eq_some step).mp ran
    rw [along_cons_of_eq_some step stepped]
    by_cases met : meets state event
    · have stillSound := keeps state event next isSound along.1 met stepped
      rw [ih stillSound (along.2 next stepped) rest]
      exact and_iff_right met
    · have isBroken : broken final := run_always broken stays
        (breaks state event next isSound along.1 met stepped) rest
      exact ⟨fun both => absurd both.1 met, fun intact => absurd isBroken intact⟩

/-! ### Every state of a run -/

variable (step) in
/-- The property holds of every state that the run goes through. -/
def Throughout (property : State → Prop) : State → List Event → Prop
  | state, [] => property state
  | state, event :: events =>
    property state ∧ ∀ next, step state event = some next → Throughout property next events

theorem Throughout.start {property : State → Prop} {state : State} {events : List Event}
    (throughout : Throughout step property state events) : property state := by
  cases events with
  | nil => exact throughout
  | cons event events => exact throughout.1

/-- What `Throughout` says when the first step is known. -/
theorem throughout_cons_of_eq_some {property : State → Prop} {state next : State} {event : Event}
    {events : List Event} (stepped : step state event = some next) :
    Throughout step property state (event :: events) ↔
      property state ∧ Throughout step property next events := by
  refine and_congr_right fun _ => ⟨fun rest => rest next stepped, fun rest other same => ?_⟩
  rw [stepped, Option.some.injEq] at same
  exact same ▸ rest

theorem throughout_cons_of_eq_none {property : State → Prop} {state : State} {event : Event}
    {events : List Event} (stuck : step state event = none) :
    Throughout step property state (event :: events) ↔ property state := by
  refine ⟨And.left, fun holds => ⟨holds, fun next same => ?_⟩⟩
  rw [stuck] at same
  cases same

/-- A property that is decidable of each state is decidable throughout a run. -/
def decidableThroughout (property : State → Prop) [∀ state, Decidable (property state)] :
    (events : List Event) → (state : State) → Decidable (Throughout step property state events)
  | [], state => inferInstanceAs (Decidable (property state))
  | event :: events, state =>
    match outcome : step state event with
    | none => decidable_of_iff _ (throughout_cons_of_eq_none outcome).symm
    | some next =>
      have := decidableThroughout property events next
      decidable_of_iff _ (throughout_cons_of_eq_some outcome).symm

instance {property : State → Prop} [∀ state, Decidable (property state)] (state : State)
    (events : List Event) : Decidable (Throughout step property state events) :=
  decidableThroughout property events state

/-- The states that a run goes through are those that its beginnings end in. -/
theorem throughout_iff_prefix {property : State → Prop} {events : List Event} {state : State} :
    Throughout step property state events ↔
      ∀ past, past <+: events → ∀ reached, run step state past = some reached →
        property reached := by
  induction events generalizing state with
  | nil =>
    refine ⟨fun holds past isPast reached ran => ?_, fun all => all [] List.nil_prefix state rfl⟩
    rw [List.prefix_nil.mp isPast, run_nil, Option.some.injEq] at ran
    exact ran ▸ holds
  | cons event events ih =>
    constructor
    · rintro ⟨holds, later⟩ past isPast reached ran
      cases past with
      | nil => exact Option.some.inj ran ▸ holds
      | cons first past =>
        obtain ⟨rfl, isRest⟩ := List.cons_prefix_cons.mp isPast
        obtain ⟨next, stepped, rest⟩ := (run_cons_eq_some step).mp ran
        exact ih.mp (later next stepped) past isRest reached rest
    · intro all
      refine ⟨all [] List.nil_prefix state rfl, fun next stepped => ih.mpr ?_⟩
      intro past isPast reached ran
      exact all (event :: past) (List.cons_prefix_cons.mpr ⟨rfl, isPast⟩) reached
        ((run_cons_eq_some step).mpr ⟨next, stepped, ran⟩)

theorem Throughout.along {property : State → Prop} {events : List Event} {state : State}
    (throughout : Throughout step property state events) :
    Along step (fun state _ => property state) state events :=
  (along_iff_reached step).mpr fun past event rest split reached ran =>
    throughout_iff_prefix.mp throughout past ⟨event :: rest, split.symm⟩ reached ran

/-- An invariant that every step keeps holds throughout. -/
theorem throughout_always (invariant : State → Prop)
    (keeps : ∀ state event next, invariant state → step state event = some next → invariant next)
    {events : List Event} {state : State} (holds : invariant state) :
    Throughout step invariant state events :=
  throughout_iff_prefix.mpr fun _ _ _ ran => run_always invariant keeps holds ran

/-- **What a whole run needs.** Where a step keeps the property exactly when it meets a condition,
the property holds throughout a run exactly when every step meets the condition. This may rest on
what is known throughout the run. -/
theorem throughout_iff_along {meets : State → Event → Prop} {known property : State → Prop}
    (keeps : ∀ state event next, known state → known next → property state →
      step state event = some next → (property next ↔ meets state event)) :
    ∀ {events : List Event} {state final : State}, Throughout step known state events →
      property state → run step state events = some final →
      (Throughout step property state events ↔ Along step meets state events) := by
  intro events
  induction events with
  | nil => exact fun _ holds _ => iff_of_true holds trivial
  | cons event events ih =>
    intro state final isKnown holds ran
    obtain ⟨next, stepped, rest⟩ := (run_cons_eq_some step).mp ran
    have later := isKnown.2 next stepped
    have kept := keeps state event next isKnown.1 later.start holds stepped
    rw [along_cons_of_eq_some step stepped]
    constructor
    · rintro ⟨_, all⟩
      have fromNext := all next stepped
      exact ⟨kept.mp fromNext.start, (ih later fromNext.start rest).mp fromNext⟩
    · rintro ⟨met, along⟩
      refine ⟨holds, fun other same => ?_⟩
      obtain rfl := Option.some.inj (stepped.symm.trans same)
      exact (ih later (kept.mpr met) rest).mpr along

/-! ### Histories and views -/

/-- **The history rule**: the invariant may speak about the events so far. -/
theorem run_history (invariant : List Event → State → Prop) {start : State}
    (starts : invariant [] start)
    (keeps : ∀ past state event next, invariant past state → step state event = some next →
      invariant (past ++ [event]) next) :
    ∀ {events : List Event} {final : State}, run step start events = some final →
      invariant events final := by
  intro events
  induction events using List.reverseRecOn with
  | nil =>
    intro final ran
    rw [run_nil, Option.some.injEq] at ran
    exact ran ▸ starts
  | append_singleton past event ih =>
    intro final ran
    obtain ⟨middle, before, last⟩ := (run_concat_eq_some step).mp ran
    exact keeps past middle event final (ih before) last

/-- **A view of a machine**: where every step of the second machine on the view is the view of the
step, its runs are the views of the runs. -/
theorem run_view {Other : Type} {other : Other → Event → Option Other} (view : State → Other)
    (invariant : State → Prop)
    (keeps : ∀ state event next, invariant state → step state event = some next → invariant next)
    (simulates : ∀ state event, invariant state →
      other (view state) event = (step state event).map view) :
    ∀ {events : List Event} {state : State}, invariant state →
      run other (view state) events = (run step state events).map view := by
  intro events
  induction events with
  | nil => exact fun _ => rfl
  | cons event events ih =>
    intro state holds
    rw [run_cons, run_cons, simulates state event holds]
    cases stepped : step state event with
    | none => rfl
    | some next => exact ih (keeps state event next holds stepped)

/-! ### Chains along which a rank falls -/

section Rank

variable {α : Type} {relation : α → α → Prop} {rank : α → Nat}

theorem rank_lt_of_mem (falls : ∀ first second, relation first second → rank second < rank first)
    {start other : α} {rest : List α} (chain : (start :: rest).IsChain relation)
    (inside : other ∈ rest) : rank other < rank start := by
  induction rest generalizing start with
  | nil => cases inside
  | cons next rest ih =>
    obtain ⟨related, later⟩ := List.isChain_cons_cons.mp chain
    rcases List.mem_cons.mp inside with rfl | isLater
    · exact falls start other related
    · exact (ih later isLater).trans (falls start next related)

/-- **Such a chain never returns, and is no longer than the rank of its start.** -/
theorem chain_of_rank (falls : ∀ first second, relation first second → rank second < rank first)
    {start : α} {rest : List α} (chain : (start :: rest).IsChain relation) :
    (start :: rest).Nodup ∧ rest.length ≤ rank start := by
  induction rest generalizing start with
  | nil => exact ⟨List.pairwise_singleton _ start, Nat.zero_le _⟩
  | cons next rest ih =>
    obtain ⟨related, later⟩ := List.isChain_cons_cons.mp chain
    obtain ⟨distinct, bounded⟩ := ih later
    refine ⟨List.nodup_cons.mpr ⟨fun inside => ?_, distinct⟩, ?_⟩
    · exact absurd (rank_lt_of_mem falls chain inside) (Nat.lt_irrefl _)
    · exact Nat.lt_of_le_of_lt bounded (falls start next related)

/-- What each step of a chain hands on. -/
theorem forall_of_chain {good fine : α → Prop}
    (keeps : ∀ first second, fine first → relation first second → good second ∧ fine second)
    {start : α} {rest : List α} (isFine : fine start) (chain : (start :: rest).IsChain relation) :
    ∀ other ∈ rest, good other := by
  induction rest generalizing start with
  | nil => exact fun _ inside => absurd inside List.not_mem_nil
  | cons next rest ih =>
    obtain ⟨related, later⟩ := List.isChain_cons_cons.mp chain
    obtain ⟨isGood, stillFine⟩ := keeps start next isFine related
    exact List.forall_mem_cons.mpr ⟨isGood, ih stillFine later⟩

end Rank

end Transition
