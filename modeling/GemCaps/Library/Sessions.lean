/-
**Components under reused keys.**

A table holds a component under each key, or nothing. Every event belongs to one key and takes the
component there a step further; an opening starts a new component, and a step may leave the key
empty. `isolated`: what is under a key after a run is what the events of the key since its last
opening leave there when they are the only ones.
-/

import GemCaps.Library.Transition
import Mathlib.Logic.Function.Basic

namespace Sessions

open Transition

variable {Key Event Slot : Type} [DecidableEq Key] (keyOf : Event → Key) (opens : Event → Bool)
  (step : Option Slot → Event → Option (Option Slot))

/-- The events of a key since its last opening. -/
def own (key : Key) (events : List Event) : List Event :=
  events.foldl (fun past event =>
    if keyOf event = key then if opens event then [event] else past ++ [event] else past) []

/-- A step of the table is a step under the key of the event. -/
def tableStep (table : Key → Option Slot) (event : Event) : Option (Key → Option Slot) :=
  (step (table (keyOf event)) event).map (Function.update table (keyOf event))

theorem own_concat (key : Key) (past : List Event) (event : Event) :
    own keyOf opens key (past ++ [event]) =
      if keyOf event = key then
        if opens event then [event] else own keyOf opens key past ++ [event]
      else own keyOf opens key past := List.foldl_append ..

theorem keyOf_of_mem_own {key : Key} {events : List Event} :
    ∀ event ∈ own keyOf opens key events, keyOf event = key := by
  induction events using List.reverseRecOn with
  | nil => exact fun _ inside => absurd inside List.not_mem_nil
  | append_singleton past last ih =>
    rw [own_concat]
    split
    · next same =>
      have isLast : ∀ event ∈ [last], keyOf event = key := List.forall_mem_singleton.mpr same
      split
      · exact isLast
      · exact List.forall_mem_append.mpr ⟨ih, isLast⟩
    · exact ih

variable {keyOf opens step}

/-- **A component has seen its own events, and no others.** -/
theorem run_own
    (restarts : ∀ slot event next, opens event = true → step slot event = some next →
      step none event = some next)
    {events : List Event} {table : Key → Option Slot}
    (ran : run (tableStep keyOf step) (fun _ => none) events = some table) :
    ∀ key, run step none (own keyOf opens key events) = some (table key) := by
  refine run_history (fun past table => ∀ key, run step none (own keyOf opens key past) =
    some (table key)) (fun _ => rfl) ?_ ran
  intro past table event next ranOwn stepped key
  obtain ⟨slot, isSlot, rfl⟩ := Option.map_eq_some_iff.mp stepped
  rw [own_concat]
  by_cases same : keyOf event = key
  · subst same
    rw [if_pos rfl, Function.update_self]
    cases isOpening : opens event with
    | true =>
      rw [if_pos rfl, run_cons, restarts _ event slot isOpening isSlot]
      rfl
    | false =>
      rw [if_neg Bool.false_ne_true, run_concat_eq_some]
      exact ⟨_, ranOwn _, isSlot⟩
  · rw [if_neg same, Function.update_of_ne (Ne.symm same)]
    exact ranOwn key

/-- The events of one key change what is under this key. -/
theorem run_single {key : Key} {events : List Event} (single : ∀ event ∈ events, keyOf event = key)
    {table : Key → Option Slot} {slot : Option Slot}
    (ran : run step (table key) events = some slot) :
    run (tableStep keyOf step) table events = some (Function.update table key slot) := by
  induction events generalizing table with
  | nil =>
    obtain rfl := Option.some.inj ran
    rw [run_nil, Function.update_eq_self]
  | cons event events ih =>
    obtain ⟨same, others⟩ := List.forall_mem_cons.mp single
    subst same
    obtain ⟨middle, isMiddle, rest⟩ := (run_cons_eq_some step).mp ran
    refine (run_cons_eq_some _).mpr
      ⟨Function.update table (keyOf event) middle, congrArg (Option.map _) isMiddle, ?_⟩
    have fromMiddle : run step (Function.update table (keyOf event) middle (keyOf event)) events =
        some slot := by rwa [Function.update_self]
    rw [ih others fromMiddle, Function.update_idem]

/-- **Isolation.** Under every key the table is as if the events of the key were the only ones. -/
theorem isolated
    (restarts : ∀ slot event next, opens event = true → step slot event = some next →
      step none event = some next)
    {events : List Event} {table : Key → Option Slot}
    (ran : run (tableStep keyOf step) (fun _ => none) events = some table) (key : Key) :
    ∃ alone, run (tableStep keyOf step) (fun _ => none) (own keyOf opens key events) = some alone ∧
      alone key = table key :=
  ⟨_, run_single (keyOf_of_mem_own keyOf opens) (run_own restarts ran key),
    Function.update_self ..⟩

end Sessions
