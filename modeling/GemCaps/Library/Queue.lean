/-
**A queue that can be closed.**

A write appends, a read takes from the front as much as there is and returns it, and after the first
`close` a write changes nothing. `run_conserves`: what the reads have returned, followed by what waits,
is what was written before the first close.
-/

import GemCaps.Library.Answering

namespace Queue

variable {α : Type}

/-- The calls on a queue. -/
inductive Call (α : Type) where
  | write (data : List α)
  | read (count : Nat)
  | close

/-- A queue. -/
structure State (α : Type) where
  waiting : List α := []
  closed : Bool := false

/-- One call; only a read returns something. -/
def step (state : State α) : Call α → Option (State α × Option (List α))
  | .write data =>
    some (if state.closed then state else { state with waiting := state.waiting ++ data }, none)
  | .read count =>
    some ({ state with waiting := state.waiting.drop count }, some (state.waiting.take count))
  | .close => some ({ state with closed := true }, none)

/-- What is written before the first close. -/
def written : List (Call α) → List α
  | [] => []
  | .write data :: calls => data ++ written calls
  | .read _ :: calls => written calls
  | .close :: _ => []

/-- What a queue still accepts. -/
def accepted (state : State α) (calls : List (Call α)) : List α :=
  if state.closed then [] else written calls

/-- What the reads have returned, one after the other. -/
def returned (answers : List (Option (List α))) : List α := answers.reduceOption.flatten

@[simp] theorem returned_nil : returned ([] : List (Option (List α))) = [] := rfl

@[simp] theorem returned_cons (answer : Option (List α)) (answers : List (Option (List α))) :
    returned (answer :: answers) = answer.getD [] ++ returned answers := by
  cases answer <;> rfl

/-- **One call** passes on what it accepts. -/
theorem step_conserves {state next : State α} {call : Call α} {answer : Option (List α)}
    (stepped : step state call = some (next, answer)) (calls : List (Call α)) :
    answer.getD [] ++ (next.waiting ++ accepted next calls) =
      state.waiting ++ accepted state (call :: calls) := by
  cases call with
  | write data =>
    obtain ⟨rfl, rfl⟩ := Prod.mk.inj (Option.some.inj stepped)
    cases isClosed : state.closed with
    | true => simp [accepted, isClosed]
    | false => simp [accepted, isClosed, written]
  | read count =>
    obtain ⟨rfl, rfl⟩ := Prod.mk.inj (Option.some.inj stepped)
    have cut : state.waiting.take count ++ state.waiting.drop count = state.waiting :=
      List.take_append_drop ..
    rw [← List.append_assoc, Option.getD_some, cut]
    rfl
  | close =>
    obtain ⟨rfl, rfl⟩ := Prod.mk.inj (Option.some.inj stepped)
    cases isClosed : state.closed with
    | true => simp [accepted, isClosed]
    | false => simp [accepted, isClosed, written]

/-- **Nothing is lost, doubled or reordered.** -/
theorem run_conserves {state final : State α} {calls : List (Call α)}
    {answers : List (Option (List α))}
    (ran : Answering.run step state calls = some (final, answers)) :
    returned answers ++ final.waiting = state.waiting ++ accepted state calls := by
  induction calls generalizing state answers with
  | nil =>
    obtain ⟨rfl, rfl⟩ := Prod.mk.inj (Option.some.inj ran)
    unfold accepted
    cases state.closed with
    | true => simp
    | false => simp [written]
  | cons call calls ih =>
    obtain ⟨next, answer, rest, stepped, remaining, rfl⟩ := (Answering.run_cons_eq_some step).mp ran
    rw [returned_cons, List.append_assoc, ih remaining, step_conserves stepped]

/-- **What is read is a prefix of what is written**, and the rest waits. -/
theorem run_outputs {final : State α} {calls : List (Call α)} {answers : List (Option (List α))}
    (ran : Answering.run step {} calls = some (final, answers)) :
    returned answers ++ final.waiting = written calls := run_conserves ran

end Queue
