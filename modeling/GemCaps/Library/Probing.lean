/-
**Binary search between two indices.**

`probe` asks a comparison at the middle of the indices from `min` up to `top` and goes on in the half
that the answer points to. It never answers with an index that the comparison does not call equal, in
whatever order the entries stand (`probe_sound`); and as many rounds as there are indices are enough
(`probe_rounds`), so that `search` satisfies the equation of the loop (`search_eq`).
-/

import Mathlib.Order.Basic

namespace Probing

variable {order : Nat → Int} {rounds more min top found : Nat}

/-- At most so many rounds of a binary search: `order i` is the comparison of what is searched for with
entry `i`. -/
def probe (order : Nat → Int) : Nat → Nat → Nat → Option Nat
  | 0, _, _ => none
  | rounds + 1, min, top =>
    if min < top then
      let middle := (top - 1 + min) / 2
      if order middle = 0 then some middle
      else if 0 < order middle then probe order rounds (middle + 1) top
      else probe order rounds min middle
    else none

/-- The search, with a round for each index. -/
def search (order : Nat → Int) (min top : Nat) : Option Nat := probe order (top - min) min top

/-- **The search never lies**: no order of the entries is needed for this. -/
theorem probe_sound (searched : probe order rounds min top = some found) :
    min ≤ found ∧ found < top ∧ order found = 0 := by
  fun_induction probe order rounds min top with
  | case1 => cases searched
  | case2 min top rounds inside middle equal =>
    obtain rfl := Option.some.inj searched
    exact ⟨by omega, by omega, equal⟩
  | case3 min top rounds inside middle _ _ ih =>
    obtain ⟨low, high, equal⟩ := ih searched
    exact ⟨by omega, high, equal⟩
  | case4 min top rounds inside middle _ _ ih =>
    obtain ⟨low, high, equal⟩ := ih searched
    exact ⟨low, by omega, equal⟩
  | case5 => cases searched

theorem search_sound (searched : search order min top = some found) :
    min ≤ found ∧ found < top ∧ order found = 0 := probe_sound searched

/-- **A round for each index is enough.** -/
theorem probe_rounds (enough : top - min ≤ rounds) (enoughToo : top - min ≤ more) :
    probe order rounds min top = probe order more min top := by
  induction rounds generalizing more min top with
  | zero =>
    cases more with
    | zero => rfl
    | succ more => simp only [probe, if_neg (show ¬ min < top by omega)]
  | succ rounds ih =>
    cases more with
    | zero => simp only [probe, if_neg (show ¬ min < top by omega)]
    | succ more =>
      by_cases inside : min < top
      · have right : probe order rounds ((top - 1 + min) / 2 + 1) top =
            probe order more ((top - 1 + min) / 2 + 1) top := ih (by omega) (by omega)
        have left : probe order rounds min ((top - 1 + min) / 2) =
            probe order more min ((top - 1 + min) / 2) := ih (by omega) (by omega)
        simp only [probe, right, left]
      · simp only [probe, if_neg inside]

/-- **The loop**: one round, then the search of the half that is left. -/
theorem search_eq (order : Nat → Int) (min top : Nat) :
    search order min top =
      if min < top then
        if order ((top - 1 + min) / 2) = 0 then some ((top - 1 + min) / 2)
        else if 0 < order ((top - 1 + min) / 2) then search order ((top - 1 + min) / 2 + 1) top
        else search order min ((top - 1 + min) / 2)
      else none := by
  by_cases inside : min < top
  · obtain ⟨rounds, rounds_eq⟩ : ∃ rounds, top - min = rounds + 1 := ⟨top - min - 1, by omega⟩
    have right : probe order rounds ((top - 1 + min) / 2 + 1) top =
        search order ((top - 1 + min) / 2 + 1) top := probe_rounds (by omega) (by omega)
    have left : probe order rounds min ((top - 1 + min) / 2) =
        search order min ((top - 1 + min) / 2) := probe_rounds (by omega) (by omega)
    have unrolled : search order min top = probe order (rounds + 1) min top := by
      rw [search, rounds_eq]
    rw [unrolled]
    simp only [probe, right, left]
  · have none_left : search order min top = probe order 0 min top := by
      rw [search, show top - min = 0 by omega]
    rw [none_left, probe, if_neg inside]

end Probing
