/-
**Totals over an ordered map.**

`total weight map` adds up a weight over the entries of a map, and `weightAt` is the weight of what a
key holds. The rules say how a total changes when an entry is written (`total_insert`) or removed
(`total_erase`), and compare totals entry by entry (`total_le_total`). `firstLeast` is the loop that
looks for the first entry of least rank; what it finds precedes every other entry
(`firstLeast_precedes`).
-/

import Mathlib.Algebra.Order.BigOperators.Group.List
import Mathlib.Algebra.Order.Ring.Nat
import Mathlib.Data.List.Nodup
import Std.Data.TreeMap.Lemmas

namespace OrderedMap

open Std

variable {Key Value : Type} {cmp : Key → Key → Ordering}

/-- The sum of the weights of the entries. -/
def total (weight : Key → Value → Nat) (map : TreeMap Key Value cmp) : Nat :=
  (map.toList.map fun entry => weight entry.1 entry.2).sum

/-- The weight of what the key holds. -/
def weightAt (weight : Key → Value → Nat) (map : TreeMap Key Value cmp) (key : Key) : Nat :=
  (map[key]?.map (weight key)).getD 0

variable {weight other : Key → Value → Nat} {map : TreeMap Key Value cmp} {key : Key} {value : Value}

theorem weightAt_of_some (holds : map[key]? = some value) :
    weightAt weight map key = weight key value := by
  unfold weightAt
  rw [holds]
  rfl

theorem weightAt_of_none (missing : map[key]? = none) : weightAt weight map key = 0 := by
  unfold weightAt
  rw [missing]
  rfl

@[simp] theorem total_empty : total weight (∅ : TreeMap Key Value cmp) = 0 := rfl

variable [TransCmp cmp] [LawfulEqCmp cmp]

theorem getElem?_insert_of_ne {one : Key} (apart : one ≠ key) :
    (map.insert key value)[one]? = map[one]? := by
  rw [TreeMap.getElem?_insert]
  exact if_neg fun same => apart (LawfulEqCmp.eq_of_compare same).symm

theorem getElem?_erase_of_ne {one : Key} (apart : one ≠ key) :
    (map.erase key)[one]? = map[one]? := by
  rw [TreeMap.getElem?_erase]
  exact if_neg fun same => apart (LawfulEqCmp.eq_of_compare same).symm

omit [LawfulEqCmp cmp] in
@[simp] theorem weightAt_insert_self : weightAt weight (map.insert key value) key = weight key value :=
  weightAt_of_some TreeMap.getElem?_insert_self

theorem weightAt_insert_of_ne {one : Key} (apart : one ≠ key) :
    weightAt weight (map.insert key value) one = weightAt weight map one := by
  unfold weightAt
  rw [getElem?_insert_of_ne apart]

theorem nodup_toList : map.toList.Nodup := by
  refine TreeMap.distinct_keys_toList.imp ?_
  rintro first second apart rfl
  exact apart ReflCmp.compare_self

/-- Maps that hold the same have the same totals. -/
theorem total_congr {map' : TreeMap Key Value cmp} (same : ∀ key : Key, map[key]? = map'[key]?) :
    total weight map = total weight map' := by
  unfold total
  rw [(TreeMap.Equiv.of_forall_constGet?_eq same).toList_eq]

/-- The entries with a new one. -/
theorem toList_insert_perm (missing : map[key]? = none) :
    (map.insert key value).toList.Perm ((key, value) :: map.toList) := by
  have isNew : (key, value) ∉ map.toList := by
    intro inside
    rw [TreeMap.mem_toList_iff_getElem?_eq_some, missing] at inside
    cases inside
  refine (List.perm_ext_iff_of_nodup nodup_toList (List.nodup_cons.mpr ⟨isNew, nodup_toList⟩)).mpr ?_
  rintro ⟨one, held⟩
  rw [TreeMap.mem_toList_iff_getElem?_eq_some, List.mem_cons,
    TreeMap.mem_toList_iff_getElem?_eq_some]
  by_cases same : one = key
  · subst same
    simp [missing, eq_comm]
  · rw [getElem?_insert_of_ne same]
    simp [same]

/-- **A new entry.** -/
theorem total_insert_new (missing : map[key]? = none) :
    total weight (map.insert key value) = weight key value + total weight map := by
  unfold total
  rw [((toList_insert_perm missing).map _).sum_eq, List.map_cons, List.sum_cons]

/-- **An entry is removed.** -/
theorem total_erase : total weight (map.erase key) + weightAt weight map key = total weight map := by
  cases held : map[key]? with
  | none =>
    rw [weightAt_of_none held, Nat.add_zero]
    refine total_congr fun one => ?_
    by_cases same : one = key
    · rw [same, TreeMap.getElem?_erase_self, held]
    · exact getElem?_erase_of_ne same
  | some value =>
    -- The entry that is removed is written again.
    have again : total weight map = total weight ((map.erase key).insert key value) := by
      refine total_congr fun one => ?_
      by_cases same : one = key
      · rw [same, TreeMap.getElem?_insert_self, held]
      · rw [getElem?_insert_of_ne same, getElem?_erase_of_ne same]
    rw [again, total_insert_new TreeMap.getElem?_erase_self, weightAt_of_some held, Nat.add_comm]

/-- **An entry is written.** -/
theorem total_insert :
    total weight (map.insert key value) + weightAt weight map key =
      total weight map + weight key value := by
  have written : total weight (map.insert key value) =
      total weight ((map.erase key).insert key value) := by
    refine total_congr fun one => ?_
    by_cases same : one = key
    · rw [same, TreeMap.getElem?_insert_self, TreeMap.getElem?_insert_self]
    · rw [getElem?_insert_of_ne same, getElem?_insert_of_ne same, getElem?_erase_of_ne same]
  have removed : total weight (map.erase key) + weightAt weight map key = total weight map :=
    total_erase
  rw [written, total_insert_new TreeMap.getElem?_erase_self]
  omega

/-- What a key holds is part of the total. -/
theorem weightAt_le_total : weightAt weight map key ≤ total weight map := by
  have removed : total weight (map.erase key) + weightAt weight map key = total weight map :=
    total_erase
  omega

/-- **Totals are compared entry by entry.** -/
theorem total_le_total (below : ∀ key value, map[key]? = some value → weight key value ≤ other key value) :
    total weight map ≤ total other map := by
  refine List.sum_le_sum fun entry inside => ?_
  exact below entry.1 entry.2 (TreeMap.mem_toList_iff_getElem?_eq_some.mp inside)

/-! ### The first entry of least rank -/

/-- A loop that keeps the best entry so far, and leaves it for one of smaller rank only. -/
def firstLeast (best : Key × Nat) : List (Key × Nat) → Key × Nat
  | [] => best
  | entry :: entries => firstLeast (if entry.2 < best.2 then entry else best) entries

variable (cmp) in
/-- By rank, and then by key. -/
def Precedes (first second : Key × Nat) : Prop :=
  first.2 < second.2 ∨ first.2 = second.2 ∧ cmp first.1 second.1 = .lt

instance (first second : Key × Nat) : Decidable (Precedes cmp first second) :=
  inferInstanceAs (Decidable (_ ∨ _))

omit [LawfulEqCmp cmp] in
theorem Precedes.trans {first second third : Key × Nat} (one : Precedes cmp first second)
    (two : Precedes cmp second third) : Precedes cmp first third := by
  rcases one with less | ⟨same, before⟩
  · rcases two with less' | ⟨same', _⟩
    · exact .inl (less.trans less')
    · exact .inl (same' ▸ less)
  · rcases two with less' | ⟨same', before'⟩
    · exact .inl (same ▸ less')
    · exact .inr ⟨same.trans same', TransCmp.lt_trans before before'⟩

omit [LawfulEqCmp cmp] in
theorem Precedes.irrefl (entry : Key × Nat) : ¬ Precedes cmp entry entry := by
  rintro (less | ⟨_, before⟩)
  · exact Nat.lt_irrefl _ less
  · exact absurd (before.symm.trans ReflCmp.compare_self) (by decide)

omit [LawfulEqCmp cmp] in
/-- **The loop finds an entry that precedes all others.** -/
theorem firstLeast_precedes {entries : List (Key × Nat)} :
    ∀ {best : Key × Nat}, (best :: entries).Pairwise (fun first second => cmp first.1 second.1 = .lt) →
      firstLeast best entries ∈ best :: entries ∧
      ∀ entry ∈ best :: entries,
        entry = firstLeast best entries ∨ Precedes cmp (firstLeast best entries) entry := by
  induction entries with
  | nil =>
    intro best _
    refine ⟨List.mem_cons_self, fun entry inside => .inl (List.mem_singleton.mp inside)⟩
  | cons next entries ih =>
    intro best sorted
    obtain ⟨bestFirst, rest⟩ := List.pairwise_cons.mp sorted
    rw [firstLeast]
    by_cases less : next.2 < best.2
    · rw [if_pos less]
      obtain ⟨inside, precedes⟩ := ih rest
      refine ⟨List.mem_cons_of_mem _ inside, List.forall_mem_cons.mpr ⟨.inr ?_, precedes⟩⟩
      rcases precedes next List.mem_cons_self with same | before
      · exact same ▸ .inl less
      · exact before.trans (.inl less)
    · rw [if_neg less]
      have sorted' := List.pairwise_cons.mpr
        ⟨fun entry isLater => bestFirst entry (List.mem_cons_of_mem _ isLater),
          (List.pairwise_cons.mp rest).2⟩
      obtain ⟨inside, precedes⟩ := ih sorted'
      have first : Precedes cmp best next := by
        rcases Nat.eq_or_lt_of_le (Nat.le_of_not_lt less) with same | more
        · exact .inr ⟨same, bestFirst next List.mem_cons_self⟩
        · exact .inl more
      obtain ⟨ofBest, ofRest⟩ := List.forall_mem_cons.mp precedes
      refine ⟨?_, List.forall_mem_cons.mpr ⟨ofBest, List.forall_mem_cons.mpr ⟨.inr ?_, ofRest⟩⟩⟩
      · rcases List.mem_cons.mp inside with isBest | isLater
        · exact List.mem_cons.mpr (.inl isBest)
        · exact List.mem_cons_of_mem _ (List.mem_cons_of_mem _ isLater)
      · rcases ofBest with same | before
        · exact same ▸ first
        · exact before.trans first

end OrderedMap
