/-
**Items that are lent and come back.**

The calls of one borrower lend it items and give them back. `Kept calls items`: the calls about every
item are complete loans, one after the other, and for the items that are out one more lending. Lending
what is not out and giving back what is out keep this (`Kept.lend`, `Kept.giveBack`, and `lendAll`,
`giveBackAll` for several items at once); when nothing is out, every loan was returned exactly once
(`Kept.returnedOnce`). `callsOf` picks the calls of one borrower out of the calls of several.
-/

import Mathlib.Data.List.Nodup
import Mathlib.Data.List.Perm.Basic

namespace Lending

inductive Call (α : Type) where
  | lend (item : α)
  | giveBack (item : α)
deriving DecidableEq

variable {α : Type}

def Call.item : Call α → α
  | .lend item => item
  | .giveBack item => item

/-- Complete loans of an item, one after the other. -/
def loans (item : α) (times : Nat) : List (Call α) :=
  (List.replicate times [Call.lend item, .giveBack item]).flatten

variable [DecidableEq α]

/-- The calls about an item. -/
def about (calls : List (Call α)) (item : α) : List (Call α) :=
  calls.filter fun call => call.item = item

/-- The item was lent, and not given back since. -/
def Out (calls : List (Call α)) (item : α) : Prop := (about calls item).getLast? = some (.lend item)

instance (calls : List (Call α)) (item : α) : Decidable (Out calls item) :=
  inferInstanceAs (Decidable (_ = _))

/-- Whenever an item was lent it was given back exactly once, and before it was lent again. -/
def ReturnedOnce (calls : List (Call α)) : Prop :=
  ∀ item, ∃ times, about calls item = loans item times

/-- The items are those that are out; apart from them everything was returned once. -/
structure Kept (calls : List (Call α)) (items : List α) : Prop where
  distinct : items.Nodup
  told : ∀ item, ∃ times,
    about calls item = loans item times ++ if item ∈ items then [.lend item] else []

variable {calls : List (Call α)} {items rest : List α} {item : α}

omit [DecidableEq α] in
theorem loans_succ (item : α) (times : Nat) :
    loans item (times + 1) = loans item times ++ [.lend item, .giveBack item] := by
  unfold loans
  rw [List.replicate_succ', List.flatten_append, List.flatten_singleton]

theorem about_concat (calls : List (Call α)) (call : Call α) (item : α) :
    about (calls ++ [call]) item = about calls item ++ if call.item = item then [call] else [] := by
  unfold about
  rw [List.filter_append]
  by_cases same : call.item = item
  · rw [if_pos same, List.filter_cons_of_pos (by simpa using same), List.filter_nil]
  · rw [if_neg same, List.filter_cons_of_neg (by simpa using same), List.filter_nil]

theorem kept_nil : Kept ([] : List (Call α)) [] := ⟨List.nodup_nil, fun _ => ⟨0, rfl⟩⟩

namespace Kept

theorem perm {others : List α} (kept : Kept calls items) (same : items.Perm others) :
    Kept calls others := by
  refine ⟨same.nodup_iff.mp kept.distinct, fun item => ?_⟩
  simp only [← same.mem_iff]
  exact kept.told item

/-- **Lending what is not out.** -/
theorem lend (kept : Kept calls items) (isNew : item ∉ items) :
    Kept (calls ++ [.lend item]) (item :: items) := by
  refine ⟨List.nodup_cons.mpr ⟨isNew, kept.distinct⟩, fun other => ?_⟩
  obtain ⟨times, told⟩ := kept.told other
  refine ⟨times, ?_⟩
  rw [about_concat, told, List.append_assoc]
  congr 1
  by_cases same : item = other
  · subst same
    rw [if_neg isNew, if_pos List.mem_cons_self, List.nil_append]
    exact if_pos rfl
  · have apart : other ∈ item :: items ↔ other ∈ items := by simp [Ne.symm same]
    rw [if_neg (show ¬ (Call.lend item).item = other from same), List.append_nil]
    simp only [apart]

/-- **Giving back what is out.** -/
theorem giveBack (kept : Kept calls items) (isOut : items.Perm (item :: rest)) :
    Kept (calls ++ [.giveBack item]) rest := by
  have kept := kept.perm isOut
  obtain ⟨isGone, distinct⟩ := List.nodup_cons.mp kept.distinct
  refine ⟨distinct, fun other => ?_⟩
  obtain ⟨times, told⟩ := kept.told other
  rw [about_concat, told]
  by_cases same : item = other
  · subst same
    refine ⟨times + 1, ?_⟩
    rw [if_pos List.mem_cons_self, if_neg isGone, loans_succ, List.append_nil, List.append_assoc]
    exact congrArg (fun last => loans item times ++ (Call.lend item :: last)) (if_pos rfl)
  · refine ⟨times, ?_⟩
    have apart : other ∈ item :: rest ↔ other ∈ rest := by simp [Ne.symm same]
    rw [if_neg (show ¬ (Call.giveBack item).item = other from same), List.append_nil]
    simp only [apart]

theorem lendAll {items new : List α} {calls : List (Call α)} (kept : Kept calls items)
    (distinct : (new ++ items).Nodup) : Kept (calls ++ new.map .lend) (new ++ items) := by
  induction new generalizing calls items with
  | nil => rwa [List.map_nil, List.append_nil]
  | cons first new ih =>
    have middle : (first :: new ++ items).Perm (new ++ first :: items) := List.perm_middle.symm
    have isNew : first ∉ items := fun inside =>
      (List.nodup_cons.mp distinct).1 (List.mem_append_right new inside)
    have lent := ih (kept.lend isNew) (middle.nodup_iff.mp distinct)
    rw [List.append_assoc, List.singleton_append] at lent
    exact lent.perm middle.symm

theorem giveBackAll {items gone : List α} {calls : List (Call α)} (kept : Kept calls items)
    (areOut : items.Perm (gone ++ rest)) : Kept (calls ++ gone.map .giveBack) rest := by
  induction gone generalizing calls items with
  | nil =>
    rw [List.map_nil, List.append_nil]
    exact kept.perm areOut
  | cons first gone ih =>
    have returned := ih (kept.giveBack areOut) (List.Perm.refl _)
    rwa [List.append_assoc, List.singleton_append] at returned

/-- **The list holds what is out.** -/
theorem out_iff (kept : Kept calls items) : Out calls item ↔ item ∈ items := by
  obtain ⟨times, told⟩ := kept.told item
  unfold Out
  rw [told]
  by_cases inside : item ∈ items
  · rw [if_pos inside, List.getLast?_concat]
    exact iff_of_true rfl inside
  · rw [if_neg inside, List.append_nil]
    refine iff_of_false (fun last => ?_) inside
    cases times with
    | zero => cases last
    | succ times =>
      rw [loans_succ, List.getLast?_append_cons, List.getLast?_cons_cons] at last
      cases last

/-- **When nothing is out, everything was returned once.** -/
theorem returnedOnce (kept : Kept calls []) : ReturnedOnce calls := by
  intro item
  obtain ⟨times, told⟩ := kept.told item
  rw [if_neg List.not_mem_nil, List.append_nil] at told
  exact ⟨times, told⟩

end Kept

/-! ### Several borrowers -/

theorem out_concat_lend {other : α} :
    Out (calls ++ [.lend other]) item ↔ other = item ∨ Out calls item := by
  unfold Out
  rw [about_concat]
  by_cases same : other = item
  · subst same
    rw [if_pos (show (Call.lend other).item = other from rfl), List.getLast?_concat]
    exact iff_of_true rfl (.inl rfl)
  · rw [if_neg (show ¬ (Call.lend other).item = item from same), List.append_nil]
    exact (or_iff_right same).symm

theorem out_concat_giveBack {other : α} :
    Out (calls ++ [.giveBack other]) item ↔ other ≠ item ∧ Out calls item := by
  unfold Out
  rw [about_concat]
  by_cases same : other = item
  · subst same
    rw [if_pos (show (Call.giveBack other).item = other from rfl), List.getLast?_concat]
    exact iff_of_false (fun last => by cases last) fun both => both.1 rfl
  · rw [if_neg (show ¬ (Call.giveBack other).item = item from same), List.append_nil]
    exact (and_iff_right same).symm

section Borrowers

variable {Borrower : Type} [DecidableEq Borrower]

/-- The calls of one borrower. -/
def callsOf (borrower : Borrower) (calls : List (Borrower × Call α)) : List (Call α) :=
  (calls.filter fun call => call.1 = borrower).map Prod.snd

omit [DecidableEq α] in
theorem callsOf_concat (borrower : Borrower) (calls : List (Borrower × Call α))
    (call : Borrower × Call α) :
    callsOf borrower (calls ++ [call]) =
      if call.1 = borrower then callsOf borrower calls ++ [call.2] else callsOf borrower calls := by
  unfold callsOf
  rw [List.filter_append, List.map_append]
  by_cases same : call.1 = borrower
  · rw [if_pos same, List.filter_cons_of_pos (by simpa using same)]
    rfl
  · rw [if_neg same, List.filter_cons_of_neg (by simpa using same)]
    exact List.append_nil _

end Borrowers

end Lending
