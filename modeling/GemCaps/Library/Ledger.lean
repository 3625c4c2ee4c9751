/-
**Slots that are free or used.**

`Divided slots free used` says that every slot stands once in exactly one of the two lists, and that
nothing else stands there. Taking a slot and giving it back keep a division (`Divided.take`,
`Divided.give`); a division with as many free slots as there are slots has none in use
(`Divided.used_eq_nil`). `divided_flatMap` puts the divisions of several blocks together, and
`perm_flatMap_filter` sorts items into the blocks they belong to.
-/

import Mathlib.Data.List.Nodup
import Mathlib.Data.List.Perm.Basic
import Mathlib.Data.List.Perm.Lattice

namespace Ledger

variable {α : Type} {slots free used : List α} {slot : α}

/-- Every slot is free or used, and once. -/
structure Divided (slots free used : List α) : Prop where
  distinct : slots.Nodup
  whole : (free ++ used).Perm slots

/-- All slots are free. -/
theorem divided_free (distinct : slots.Nodup) : Divided slots slots [] :=
  ⟨distinct, by rw [List.append_nil]⟩

namespace Divided

theorem mem_iff (divided : Divided slots free used) : slot ∈ slots ↔ slot ∈ free ∨ slot ∈ used := by
  rw [← divided.whole.mem_iff, List.mem_append]

/-- **No slot is both free and used.** -/
theorem notMem_used (divided : Divided slots free used) (isFree : slot ∈ free) : slot ∉ used := by
  intro isUsed
  have apart := List.nodup_append'.mp (divided.whole.nodup_iff.mpr divided.distinct)
  exact apart.2.2 isFree isUsed

/-- The order in which the lists are kept does not matter. -/
theorem congr {others : List α} (divided : Divided slots free used) (same : used.Perm others) :
    Divided slots free others :=
  ⟨divided.distinct, (same.symm.append_left free).trans divided.whole⟩

/-- **Taking a slot.** -/
theorem take (divided : Divided slots (free ++ [slot]) used) : Divided slots free (slot :: used) := by
  refine ⟨divided.distinct, ?_⟩
  have whole := divided.whole
  rwa [List.append_assoc, List.singleton_append] at whole

/-- **Giving a slot back.** -/
theorem give {rest : List α} (divided : Divided slots free used)
    (isUsed : used.Perm (slot :: rest)) : Divided slots (free ++ [slot]) rest := by
  refine ⟨divided.distinct, ?_⟩
  rw [List.append_assoc, List.singleton_append]
  exact (isUsed.symm.append_left free).trans divided.whole

theorem length (divided : Divided slots free used) : free.length + used.length = slots.length := by
  rw [← divided.whole.length_eq, List.length_append]

/-- **When as many slots are free as there are, none is in use.** -/
theorem used_eq_nil (divided : Divided slots free used) (full : free.length = slots.length) :
    used = [] := by
  have sum := divided.length
  exact List.length_eq_zero_iff.mp (by omega)

/-- Two divisions of slots that are apart. -/
theorem append {slots' free' used' : List α} (first : Divided slots free used)
    (second : Divided slots' free' used') (apart : (slots ++ slots').Nodup) :
    Divided (slots ++ slots') (free ++ free') (used ++ used') := by
  refine ⟨apart, ?_⟩
  have crossed : ((free ++ free') ++ (used ++ used')).Perm ((free ++ used) ++ (free' ++ used')) := by
    rw [List.append_assoc, List.append_assoc]
    refine List.Perm.append_left free ?_
    rw [← List.append_assoc, ← List.append_assoc]
    exact List.perm_append_comm.append_right used'
  exact crossed.trans (first.whole.append second.whole)

end Divided

/-- **The divisions of several blocks.** -/
theorem divided_flatMap {ι : Type} {blocks : List ι} {slotsOf freeOf usedOf : ι → List α}
    (divided : ∀ block ∈ blocks, Divided (slotsOf block) (freeOf block) (usedOf block))
    (apart : (blocks.flatMap slotsOf).Nodup) :
    Divided (blocks.flatMap slotsOf) (blocks.flatMap freeOf) (blocks.flatMap usedOf) := by
  induction blocks with
  | nil => exact divided_free apart
  | cons block blocks ih =>
    obtain ⟨first, others⟩ := List.forall_mem_cons.mp divided
    have rest := ih others (List.nodup_append'.mp apart).2.1
    exact first.append rest apart

/-- **Items sorted into their keys** are the same items. -/
theorem perm_flatMap_filter {ι : Type} [DecidableEq ι] (key : α → ι) {keys : List ι}
    (distinct : keys.Nodup) {items : List α} (known : ∀ item ∈ items, key item ∈ keys) :
    (keys.flatMap fun one => items.filter fun item => key item = one).Perm items := by
  induction keys generalizing items with
  | nil =>
    have none : items = [] := List.eq_nil_iff_forall_not_mem.mpr fun item inside =>
      List.not_mem_nil (known item inside)
    rw [none]
    exact List.Perm.refl _
  | cons first keys ih =>
    obtain ⟨isNew, distinct⟩ := List.nodup_cons.mp distinct
    have others : ∀ item ∈ items.filter fun item => !decide (key item = first), key item ∈ keys := by
      intro item inside
      obtain ⟨old, other⟩ := List.mem_filter.mp inside
      exact (List.mem_cons.mp (known item old)).resolve_left (by simpa using other)
    have same : (keys.flatMap fun one => items.filter fun item => key item = one) =
        keys.flatMap fun one => (items.filter fun item => !decide (key item = first)).filter
          fun item => key item = one := by
      refine List.flatMap_congr fun one isKey => ?_
      rw [List.filter_filter]
      refine List.filter_congr fun item _ => ?_
      have apart : one ≠ first := fun same => isNew (same ▸ isKey)
      by_cases isOne : key item = one
      · simp [isOne, apart]
      · simp [isOne]
    rw [List.flatMap_cons, same]
    exact ((ih distinct others).append_left _).trans (List.filter_append_perm _ _)

end Ledger
