/-
**Traces in which every entry finds what it needs before it.**

`met before entry` is a demand of an entry on the part of the trace that stands before it. A trace
grows at its end, so that a demand once met stays met: `preceded_concat_iff` adds one entry,
`preceded_append_iff` a list of entries, and `Preceded.append` a list of entries that demand nothing.
-/

import Mathlib.Data.List.Basic

namespace Trace

variable {α : Type} {met : List α → α → Prop}

/-- Every entry finds its demand met by what stands before it. -/
def Preceded (met : List α → α → Prop) (trace : List α) : Prop :=
  ∀ before entry after, trace = before ++ entry :: after → met before entry

theorem preceded_nil : Preceded met [] := fun before _ _ same =>
  absurd same.symm (by simp)

/-- **One more entry.** -/
theorem preceded_concat_iff (trace : List α) (last : α) :
    Preceded met (trace ++ [last]) ↔ Preceded met trace ∧ met trace last := by
  constructor
  · intro preceded
    refine ⟨fun before entry after same => ?_, preceded trace last [] rfl⟩
    exact preceded before entry (after ++ [last]) (by rw [same]; simp)
  · rintro ⟨preceded, isMet⟩ before entry after same
    rcases List.eq_nil_or_concat after with rfl | ⟨earlier, other, rfl⟩
    · obtain ⟨rfl, isLast⟩ := List.append_inj' same rfl
      exact List.singleton_inj.mp isLast ▸ isMet
    · have shape : trace ++ [last] = (before ++ entry :: earlier) ++ [other] := by
        rw [same]
        simp
      exact preceded before entry earlier (List.append_inj' shape rfl).1

/-- **A trace and what is added to it**: what is added looks back on the trace and on what was added
before. -/
theorem preceded_append_iff (trace new : List α) :
    Preceded met (trace ++ new) ↔ Preceded met trace ∧
      Preceded (fun earlier entry => met (trace ++ earlier) entry) new := by
  constructor
  · intro preceded
    refine ⟨fun before entry after same => ?_, fun before entry after same => ?_⟩
    · exact preceded before entry (after ++ new) (by rw [same]; simp)
    · exact preceded (trace ++ before) entry after (by rw [same]; simp)
  · rintro ⟨old, added⟩ before entry after same
    rcases List.append_eq_append_iff.mp same with ⟨rest, isBefore, isNew⟩ | ⟨rest, isTrace, isAfter⟩
    · exact isBefore ▸ added rest entry after isNew
    · cases rest with
      | nil =>
        rw [List.append_nil] at isTrace
        have isNew : new = [] ++ entry :: after := isAfter.symm
        have isMet : met (trace ++ []) entry := added [] entry after isNew
        rwa [List.append_nil, isTrace] at isMet
      | cons other rest =>
        obtain ⟨rfl, rfl⟩ := List.cons.inj isAfter
        exact old before entry rest isTrace

/-- Entries that demand nothing. -/
theorem Preceded.append {trace new : List α} (preceded : Preceded met trace)
    (free : ∀ entry ∈ new, ∀ before, met before entry) : Preceded met (trace ++ new) := by
  refine (preceded_append_iff trace new).mpr ⟨preceded, fun before entry after same => ?_⟩
  exact free entry (by simp [same]) _

/-- A trace that starts with this entry. -/
theorem preceded_cons_iff (entry : α) (trace : List α) :
    Preceded met (entry :: trace) ↔
      met [] entry ∧ Preceded (fun before => met (entry :: before)) trace := by
  have alone : Preceded met [entry] ↔ met [] entry :=
    (preceded_concat_iff [] entry).trans (and_iff_right preceded_nil)
  exact (preceded_append_iff [entry] trace).trans (and_congr_left fun _ => alone)

/-- Demands that can be decided are decided entry by entry. -/
def decidablePreceded : (met : List α → α → Prop) → [∀ before entry, Decidable (met before entry)] →
    (trace : List α) → Decidable (Preceded met trace)
  | _, _, [] => .isTrue preceded_nil
  | met, _, entry :: trace =>
    have := decidablePreceded (fun before => met (entry :: before)) trace
    decidable_of_iff _ (preceded_cons_iff entry trace).symm

instance [∀ before entry, Decidable (met before entry)] (trace : List α) :
    Decidable (Preceded met trace) := decidablePreceded met trace

theorem Preceded.of_isPrefix {trace longer : List α} (preceded : Preceded met longer)
    (isPrefix : trace <+: longer) : Preceded met trace := by
  obtain ⟨new, rfl⟩ := isPrefix
  exact ((preceded_append_iff trace new).mp preceded).1

end Trace
