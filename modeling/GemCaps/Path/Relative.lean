/-
**What `relpath` strips** (`pathutils.cpp`).

The loop of `relpath` compares two lists of components in step and ends when either runs out. A path
that ends first is a proper ancestor of the other one, and nothing is left of it (`relpath_of_above`).
`relpath_iff`: in all other cases `relpath` strips the whole prefix, or nothing.
-/

import GemCaps.Path.Utils

namespace GemCaps.Path

/-- `relpath` strips `rel` from the paths that continue it, and changes no other path. -/
def StripsPrefix (path rel : Bytes) : Prop :=
  (∀ rest, split path = split rel ++ rest → relpath path rel = joinAll rest) ∧
    (¬ split rel <+: split path → relpath path rel = path)

/-- The components behind the prefix. -/
theorem relpath_of_below {path rel : Bytes} {rest : List Bytes}
    (continued : split path = split rel ++ rest) : relpath path rel = joinAll rest := by
  rw [relpath, continued, dropCommon_append]

/-- Nothing is left of an ancestor. -/
theorem relpath_of_above {path rel : Bytes} (above : split path <+: split rel) :
    relpath path rel = [] := by
  obtain ⟨rest, continued⟩ := above
  rw [relpath, ← continued, dropCommon_of_prefix]
  rfl

/-- Two paths that part ways. -/
theorem relpath_of_other {path rel : Bytes} (notBelow : ¬ split rel <+: split path)
    (notAbove : ¬ split path <+: split rel) : relpath path rel = path := by
  have stopped : dropCommon (split path) (split rel) = none := by
    rw [← Option.not_isSome_iff_eq_none, dropCommon_isSome_iff]
    exact not_or.mpr ⟨notAbove, notBelow⟩
  rw [relpath, stopped]

/-- **When `relpath` strips the prefix or nothing**: the path is empty, or no proper ancestor of the
other one. -/
theorem relpath_iff (path rel : Bytes) :
    StripsPrefix path rel ↔ path = [] ∨ ¬ (split path <+: split rel ∧ split path ≠ split rel) := by
  constructor
  · rintro ⟨_, unchanged⟩
    by_contra failing
    obtain ⟨filled, proper⟩ := not_or.mp failing
    obtain ⟨above, different⟩ := not_not.mp proper
    have notBelow : ¬ split rel <+: split path := fun below =>
      different (above.eq_of_length (Nat.le_antisymm above.length_le below.length_le))
    exact filled ((unchanged notBelow).symm.trans (relpath_of_above above))
  · intro condition
    refine ⟨fun rest continued => relpath_of_below continued, fun notBelow => ?_⟩
    by_cases above : split path <+: split rel
    · rcases condition with rfl | notProper
      · exact relpath_of_above above
      · have same : split path = split rel := not_not.mp fun different => notProper ⟨above, different⟩
        exact absurd (same ▸ List.prefix_rfl) notBelow
    · exact relpath_of_other notBelow above

/-- Nothing is left of `/foo` relative to `/foo/bar`. -/
theorem relpath_ancestor :
    ¬ split (text "/foo/bar") <+: split (text "/foo") ∧
      relpath (text "/foo") (text "/foo/bar") ≠ text "/foo" ∧
      ¬ StripsPrefix (text "/foo") (text "/foo/bar") := by
  have notBelow : ¬ split (text "/foo/bar") <+: split (text "/foo") := by decide
  have changed : relpath (text "/foo") (text "/foo/bar") ≠ text "/foo" := by decide
  exact ⟨notBelow, changed, fun strips => changed (strips.2 notBelow)⟩

end GemCaps.Path
