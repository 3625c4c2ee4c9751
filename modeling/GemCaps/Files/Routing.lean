/-
**Which requests a handler takes.**

`isSubpath` compares two lists of components in step and is content when either runs out.
`shouldHandle_exact_iff`: a handler takes exactly the requests of its host and base, except that it
also takes the paths above its base.
-/

import GemCaps.Files.Handler

namespace GemCaps

/-- `path` is `base` or lies below it. -/
def Path.Below (base path : Bytes) : Prop := split base <+: split path

/-- `path` lies above `base`. -/
def Path.Above (base path : Bytes) : Prop := split path <+: split base ∧ split path ≠ split base

instance (base path : Bytes) : Decidable (Path.Below base path) :=
  inferInstanceAs (Decidable (_ <+: _))

instance (base path : Bytes) : Decidable (Path.Above base path) :=
  inferInstanceAs (Decidable (_ ∧ _))

theorem Path.isSubpath_iff (base path : Bytes) :
    isSubpath base path = true ↔ Below base path ∨ Above base path := by
  rw [isSubpath, dropCommon_isSome_iff]
  constructor
  · rintro (below | above)
    · exact .inl below
    · by_cases same : split path = split base
      · exact .inl (same.symm ▸ List.prefix_rfl : split base <+: split path)
      · exact .inr ⟨above, same⟩
  · exact Or.imp_right And.left

/-- A path above the base is not below it. -/
theorem Path.Above.not_below {base path : Bytes} (above : Above base path) : ¬ Below base path := by
  intro below
  exact above.2 (above.1.eq_of_length (Nat.le_antisymm above.1.length_le below.length_le))

namespace FileHandler

/-- The host is the configured one, where one is configured. -/
def HostMatches (handler : FileHandler) (host : Bytes) : Prop :=
  handler.host = [] ∨ handler.host = host

/-- The request is one of the handler's host and base. -/
def Takes (handler : FileHandler) (host path : Bytes) : Prop :=
  handler.HostMatches host ∧ (handler.base = [] ∨ Path.Below handler.base path)

instance (handler : FileHandler) (host path : Bytes) : Decidable (handler.Takes host path) :=
  inferInstanceAs (Decidable ((_ ∨ _) ∧ (_ ∨ _)))

theorem shouldHandle_iff (handler : FileHandler) (host path : Bytes) :
    handler.shouldHandle host path = true ↔ handler.HostMatches host ∧
      (handler.base = [] ∨ Path.Below handler.base path ∨ Path.Above handler.base path) := by
  simp only [shouldHandle, Bool.and_eq_true, Bool.or_eq_true, List.isEmpty_iff, beq_iff_eq,
    Path.isSubpath_iff]
  rfl

/-- **When a handler takes exactly the requests of its host and base**: the path does not lie above
the base, unless the host or the missing base decides. -/
theorem shouldHandle_exact_iff (handler : FileHandler) (host path : Bytes) :
    ((handler.shouldHandle host path = true ↔ handler.Takes host path) ↔
      ¬ (handler.HostMatches host ∧ handler.base ≠ [] ∧ Path.Above handler.base path)) ∧
    ((Path.isSubpath handler.base path = true ↔ Path.Below handler.base path) ↔
      ¬ Path.Above handler.base path) := by
  constructor
  · rw [shouldHandle_iff, Takes]
    constructor
    · rintro same ⟨host, based, above⟩
      rcases (same.mp ⟨host, .inr (.inr above)⟩).2 with unbased | below
      · exact based unbased
      · exact above.not_below below
    · refine fun notAbove => ⟨fun ⟨host, which⟩ => ⟨host, ?_⟩, And.imp_right (Or.imp_right Or.inl)⟩
      rcases which with unbased | below | above
      · exact .inl unbased
      · exact .inr below
      · exact .inl (not_not.mp fun based => notAbove ⟨host, based, above⟩)
  · rw [Path.isSubpath_iff]
    exact ⟨fun same above => above.not_below (same.mp (.inr above)),
      fun notAbove => or_iff_left notAbove⟩

/-- A handler for everything below `/foo/bar`. -/
def barHandler : FileHandler :=
  ⟨[], text "/srv", text "/foo/bar", true, [], [], text "en_US.UTF-8", ∅⟩

/-- It takes `/foo`. -/
theorem shouldHandle_above :
    ¬ (barHandler.shouldHandle (text "h") (text "/foo") = true ↔
        barHandler.Takes (text "h") (text "/foo")) ∧
      ¬ (Path.isSubpath barHandler.base (text "/foo") = true ↔
        Path.Below barHandler.base (text "/foo")) := by
  decide

end FileHandler

end GemCaps
