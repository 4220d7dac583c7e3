import Mathlib.Data.List.Induction

/-!
# Prefixes of a run

A property of runs holds at the start, and a step keeps it exactly if it does not slip. Then it
holds throughout a run exactly if no step of the run slips.
-/

namespace RunPrefixes

set_option autoImplicit false

variable {Event : Type*} {good : List Event → Prop} {slips : List Event → Event → Prop}

theorem holds_throughout_iff (start : good [])
    (step : ∀ before event, good before → (good (before ++ [event]) ↔ ¬ slips before event))
    (events : List Event) :
    (∀ first, first <+: events → good first) ↔
      ∀ before event, before ++ [event] <+: events → ¬ slips before event := by
  constructor
  · intro throughout before event inside
    have earlier := throughout before ((List.prefix_append _ _).trans inside)
    exact (step before event earlier).mp (throughout _ inside)
  · intro noSlip first inside
    induction first using List.reverseRecOn with
    | nil => exact start
    | append_singleton before event ih =>
        have earlier := ih ((List.prefix_append _ _).trans inside)
        exact (step before event earlier).mpr (noSlip before event inside)

end RunPrefixes
