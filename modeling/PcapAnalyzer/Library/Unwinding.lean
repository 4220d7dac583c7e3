import Mathlib.Logic.Basic

/-!
# Unwinding

A system runs on a list of inputs; an observer sees a view of its state and owns some
of the inputs. If an input it does not own leaves the view as it is, and an input it
owns acts on the view through the view alone, then a run shows the observer the same
as the run of its own inputs. Both conditions may use an invariant of the states.
-/

namespace Unwinding

set_option autoImplicit false

variable {State Input View : Type*}

/-- The conditions on one step. -/
structure Isolated (step : State → Input → State) (invariant : State → Prop)
    (view : State → View) (owns : Input → Bool) : Prop where
  keeps : ∀ state input, invariant state → invariant (step state input)
  foreign : ∀ state input, invariant state → owns input = false →
    view (step state input) = view state
  own : ∀ left right input, invariant left → invariant right → owns input = true →
    view left = view right → view (step left input) = view (step right input)

variable {step : State → Input → State} {invariant : State → Prop} {view : State → View}
  {owns : Input → Bool}

/-- Two runs whose own inputs agree stay indistinguishable. -/
theorem view_run_eq (isolated : Isolated step invariant view owns) (inputs : List Input)
    (left right : State) (leftHolds : invariant left) (rightHolds : invariant right)
    (same : view left = view right) :
    view (inputs.foldl step left) = view ((inputs.filter owns).foldl step right) := by
  induction inputs generalizing left right with
  | nil => exact same
  | cons input rest ih =>
      cases owner : owns input with
      | false =>
          have unseen := isolated.foreign left input leftHolds owner
          rw [List.filter_cons_of_neg (by simp [owner]), List.foldl_cons]
          exact ih _ right (isolated.keeps left input leftHolds) rightHolds (unseen.trans same)
      | true =>
          have acted := isolated.own left right input leftHolds rightHolds owner same
          rw [List.filter_cons_of_pos owner, List.foldl_cons, List.foldl_cons]
          exact ih _ _ (isolated.keeps left input leftHolds)
            (isolated.keeps right input rightHolds) acted

end Unwinding
