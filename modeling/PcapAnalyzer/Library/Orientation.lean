import Mathlib.Logic.Basic

/-!
# Orientation

A value can be turned round, and of the two ways round one is the wrong one. Turning every
value that is the wrong way round picks one of the two for both of them, and tells from
which of them it came.
-/

namespace Orientation

set_option autoImplicit false

variable {Value : Type*}

/-- Turning twice changes nothing, and exactly one of two different ways round is wrong. -/
structure Turning (turn : Value → Value) (wrong : Value → Bool) : Prop where
  back : ∀ value, turn (turn value) = value
  righted : ∀ value, wrong value = true → wrong (turn value) = false
  wronged : ∀ value, turn value ≠ value → wrong value = false → wrong (turn value) = true

/-- The right way round, and whether the value had to be turned. -/
def orient (turn : Value → Value) (wrong : Value → Bool) (value : Value) : Bool × Value :=
  if wrong value then (true, turn value) else (false, value)

variable {turn : Value → Value} {wrong : Value → Bool}

theorem orient_wrong {value : Value} (reversed : wrong value = true) :
    orient turn wrong value = (true, turn value) := by
  rw [orient, if_pos reversed]

theorem orient_right {value : Value} (ordered : wrong value = false) :
    orient turn wrong value = (false, value) := by
  rw [orient, ordered]
  rfl

section Turned

variable (turning : Turning turn wrong)
include turning

/-- A value and the turned one are oriented alike. -/
theorem orient_turn (value : Value) :
    (orient turn wrong (turn value)).2 = (orient turn wrong value).2 := by
  by_cases same : turn value = value
  · rw [same]
  cases order : wrong value with
  | true => rw [orient_wrong order, orient_right (turning.righted value order)]
  | false =>
      rw [orient_right order, orient_wrong (turning.wronged value same order)]
      exact turning.back value

theorem orient_eq_iff (left right : Value) :
    (orient turn wrong left).2 = (orient turn wrong right).2 ↔
      right = left ∨ right = turn left := by
  constructor
  · intro same
    cases first : wrong left with
    | true =>
        cases second : wrong right with
        | true =>
            rw [orient_wrong first, orient_wrong second] at same
            left
            rw [← turning.back right, ← turning.back left]
            exact congrArg turn same.symm
        | false =>
            rw [orient_wrong first, orient_right second] at same
            exact .inr same.symm
    | false =>
        cases second : wrong right with
        | true =>
            rw [orient_right first, orient_wrong second] at same
            right
            rw [← turning.back right]
            exact congrArg turn same.symm
        | false =>
            rw [orient_right first, orient_right second] at same
            exact .inl same.symm
  · rintro (same | turned)
    · rw [same]
    · rw [turned, orient_turn turning]

/-- Of two different ways round, exactly one is reported as turned. -/
theorem orient_reports {value : Value} (different : turn value ≠ value) :
    (orient turn wrong (turn value)).1 = !(orient turn wrong value).1 := by
  cases order : wrong value with
  | true =>
      rw [orient_wrong order, orient_right (turning.righted value order)]
      rfl
  | false =>
      rw [orient_right order, orient_wrong (turning.wronged value different order)]
      rfl

end Turned

end Orientation
