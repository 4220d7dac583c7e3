import Mathlib.Data.List.Basic

/-!
# Parsers on growing input

A parser reads a value off the front of its input. While the input is still growing, one
error asks for more; a parser is stable if appending input changes no other outcome. Stable
parsers compose, so an outcome that has been reached can be acted upon before the input is
complete.
-/

namespace GrowingInput

set_option autoImplicit false

variable {Symbol Value Next Err : Type*}

/-- A value and the rest of the input, or an error. -/
abbrev Parser (Symbol Value Err : Type*) : Type _ :=
  List Symbol → Except Err (Value × List Symbol)

/-- The outcome for a longer input. -/
def extend (more : List Symbol) :
    Except Err (Value × List Symbol) → Except Err (Value × List Symbol)
  | .ok (value, rest) => .ok (value, rest ++ more)
  | .error err => .error err

/-- Any outcome but the error that waits for more input. -/
def Settled (wait : Err) (outcome : Except Err (Value × List Symbol)) : Prop :=
  outcome ≠ .error wait

/-- A settled outcome is the outcome for every longer input as well. -/
def Stable (wait : Err) (parser : Parser Symbol Value Err) : Prop :=
  ∀ input more, Settled wait (parser input) → parser (input ++ more) = extend more (parser input)

section Compose

variable {wait : Err}

/-- One parser after another. -/
def andThen (first : Parser Symbol Value Err) (second : Value → Parser Symbol Next Err) :
    Parser Symbol Next Err := fun input =>
  match first input with
  | .ok (value, rest) => second value rest
  | .error err => .error err

/-- A check of what has been read; it reads nothing. -/
def check (test : Value → Except Err Next) (value : Value) : Parser Symbol Next Err := fun input =>
  match test value with
  | .ok next => .ok (next, input)
  | .error err => .error err

theorem Stable.andThen {first : Parser Symbol Value Err}
    {second : Value → Parser Symbol Next Err} (firstStable : Stable wait first)
    (secondStable : ∀ value, Stable wait (second value)) :
    Stable wait (andThen first second) := by
  intro input more settled
  have moved := firstStable input more
  unfold GrowingInput.andThen at settled ⊢
  cases read : first input with
  | error err =>
      rw [read] at settled moved
      simp only [Settled, ne_eq, Except.error.injEq] at settled moved
      rw [moved settled]
      rfl
  | ok result =>
      rcases result with ⟨value, rest⟩
      rw [read] at settled moved
      rw [moved (by simp [Settled])]
      exact secondStable value rest more settled

theorem check_stable (test : Value → Except Err Next) (value : Value) :
    Stable wait (check test value : Parser Symbol Next Err) := by
  intro input more settled
  unfold check
  cases test value <;> rfl

end Compose

end GrowingInput
