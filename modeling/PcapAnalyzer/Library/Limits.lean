import Mathlib.Data.List.Basic

/-!
# Loops with a limit

A loop over rows that stops printing after a number of them, where zero is no limit. Whether it
leaves, alone or out of several nested loops, or goes on and does nothing, what it prints is what
the plain loop prints for the rows up to the limit.
-/

namespace Limits

set_option autoImplicit false

variable {Item State : Type*}

/-- The rows up to the limit. -/
def limited (limit : Nat) (items : List Item) : List Item :=
  if limit = 0 then items else items.take limit

section Rules

variable (add : State → Item → State) (count : State → Nat)

/-- The rows that are left once some are printed. -/
def remaining (limit printed : Nat) (items : List Item) : List Item :=
  if limit = 0 then items else items.take (limit - printed)

theorem remaining_start (limit : Nat) (items : List Item) :
    remaining limit 0 items = limited limit items := rfl

theorem limited_map {Other : Type*} (f : Item → Other) (limit : Nat) (items : List Item) :
    limited limit (items.map f) = (limited limit items).map f := by
  unfold limited
  split_ifs
  · rfl
  · rw [List.map_take]

/-- A loop that does nothing any more once the limit is reached. -/
theorem fold_skipping (adds : ∀ state item, count (add state item) = count state + 1)
    (limit : Nat) (items : List Item) (state : State) :
    items.foldl (fun state item =>
      if limit ≠ 0 ∧ limit ≤ count state then state else add state item) state =
        (remaining limit (count state) items).foldl add state := by
  induction items generalizing state with
  | nil => simp [remaining]
  | cons item items ih =>
      rw [List.foldl_cons, ih]
      by_cases unlimited : limit = 0
      · simp [remaining, unlimited]
      · by_cases reached : limit ≤ count state
        · have none : limit - count state = 0 := by omega
          simp [remaining, unlimited, reached, none]
        · obtain ⟨more, room⟩ : ∃ more, limit - count state = more + 1 :=
            ⟨limit - count state - 1, by omega⟩
          have later : limit - (count state + 1) = more := by omega
          simp [remaining, unlimited, reached, room, adds, later]

/-- A loop that leaves once the limit is reached and another item is there. -/
def stopping (limit : Nat) : Nat → List Item → State → State × Bool
  | _, [], state => (state, false)
  | printed, item :: items, state =>
      if printed ≠ 0 ∧ printed = limit then (state, true)
      else stopping limit (printed + 1) items (add state item)

/-- It prints the items up to the limit, and says whether there are more. -/
theorem stopping_remaining (limit printed : Nat) (items : List Item) (state : State)
    (inside : limit ≠ 0 → printed ≤ limit) :
    stopping add limit printed items state =
      ((remaining limit printed items).foldl add state,
        decide (limit ≠ 0 ∧ limit < printed + items.length)) := by
  induction items generalizing printed state with
  | nil =>
      simpa [stopping, remaining] using inside
  | cons item items ih =>
      rw [stopping]
      by_cases full : printed ≠ 0 ∧ printed = limit
      · obtain ⟨some, rfl⟩ := full
        simp [remaining, some]
      · have inside' : limit ≠ 0 → printed + 1 ≤ limit := by omega
        rw [if_neg full, ih (printed + 1) (add state item) inside']
        by_cases unlimited : limit = 0
        · simp [remaining, unlimited]
        · obtain ⟨more, room⟩ : ∃ more, limit - printed = more + 1 :=
            ⟨limit - printed - 1, by have := inside' unlimited; omega⟩
          have later : limit - (printed + 1) = more := by omega
          simp only [remaining, if_neg unlimited, room, later, List.take_succ_cons,
            List.foldl_cons, List.length_cons, Nat.add_assoc, Nat.add_comm 1]

end Rules

section Breaking

variable (step : State → Item → State) (stop : State → Bool)

/-- A loop that leaves after an item once its state says so. -/
def breaking : List Item → State → State
  | [], state => state
  | item :: items, state =>
      if stop (step state item) then step state item else breaking items (step state item)

theorem breaking_append (front back : List Item) (state : State) (going : stop state = false) :
    breaking step stop (front ++ back) state =
      if stop (breaking step stop front state) then breaking step stop front state
      else breaking step stop back (breaking step stop front state) := by
  induction front generalizing state with
  | nil => simp [breaking, going]
  | cons item front ih =>
      rw [List.cons_append, breaking, breaking]
      by_cases left : stop (step state item) = true
      · simp [left]
      · rw [if_neg left, if_neg left]
        exact ih _ (by simpa using left)

/-- A pass counts only for states in which the loop goes on. -/
theorem breaking_congr {other : State → Item → State}
    (same : ∀ state item, stop state = false → step state item = other state item)
    (items : List Item) (state : State) (going : stop state = false) :
    breaking step stop items state = breaking other stop items state := by
  induction items generalizing state with
  | nil => rfl
  | cons item items ih =>
      rw [breaking, breaking, same state item going]
      by_cases left : stop (other state item) = true
      · rw [if_pos left, if_pos left]
      · rw [if_neg left, if_neg left]
        exact ih _ (by simpa using left)

/-- Loops inside of each other, left together, are one loop over all their items. -/
theorem breaking_nested {Outer : Type*} (inner : Outer → List Item) (items : List Outer)
    (state : State) (going : stop state = false) :
    breaking (fun state item => breaking step stop (inner item) state) stop items state =
      breaking step stop (items.flatMap inner) state := by
  induction items generalizing state with
  | nil => rfl
  | cons item items ih =>
      rw [List.flatMap_cons, breaking_append step stop _ _ state going, breaking]
      by_cases left : stop (breaking step stop (inner item) state) = true
      · rw [if_pos left, if_pos left]
      · rw [if_neg left, if_neg left]
        exact ih _ (by simpa using left)

theorem breaking_map {Other : Type*} (f : Other → Item) (items : List Other) (state : State) :
    breaking (fun state other => step state (f other)) stop items state =
      breaking step stop (items.map f) state := by
  induction items generalizing state with
  | nil => rfl
  | cons item items ih =>
      rw [List.map_cons, breaking, breaking, ih]

variable (add : State → Item → State) (count : State → Nat)

/-- A pass that says instead of printing that the limit was reached. -/
def truncating (limit : Nat) (state : State × Bool) (item : Item) : State × Bool :=
  if limit ≠ 0 ∧ limit ≤ count state.1 then (state.1, true) else (add state.1 item, state.2)

theorem breaking_remaining (adds : ∀ state item, count (add state item) = count state + 1)
    (limit : Nat) (items : List Item) (state : State) (inside : limit ≠ 0 → count state ≤ limit) :
    breaking (truncating add count limit) Prod.snd items (state, false) =
      ((remaining limit (count state) items).foldl add state,
        decide (limit ≠ 0 ∧ limit < count state + items.length)) := by
  induction items generalizing state with
  | nil => simpa [breaking, remaining] using inside
  | cons item items ih =>
      rw [breaking]
      by_cases full : limit ≠ 0 ∧ limit ≤ count state
      · have reached : limit = count state := Nat.le_antisymm full.2 (inside full.1)
        have passed : truncating add count limit (state, false) item = (state, true) := if_pos full
        simp [passed, remaining, full.1, ← reached]
      · have passed : truncating add count limit (state, false) item = (add state item, false) :=
          if_neg full
        have later := ih (add state item) (by rw [adds]; omega)
        rw [passed, if_neg (by simp), later, adds]
        by_cases unlimited : limit = 0
        · simp [remaining, unlimited]
        · obtain ⟨more, room⟩ : ∃ more, limit - count state = more + 1 :=
            ⟨limit - count state - 1, by omega⟩
          have less : limit - (count state + 1) = more := by omega
          simp only [remaining, if_neg unlimited, room, less, List.take_succ_cons,
            List.foldl_cons, List.length_cons, Nat.add_assoc, Nat.add_comm 1]

end Breaking

end Limits
