import Mathlib.Data.List.Forall2
import Mathlib.Order.Basic

/-!
# Loops that leave by a measure

A `while (true)` body is one `Turn`: it leaves with a result or goes round again
with a new state. Running it takes a fuel argument, so that a run can be
evaluated; whenever every `again` decreases a measure the fuel is irrelevant and
the loop satisfies its own unfolding equation.
-/

namespace MeasuredLoop

set_option autoImplicit false

variable {State Result : Type*}

/-- What one pass through a loop body does. -/
inductive Turn (State Result : Type*) where
  | leave (result : Result)
  | again (state : State)

/-- Run the body at most `fuel` times; `spent` is only used when fuel runs out. -/
def run (turn : State → Turn State Result) (spent : State → Result) : Nat → State → Result
  | 0, state => spent state
  | fuel + 1, state =>
      match turn state with
      | .leave result => result
      | .again next => run turn spent fuel next

/-- The states in which the body is entered, in order. -/
def visited (turn : State → Turn State Result) : Nat → State → List State
  | 0, _ => []
  | fuel + 1, state =>
      state :: match turn state with
        | .leave _ => []
        | .again next => visited turn fuel next

/-- Every pass that goes round again makes the measure smaller. -/
def Decreasing (turn : State → Turn State Result) (measure : State → Nat) : Prop :=
  ∀ state next, turn state = .again next → measure next < measure state

/-- The loop, entered in this state, leaves with this result. -/
inductive Ends (turn : State → Turn State Result) : State → Result → Prop where
  | leave {state : State} {result : Result} (pass : turn state = .leave result) :
      Ends turn state result
  | again {state next : State} {result : Result} (pass : turn state = .again next)
      (later : Ends turn next result) : Ends turn state result

section Fuel

variable {turn : State → Turn State Result} {spent : State → Result} {measure : State → Nat}

theorem run_fuel_irrelevant (decreasing : Decreasing turn measure) (left right : Nat)
    (state : State) (leftEnough : measure state < left) (rightEnough : measure state < right) :
    run turn spent left state = run turn spent right state := by
  induction left generalizing right state with
  | zero => omega
  | succ left ih =>
      cases right with
      | zero => omega
      | succ right =>
          simp only [run]
          cases pass : turn state with
          | leave result => rfl
          | again next =>
              have smaller := decreasing state next pass
              exact ih right next (by omega) (by omega)

/-- The unfolding equation of a loop that is given enough fuel. -/
theorem run_unfold (decreasing : Decreasing turn measure) (fuel : Nat) (state : State)
    (enough : measure state < fuel) :
    run turn spent fuel state =
      match turn state with
      | .leave result => result
      | .again next => run turn spent (measure next + 1) next := by
  cases fuel with
  | zero => omega
  | succ fuel =>
      rw [run]
      cases pass : turn state with
      | leave result => rfl
      | again next =>
          have smaller := decreasing state next pass
          exact run_fuel_irrelevant decreasing fuel _ next (by omega) (Nat.lt_succ_self _)

theorem run_leave (decreasing : Decreasing turn measure) {fuel : Nat} {state : State}
    {result : Result} (enough : measure state < fuel) (pass : turn state = .leave result) :
    run turn spent fuel state = result := by
  rw [run_unfold decreasing fuel state enough, pass]

theorem run_again (decreasing : Decreasing turn measure) {fuel : Nat} {state next : State}
    (enough : measure state < fuel) (pass : turn state = .again next) :
    run turn spent fuel state = run turn spent (measure next + 1) next := by
  rw [run_unfold decreasing fuel state enough, pass]

theorem visited_fuel_irrelevant (decreasing : Decreasing turn measure) (left right : Nat)
    (state : State) (leftEnough : measure state < left) (rightEnough : measure state < right) :
    visited turn left state = visited turn right state := by
  induction left generalizing right state with
  | zero => omega
  | succ left ih =>
      cases right with
      | zero => omega
      | succ right =>
          simp only [visited]
          cases pass : turn state with
          | leave result => rfl
          | again next =>
              have smaller := decreasing state next pass
              exact congrArg (state :: ·) (ih right next (by omega) (by omega))

theorem visited_leave {fuel : Nat} {state : State} {result : Result}
    (pass : turn state = .leave result) : visited turn (fuel + 1) state = [state] := by
  rw [visited, pass]

theorem visited_again (decreasing : Decreasing turn measure) {fuel : Nat} {state next : State}
    (enough : measure state < fuel + 1) (pass : turn state = .again next) :
    visited turn (fuel + 1) state = state :: visited turn (measure next + 1) next := by
  have smaller := decreasing state next pass
  rw [visited, pass]
  exact congrArg (state :: ·)
    (visited_fuel_irrelevant decreasing fuel _ next (by omega) (Nat.lt_succ_self _))

/-- The invariant rule: what every pass preserves, and every exit turns into the
postcondition, the whole loop establishes. -/
theorem run_invariant (decreasing : Decreasing turn measure)
    (invariant : State → Prop) (post : Result → Prop)
    (preserved : ∀ state next, invariant state → turn state = .again next → invariant next)
    (exit : ∀ state result, invariant state → turn state = .leave result → post result)
    (fuel : Nat) (state : State) (enough : measure state < fuel) (initial : invariant state) :
    post (run turn spent fuel state) := by
  induction fuel generalizing state with
  | zero => omega
  | succ fuel ih =>
      simp only [run]
      cases pass : turn state with
      | leave result => exact exit state result initial pass
      | again next =>
          have smaller := decreasing state next pass
          exact ih next (by omega) (preserved state next initial pass)

/-- A loop with a measure ends, and what it leaves with is what running it yields. -/
theorem ends_run (decreasing : Decreasing turn measure) (fuel : Nat) (state : State)
    (enough : measure state < fuel) : Ends turn state (run turn spent fuel state) := by
  induction fuel generalizing state with
  | zero => omega
  | succ fuel ih =>
      simp only [run]
      cases pass : turn state with
      | leave result => exact .leave pass
      | again next =>
          have smaller := decreasing state next pass
          exact .again pass (ih next (by omega))

end Fuel

theorem Ends.unique {turn : State → Turn State Result} {state : State} {left right : Result}
    (first : Ends turn state left) (second : Ends turn state right) : left = right := by
  induction first with
  | leave pass =>
      cases second with
      | leave pass' =>
          rw [pass] at pass'
          exact Turn.leave.inj pass'
      | again pass' =>
          rw [pass] at pass'
          cases pass'
  | again pass _ ih =>
      cases second with
      | leave pass' =>
          rw [pass] at pass'
          cases pass'
      | again pass' later =>
          rw [pass] at pass'
          exact ih (Turn.again.inj pass' ▸ later)

/-- A loop with a measure yields what it ends with. -/
theorem run_eq_iff {turn : State → Turn State Result} {spent : State → Result}
    {measure : State → Nat} (decreasing : Decreasing turn measure) {fuel : Nat} {state : State}
    (enough : measure state < fuel) (result : Result) :
    run turn spent fuel state = result ↔ Ends turn state result := by
  have ends : Ends turn state (run turn spent fuel state) :=
    ends_run decreasing fuel state enough
  constructor
  · rintro rfl
    exact ends
  · exact fun other => ends.unique other

section Traced

variable {Out : Type*}

/-- A turn with something noted beside it. -/
def traced (turn : State → Turn State Result) (note : State → Out → Out) (state : State × Out) :
    Turn (State × Out) (Result × Out) :=
  match turn state.1 with
  | .leave result => .leave (result, note state.1 state.2)
  | .again next => .again (next, note state.1 state.2)

/-- Noting things does not change the loop, and each state that is visited is noted. -/
theorem run_traced (turn : State → Turn State Result) (note : State → Out → Out)
    (spent : State → Result) (fuel : Nat) (state : State) (out : Out) :
    run (traced turn note) (fun state => (spent state.1, state.2)) fuel (state, out) =
      (run turn spent fuel state,
        (visited turn fuel state).foldl (fun out state => note state out) out) := by
  induction fuel generalizing state out with
  | zero => rfl
  | succ fuel ih =>
      simp only [run, visited, traced]
      cases turn state with
      | leave result => rfl
      | again next => exact ih next (note state out)

end Traced

/-- Where a turn of a loop whose result is its last state ends. -/
def Turn.state {State : Type*} : Turn State State → State
  | .leave state => state
  | .again state => state

/-- What every turn does to a state the whole loop does, if it composes. -/
theorem run_composes {turn : State → Turn State State} {relation : State → State → Prop}
    (refl : ∀ state, relation state state)
    (trans : ∀ first second third, relation first second → relation second third →
      relation first third)
    (turns : ∀ state, relation state (turn state).state) (fuel : Nat) (state : State) :
    relation state (run turn id fuel state) := by
  induction fuel generalizing state with
  | zero => exact refl state
  | succ fuel ih =>
      have step := turns state
      simp only [run]
      cases pass : turn state with
      | leave result =>
          rw [pass] at step
          exact step
      | again next =>
          rw [pass] at step
          exact trans state next _ step (ih next)

/-- Two turns do the same: both leave or both go round again. -/
inductive SameTurn {Left Right LeftResult RightResult : Type*} (related : Left → Right → Prop)
    (relatedResult : LeftResult → RightResult → Prop) :
    Turn Left LeftResult → Turn Right RightResult → Prop where
  | leave {left : LeftResult} {right : RightResult} (results : relatedResult left right) :
      SameTurn related relatedResult (.leave left) (.leave right)
  | again {left : Left} {right : Right} (states : related left right) :
      SameTurn related relatedResult (.again left) (.again right)

/-- Two loops whose turns do the same on related states have related results. -/
theorem run_related {Left Right LeftResult RightResult : Type*} {related : Left → Right → Prop}
    {relatedResult : LeftResult → RightResult → Prop} {leftTurn : Left → Turn Left LeftResult}
    {rightTurn : Right → Turn Right RightResult} {leftSpent : Left → LeftResult}
    {rightSpent : Right → RightResult}
    (turns : ∀ left right, related left right →
      SameTurn related relatedResult (leftTurn left) (rightTurn right))
    (spent : ∀ left right, related left right → relatedResult (leftSpent left) (rightSpent right))
    (fuel : Nat) (left : Left) (right : Right) (initial : related left right) :
    relatedResult (run leftTurn leftSpent fuel left) (run rightTurn rightSpent fuel right) := by
  induction fuel generalizing left right with
  | zero => exact spent left right initial
  | succ fuel ih =>
      have turn := turns left right initial
      simp only [run]
      generalize leftTurn left = leftPass at turn
      generalize rightTurn right = rightPass at turn
      cases turn with
      | leave results => exact results
      | again states => exact ih _ _ states

/-- They go through related states. -/
theorem visited_related {Left Right LeftResult RightResult : Type*} {related : Left → Right → Prop}
    {relatedResult : LeftResult → RightResult → Prop} {leftTurn : Left → Turn Left LeftResult}
    {rightTurn : Right → Turn Right RightResult}
    (turns : ∀ left right, related left right →
      SameTurn related relatedResult (leftTurn left) (rightTurn right))
    (fuel : Nat) (left : Left) (right : Right) (initial : related left right) :
    List.Forall₂ related (visited leftTurn fuel left) (visited rightTurn fuel right) := by
  induction fuel generalizing left right with
  | zero => exact .nil
  | succ fuel ih =>
      have turn := turns left right initial
      simp only [visited]
      generalize leftTurn left = leftPass at turn
      generalize rightTurn right = rightPass at turn
      cases turn with
      | leave => exact .cons initial .nil
      | again states => exact .cons initial (ih _ _ states)

/-- One loop runs ahead of another: it repeats every turn of the other, and where the other
leaves, it goes on to a related result. -/
theorem run_ahead {turn turn' : State → Turn State Result} {measure : State → Nat}
    (spent spent' : State → Result) (decreasing : Decreasing turn measure)
    (decreasing' : Decreasing turn' measure)
    (related : State → State → Prop) (relatedResult : Result → Result → Prop)
    (again : ∀ behind ahead next, related behind ahead → turn behind = .again next →
      ∃ next', turn' ahead = .again next' ∧ related next next')
    (leave : ∀ behind ahead result, related behind ahead → turn behind = .leave result →
      relatedResult result (run turn' spent' (measure ahead + 1) ahead))
    (behind ahead : State) (initial : related behind ahead) :
    relatedResult (run turn spent (measure behind + 1) behind)
      (run turn' spent' (measure ahead + 1) ahead) := by
  generalize bound : measure behind = size
  induction size using Nat.strongRecOn generalizing behind ahead with
  | ind size ih =>
      rw [← bound]
      cases pass : turn behind with
      | leave result =>
          rw [run_leave decreasing (Nat.lt_succ_self _) pass]
          exact leave behind ahead result initial pass
      | again next =>
          obtain ⟨next', pass', related'⟩ := again behind ahead next initial pass
          have smaller := decreasing behind next pass
          rw [run_again decreasing (Nat.lt_succ_self _) pass,
            run_again decreasing' (Nat.lt_succ_self _) pass']
          exact ih (measure next) (by omega) next next' related' rfl

end MeasuredLoop
