import Mathlib.Algebra.BigOperators.Group.Finset.Basic
import Mathlib.Algebra.Order.BigOperators.Group.Finset
import Mathlib.Logic.Function.Basic

/-!
# Stopwatches

One watch for each phase of a program; phases are started and stopped, one inside of another. If
the marks are nested, every watch that is started is stopped, it counts how often its phase was
entered, and phases that follow each other take together no more time than the one they are in.
-/

namespace Stopwatch

set_option autoImplicit false

variable {Phase : Type*}

inductive Mark (Phase : Type*) where
  | start (phase : Phase)
  | stop (phase : Phase)
  deriving DecidableEq

structure State where
  calls : Nat := 0
  elapsed : Nat := 0
  started : Nat := 0
  running : Bool := false

def State.start (now : Nat) (state : State) : State :=
  { state with started := now, running := true }

/-- Stopping a watch that does not run does nothing. -/
def State.stop (now : Nat) (state : State) : State :=
  if !state.running then state
  else { state with
    running := false
    elapsed := state.elapsed + (now - state.started)
    calls := state.calls + 1 }

/-- A watch that was started and stopped once more. -/
def State.lap (begun ended : Nat) (state : State) : State :=
  { calls := state.calls + 1
    elapsed := state.elapsed + (ended - begun)
    started := begun
    running := false }

/-- The watches, and how often the clock has been read. -/
structure Watches (Phase : Type*) where
  states : Phase → State := fun _ => {}
  readings : Nat := 0

section Play

variable [DecidableEq Phase] (clock : Nat → Nat) (measured : Phase → Bool)

/-- A phase that is not measured does not even read the clock. -/
def mark (watches : Watches Phase) : Mark Phase → Watches Phase
  | .start phase =>
      if !measured phase then watches
      else
        { states := Function.update watches.states phase
            ((watches.states phase).start (clock watches.readings))
          readings := watches.readings + 1 }
  | .stop phase =>
      if !measured phase then watches
      else
        { states := Function.update watches.states phase
            ((watches.states phase).stop (clock watches.readings))
          readings := watches.readings + 1 }

def play (marks : List (Mark Phase)) (watches : Watches Phase) : Watches Phase :=
  marks.foldl (mark clock measured) watches

theorem play_append (left right : List (Mark Phase)) (watches : Watches Phase) :
    play clock measured (left ++ right) watches =
      play clock measured right (play clock measured left watches) :=
  List.foldl_append

end Play

/-- A phase around other marks. -/
def within (phase : Phase) (inner : List (Mark Phase)) : List (Mark Phase) :=
  .start phase :: inner ++ [.stop phase]

/-- The marks of phases inside of each other, none inside of itself. -/
inductive Nested : List (Mark Phase) → Prop where
  | nil : Nested []
  | span {phase : Phase} {inner rest : List (Mark Phase)} (inside : Nested inner)
      (apart : Mark.start phase ∉ inner) (after : Nested rest) :
      Nested (within phase inner ++ rest)

theorem Nested.append {left right : List (Mark Phase)} (first : Nested left)
    (second : Nested right) : Nested (left ++ right) := by
  induction first with
  | nil => exact second
  | span inside apart _ _ ih =>
      rw [List.append_assoc]
      exact .span inside apart ih

theorem Nested.single {phase : Phase} {inner : List (Mark Phase)} (inside : Nested inner)
    (apart : Mark.start phase ∉ inner) : Nested (within phase inner) := by
  have alone := Nested.span inside apart .nil
  rwa [List.append_nil] at alone

/-- Where a phase is not started it is not stopped either. -/
theorem Nested.stop_not_mem {marks : List (Mark Phase)} (nested : Nested marks) {phase : Phase}
    (absent : Mark.start phase ∉ marks) : Mark.stop phase ∉ marks := by
  induction nested with
  | nil => exact List.not_mem_nil
  | span _ _ _ inside after =>
      simp only [within, List.cons_append, List.append_assoc, List.mem_cons, List.mem_append,
        List.not_mem_nil, not_or, Mark.start.injEq, Mark.stop.injEq, reduceCtorEq,
        false_or] at absent ⊢
      exact ⟨inside absent.2.1, absent.1, after absent.2.2⟩

section Balance

variable [DecidableEq Phase] {clock : Nat → Nat} {measured : Phase → Bool}

/-- Marks of other phases do not touch a watch. -/
theorem play_untouched {marks : List (Mark Phase)} {phase : Phase}
    (noStart : Mark.start phase ∉ marks) (noStop : Mark.stop phase ∉ marks)
    (watches : Watches Phase) :
    (play clock measured marks watches).states phase = watches.states phase := by
  induction marks generalizing watches with
  | nil => rfl
  | cons first marks ih =>
      rw [List.mem_cons, not_or] at noStart noStop
      refine (ih noStart.2 noStop.2 _).trans ?_
      cases first with
      | start other =>
          have different : phase ≠ other := fun same => noStart.1 (congrArg Mark.start same)
          rw [mark]
          split_ifs
          · rfl
          · exact Function.update_of_ne different _ _
      | stop other =>
          have different : phase ≠ other := fun same => noStop.1 (congrArg Mark.stop same)
          rw [mark]
          split_ifs
          · rfl
          · exact Function.update_of_ne different _ _

theorem play_readings (marks : List (Mark Phase)) (watches : Watches Phase) :
    watches.readings ≤ (play clock measured marks watches).readings := by
  induction marks generalizing watches with
  | nil => exact Nat.le_refl _
  | cons first marks ih =>
      refine Nat.le_trans ?_ (ih _)
      cases first <;> rw [mark] <;> split_ifs <;> simp

/-- What playing nested marks leaves of a watch, but for the time. -/
structure Balanced (measured : Phase → Bool) (marks : List (Mark Phase))
    (before after : Watches Phase) : Prop where
  running : ∀ phase, (after.states phase).running = (before.states phase).running
  calls : ∀ phase, (after.states phase).calls = (before.states phase).calls +
    if measured phase then marks.count (.start phase) else 0

/-- A phase around nested marks adds a lap to its own watch. -/
theorem play_within {phase : Phase} {inner : List (Mark Phase)} (inside : Nested inner)
    (apart : Mark.start phase ∉ inner) (watches : Watches Phase)
    (taken : measured phase = true) :
    let left := play clock measured inner (mark clock measured watches (.start phase))
    let after := play clock measured (within phase inner) watches
    after.states phase =
        (watches.states phase).lap (clock watches.readings) (clock left.readings) ∧
      (∀ other, other ≠ phase → after.states other = left.states other) ∧
      after.readings = left.readings + 1 := by
  intro left after
  have same : left.states phase = (mark clock measured watches (.start phase)).states phase :=
    play_untouched apart (inside.stop_not_mem apart) _
  have own : left.states phase = (watches.states phase).start (clock watches.readings) := by
    rw [same]
    simp only [mark, taken, Bool.not_true, Bool.false_eq_true, if_false, Function.update_self]
  have split : after = mark clock measured left (.stop phase) := by
    simp only [after, within, play, List.cons_append, List.foldl_cons, List.foldl_append,
      List.foldl_nil]
    rfl
  have stopped : after =
      { states := Function.update left.states phase
          ((watches.states phase).lap (clock watches.readings) (clock left.readings))
        readings := left.readings + 1 } := by
    rw [split, mark]
    simp only [taken, Bool.not_true, Bool.false_eq_true, if_false, own]
    rfl
  rw [stopped]
  exact ⟨Function.update_self _ _ _, fun other different => Function.update_of_ne different _ _,
    rfl⟩

/-- A phase that is not measured is as good as not there. -/
theorem play_within_unmeasured {phase : Phase} (inner : List (Mark Phase))
    (watches : Watches Phase) (unmeasured : measured phase = false) :
    play clock measured (within phase inner) watches = play clock measured inner watches := by
  have start : ∀ watches, mark clock measured watches (.start phase) = watches := by
    intro watches
    simp [mark, unmeasured]
  have stop : ∀ watches, mark clock measured watches (.stop phase) = watches := by
    intro watches
    simp [mark, unmeasured]
  simp only [within, play, List.cons_append, List.foldl_cons, List.foldl_append, List.foldl_nil,
    start, stop]

theorem count_start_within (phase other : Phase) (inner : List (Mark Phase)) :
    (within phase inner).count (.start other) =
      (if other = phase then 1 else 0) + inner.count (.start other) := by
  simp only [within, List.cons_append, List.count_cons, List.count_append, List.count_nil,
    beq_iff_eq, Mark.start.injEq, reduceCtorEq, if_false, Nat.add_zero, @eq_comm _ phase other]
  exact Nat.add_comm _ _

theorem Nested.balanced {marks : List (Mark Phase)} (nested : Nested marks)
    (watches : Watches Phase)
    (idle : ∀ phase, Mark.start phase ∈ marks → (watches.states phase).running = false) :
    Balanced measured marks watches (play clock measured marks watches) := by
  induction nested generalizing watches with
  | nil => exact ⟨fun _ => rfl, fun phase => by simp [play]⟩
  | @span phase inner rest inside apart after innerIh restIh =>
      have spanned : Balanced measured (within phase inner) watches
          (play clock measured (within phase inner) watches) := by
        cases taken : measured phase with
        | false =>
            rw [play_within_unmeasured inner watches taken]
            have played := innerIh watches fun other started =>
              idle other (List.mem_append_left _ (List.mem_cons_of_mem _
                (List.mem_append_left _ started)))
            refine ⟨played.running, fun other => ?_⟩
            rw [played.calls, count_start_within]
            by_cases same : other = phase
            · simp [same, taken]
            · simp [same]
        | true =>
            have entered : ∀ other, other ≠ phase →
                (mark clock measured watches (.start phase)).states other =
                  watches.states other := by
              intro other different
              simp only [mark, taken, Bool.not_true, Bool.false_eq_true, if_false,
                Function.update_of_ne different]
            have played := innerIh (mark clock measured watches (.start phase)) (by
              intro other started
              have different : other ≠ phase := by
                rintro rfl
                exact apart started
              rw [entered other different]
              exact idle other (List.mem_append_left _ (List.mem_cons_of_mem _
                (List.mem_append_left _ started))))
            obtain ⟨own, others, -⟩ := @play_within Phase _ clock measured phase inner inside apart watches taken
            constructor
            · intro other
              by_cases same : other = phase
              · subst same
                rw [own, idle other (List.mem_append_left _ List.mem_cons_self)]
                rfl
              · rw [others other same, played.running, entered other same]
            · intro other
              rw [count_start_within]
              by_cases same : other = phase
              · subst same
                rw [own, List.count_eq_zero_of_not_mem apart]
                simp [taken, State.lap]
              · rw [others other same, played.calls, entered other same]
                simp [same]
      have later := restIh (play clock measured (within phase inner) watches) (by
        intro other started
        rw [spanned.running]
        exact idle other (List.mem_append_right _ started))
      rw [play_append]
      refine ⟨fun other => (later.running other).trans (spanned.running other), fun other => ?_⟩
      rw [later.calls, spanned.calls, List.count_append]
      split_ifs <;> omega

end Balance

section Time

/-- The time of several phases taken together. -/
def total (group : Finset Phase) (watches : Watches Phase) : Nat :=
  ∑ phase ∈ group, (watches.states phase).elapsed

theorem total_congr {group : Finset Phase} {left right : Watches Phase}
    (same : ∀ phase ∈ group, (left.states phase).elapsed = (right.states phase).elapsed) :
    total group left = total group right :=
  Finset.sum_congr rfl same

variable [DecidableEq Phase] (clock : Nat → Nat) (measured : Phase → Bool)

/-- Whenever the marks are played, the phases take together no more time than goes by. -/
def InTime (group : Finset Phase) (marks : List (Mark Phase)) : Prop :=
  ∀ watches, total group (play clock measured marks watches) + clock watches.readings ≤
    total group watches + clock (play clock measured marks watches).readings

/-- Whenever the marks are played, the phases take together no more time than the one phase. -/
def Covers (phase : Phase) (group : Finset Phase) (marks : List (Mark Phase)) : Prop :=
  ∀ watches, total group (play clock measured marks watches) + (watches.states phase).elapsed ≤
    total group watches + ((play clock measured marks watches).states phase).elapsed

variable {clock : Nat → Nat} {measured : Phase → Bool} {group : Finset Phase} {phase : Phase}
  {inner left right : List (Mark Phase)}

theorem InTime.nil : InTime clock measured group [] := fun _ => Nat.le_refl _

theorem InTime.append (first : InTime clock measured group left)
    (second : InTime clock measured group right) :
    InTime clock measured group (left ++ right) := by
  intro watches
  have before := first watches
  have after := second (play clock measured left watches)
  rw [play_append]
  omega

theorem total_untouched (nested : Nested inner) (apart : ∀ phase ∈ group, Mark.start phase ∉ inner)
    (watches : Watches Phase) :
    total group (play clock measured inner watches) = total group watches :=
  total_congr fun phase member => by
    rw [play_untouched (apart phase member) (nested.stop_not_mem (apart phase member))]

theorem in_time_untouched (steady : Monotone clock) (nested : Nested inner)
    (apart : ∀ phase ∈ group, Mark.start phase ∉ inner) : InTime clock measured group inner := by
  intro watches
  rw [total_untouched nested apart]
  exact Nat.add_le_add_left (steady (play_readings inner watches)) _

/-- Entering a phase takes no time that is counted. -/
theorem enter_elapsed (watches : Watches Phase) (phase other : Phase) :
    ((mark clock measured watches (.start phase)).states other).elapsed =
      (watches.states other).elapsed := by
  rw [mark]
  split_ifs
  · rfl
  · by_cases same : other = phase
    · subst same
      simp [State.start]
    · simp [Function.update_of_ne same]

theorem enter_readings (watches : Watches Phase) (phase : Phase) :
    watches.readings ≤ (mark clock measured watches (.start phase)).readings := by
  rw [mark]
  split_ifs <;> simp

/-- What a measured phase adds to its own time. -/
theorem within_elapsed (inside : Nested inner) (apart : Mark.start phase ∉ inner)
    (taken : measured phase = true) (watches : Watches Phase) :
    ((play clock measured (within phase inner) watches).states phase).elapsed =
      (watches.states phase).elapsed +
        (clock (play clock measured inner (mark clock measured watches (.start phase))).readings -
          clock watches.readings) := by
  rw [(play_within inside apart watches taken).1]
  rfl

/-- A phase of the group without others of it inside. -/
theorem in_time_own (steady : Monotone clock) (inside : Nested inner)
    (apart : Mark.start phase ∉ inner) (alone : ∀ other ∈ group, Mark.start other ∉ inner) :
    InTime clock measured group (within phase inner) := by
  intro watches
  cases taken : measured phase with
  | false =>
      rw [play_within_unmeasured inner watches taken]
      exact in_time_untouched steady inside alone watches
  | true =>
      obtain ⟨-, others, readings⟩ :=
        @play_within Phase _ clock measured phase inner inside apart watches taken
      have elapsed := @within_elapsed Phase _ clock measured phase inner inside apart taken watches
      have same : ∀ other ∈ group, other ≠ phase →
          ((play clock measured (within phase inner) watches).states other).elapsed =
            (watches.states other).elapsed := by
        intro other member different
        rw [others other different, play_untouched (alone other member)
          (inside.stop_not_mem (alone other member)), enter_elapsed]
      have begun : clock watches.readings ≤
          clock (mark clock measured watches (.start phase)).readings :=
        steady (enter_readings watches phase)
      have spent : clock (mark clock measured watches (.start phase)).readings ≤
          clock (play clock measured inner (mark clock measured watches (.start phase))).readings :=
        steady (play_readings inner _)
      have ended := steady (Nat.le_add_right (play clock measured inner
        (mark clock measured watches (.start phase))).readings 1)
      rw [readings]
      by_cases member : phase ∈ group
      · rw [total, total, ← Finset.add_sum_erase group _ member,
          ← Finset.add_sum_erase group (fun phase => (watches.states phase).elapsed) member,
          elapsed, Finset.sum_congr rfl fun other kept =>
            same other (Finset.mem_of_mem_erase kept) (Finset.ne_of_mem_erase kept)]
        omega
      · rw [total_congr fun other kept => same other kept fun equal => member (equal ▸ kept)]
        omega

/-- What is in time inside of a phase took no more than that phase. -/
theorem covers_within (steady : Monotone clock) (inside : Nested inner)
    (apart : Mark.start phase ∉ inner) (foreign : phase ∉ group) (taken : measured phase = true)
    (inwards : InTime clock measured group inner) :
    Covers clock measured phase group (within phase inner) := by
  intro watches
  obtain ⟨-, others, -⟩ :=
    @play_within Phase _ clock measured phase inner inside apart watches taken
  have time := inwards (mark clock measured watches (.start phase))
  have begun : clock watches.readings ≤
      clock (mark clock measured watches (.start phase)).readings :=
    steady (enter_readings watches phase)
  have outside : ∀ other ∈ group, other ≠ phase := fun other member same =>
    foreign (same ▸ member)
  rw [total_congr fun other _ => enter_elapsed watches phase other] at time
  rw [within_elapsed inside apart taken, total_congr fun other member =>
    congrArg State.elapsed (others other (outside other member))]
  omega

theorem Covers.append (first : Covers clock measured phase group left)
    (second : Covers clock measured phase group right) :
    Covers clock measured phase group (left ++ right) := by
  intro watches
  have before := first watches
  have after := second (play clock measured left watches)
  rw [play_append]
  omega

theorem covers_untouched (nested : Nested inner) (own : Mark.start phase ∉ inner)
    (apart : ∀ phase ∈ group, Mark.start phase ∉ inner) :
    Covers clock measured phase group inner := by
  intro watches
  rw [total_untouched nested apart, play_untouched own (nested.stop_not_mem own)]

/-- A third phase around the marks does not matter. -/
theorem Covers.within_other {around : Phase} (inwards : Covers clock measured phase group inner)
    (inside : Nested inner) (apart : Mark.start around ∉ inner) (different : phase ≠ around)
    (foreign : around ∉ group) : Covers clock measured phase group (within around inner) := by
  intro watches
  cases taken : measured around with
  | false =>
      rw [play_within_unmeasured inner watches taken]
      exact inwards watches
  | true =>
      obtain ⟨-, others, -⟩ :=
        @play_within Phase _ clock measured around inner inside apart watches taken
      have covered := inwards (mark clock measured watches (.start around))
      have outside : ∀ other ∈ group, other ≠ around := fun other member same =>
        foreign (same ▸ member)
      rw [total_congr fun other _ => enter_elapsed watches around other, enter_elapsed] at covered
      rw [others phase different, total_congr fun other member =>
        congrArg State.elapsed (others other (outside other member))]
      exact covered

/-- Phases that are not measured take no time. -/
theorem total_unmeasured (unmeasured : ∀ phase ∈ group, measured phase = false)
    (marks : List (Mark Phase)) (watches : Watches Phase) :
    total group (play clock measured marks watches) = total group watches := by
  apply total_congr
  intro phase member
  induction marks generalizing watches with
  | nil => rfl
  | cons first marks ih =>
      refine (ih (mark clock measured watches first)).trans ?_
      cases first with
      | start other => exact enter_elapsed watches other phase
      | stop other =>
          rw [mark]
          split_ifs with skipped
          · rfl
          · have different : phase ≠ other := by
              rintro rfl
              exact skipped (by simp [unmeasured phase member])
            exact congrArg State.elapsed (Function.update_of_ne different _ _)

end Time

end Stopwatch
