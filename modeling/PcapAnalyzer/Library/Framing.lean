import Mathlib.Data.List.Basic

/-!
# Frames on a stream

A front takes one frame off the front of a stream as soon as it is complete. If what
follows a complete frame does not matter, then a stream has one division into frames and
an incomplete rest, and dividing what has arrived so far, then the rest with what arrives
later, is dividing the whole.
-/

namespace Framing

set_option autoImplicit false

variable {Symbol Frame : Type*}

/-- The complete frame at the front, if there is one, and what follows it. -/
abbrev Front (Symbol Frame : Type*) : Type _ := List Symbol → Option (Frame × List Symbol)

structure Stable (front : Front Symbol Frame) : Prop where
  more : ∀ {input frame rest}, front input = some (frame, rest) →
    ∀ more, front (input ++ more) = some (frame, rest ++ more)
  shorter : ∀ {input frame rest}, front input = some (frame, rest) → rest.length < input.length

/-- The division of a stream into its frames and the incomplete rest. -/
inductive Divides (front : Front Symbol Frame) :
    List Symbol → List Frame → List Symbol → Prop where
  | stop {rest : List Symbol} (incomplete : front rest = none) : Divides front rest [] rest
  | next {input after rest : List Symbol} {frame : Frame} {frames : List Frame}
      (complete : front input = some (frame, after)) (others : Divides front after frames rest) :
      Divides front input (frame :: frames) rest

variable {front : Front Symbol Frame} {input rest : List Symbol} {frames : List Frame}

theorem Divides.incomplete (divides : Divides front input frames rest) : front rest = none := by
  induction divides with
  | stop incomplete => exact incomplete
  | next _ _ ih => exact ih

theorem Divides.unique (left : Divides front input frames rest) {otherFrames : List Frame}
    {otherRest : List Symbol} (right : Divides front input otherFrames otherRest) :
    frames = otherFrames ∧ rest = otherRest := by
  induction left generalizing otherFrames with
  | stop incomplete =>
      cases right with
      | stop _ => exact ⟨rfl, rfl⟩
      | next complete _ => simp [incomplete] at complete
  | next complete _ ih =>
      cases right with
      | stop incomplete => simp [incomplete] at complete
      | next completeToo others =>
          rw [complete, Option.some.injEq, Prod.mk.injEq] at completeToo
          obtain ⟨rfl, rfl⟩ := completeToo
          have same := ih others
          exact ⟨by rw [same.1], same.2⟩

theorem divides_exists (stable : Stable front) (input : List Symbol) :
    ∃ frames rest, Divides front input frames rest := by
  generalize bound : input.length = size
  induction size using Nat.strongRecOn generalizing input with
  | ind size ih =>
      cases complete : front input with
      | none => exact ⟨[], input, .stop complete⟩
      | some found =>
          rcases found with ⟨frame, after⟩
          have shorter := stable.shorter complete
          obtain ⟨frames, rest, others⟩ := ih after.length (by omega) after rfl
          exact ⟨frame :: frames, rest, .next complete others⟩

/-- What arrives later continues the division. -/
theorem Divides.append (stable : Stable front) (divides : Divides front input frames rest)
    {more last : List Symbol} {others : List Frame}
    (later : Divides front (rest ++ more) others last) :
    Divides front (input ++ more) (frames ++ others) last := by
  induction divides with
  | stop _ => exact later
  | next complete _ ih => exact .next (stable.more complete more) (ih later)

end Framing
