import Mathlib.Data.List.Basic

/-!
# Memory with checked accesses

A window is a part of a memory, and carries the proof that it lies inside. Reading from it,
narrowing it and subtracting lengths can fail, and do so as soon as an index or a difference is
out of range. What a window shows is a list; every operation that stays in range is the one on
that list.
-/

namespace CheckedMemory

set_option autoImplicit false

variable {Cell : Type*}

structure Window (memory : List Cell) where
  start : Nat
  size : Nat
  inside : start + size ≤ memory.length

/-- The difference of two lengths, unless it goes below zero. -/
def difference (whole part : Nat) : Option Nat := if part ≤ whole then some (whole - part) else none

theorem difference_eq {whole part : Nat} (fits : part ≤ whole) :
    difference whole part = some (whole - part) := if_pos fits

/-- A loop none of whose turns fails. -/
theorem fold_checked {State Item : Type*} {checked : State → Item → Option State}
    {turn : State → Item → State} {items : List Item} (start : State)
    (passes : ∀ item ∈ items, ∀ state, checked state item = some (turn state item)) :
    items.foldlM checked start = some (items.foldl turn start) := by
  induction items generalizing start with
  | nil => rfl
  | cons item items ih =>
      rw [List.foldlM_cons, passes item List.mem_cons_self, Option.bind_eq_bind, Option.bind_some,
        List.foldl_cons]
      exact ih _ fun later member => passes later (List.mem_cons_of_mem item member)

/-- What is known of a computation that goes through. -/
def Leaves {Value : Type} (post : Value → Prop) (checked : Option Value) : Prop :=
  ∀ value, checked = some value → post value

namespace Leaves

variable {Value Other : Type} {post : Value → Prop}

theorem value {result : Value} (holds : post result) : Leaves post (some result) := by
  rintro other same
  cases same
  exact holds

theorem bind {first : Option Other} {next : Other → Option Value}
    (leaves : ∀ other, first = some other → Leaves post (next other)) :
    Leaves post (first >>= next) := by
  intro result bound
  rw [Option.bind_eq_bind, Option.bind_eq_some_iff] at bound
  obtain ⟨other, found, later⟩ := bound
  exact leaves other found result later

theorem branch {c : Prop} [Decidable c] {first second : Option Value}
    (left : c → Leaves post first) (right : ¬ c → Leaves post second) :
    Leaves post (if c then first else second) := by
  by_cases holds : c
  · rw [if_pos holds]
    exact left holds
  · rw [if_neg holds]
    exact right holds

end Leaves

namespace Window

variable {memory : List Cell}

def whole (memory : List Cell) : Window memory where
  start := 0
  size := memory.length
  inside := Nat.le_of_eq (Nat.zero_add _)

/-- What the window shows. -/
def contents (window : Window memory) : List Cell := (memory.drop window.start).take window.size

def read (window : Window memory) (i : Nat) : Option Cell :=
  if i < window.size then memory[window.start + i]? else none

def copy (window : Window memory) (offset : Nat) : Nat → Option (List Cell)
  | 0 => some []
  | count + 1 => do
      let first ← window.read offset
      let others ← window.copy (offset + 1) count
      some (first :: others)

def part (window : Window memory) (offset count : Nat) : Option (Window memory) :=
  if fits : offset + count ≤ window.size then
    some ⟨window.start + offset, count, by have := window.inside; omega⟩
  else none

def rest (window : Window memory) (offset : Nat) : Option (Window memory) := do
  let size ← difference window.size offset
  window.part offset size

def Within (inner outer : Window memory) : Prop :=
  outer.start ≤ inner.start ∧ inner.start + inner.size ≤ outer.start + outer.size

theorem Within.refl (window : Window memory) : window.Within window := ⟨Nat.le_refl _, Nat.le_refl _⟩

theorem Within.trans {inner middle outer : Window memory} (first : inner.Within middle)
    (second : middle.Within outer) : inner.Within outer :=
  ⟨Nat.le_trans second.1 first.1, Nat.le_trans first.2 second.2⟩

variable (window : Window memory)

@[simp] theorem whole_contents : (whole memory).contents = memory := by
  simp [contents, whole]

@[simp] theorem contents_length : window.contents.length = window.size := by
  have inside := window.inside
  rw [contents, List.length_take, List.length_drop]
  omega

theorem read_eq (i : Nat) : window.read i = window.contents[i]? := by
  by_cases fits : i < window.size
  · rw [read, if_pos fits, contents, List.getElem?_take_of_lt fits, List.getElem?_drop]
  · rw [read, if_neg fits, List.getElem?_eq_none]
    rw [contents_length]
    omega

theorem copy_eq {offset count : Nat} (fits : offset + count ≤ window.size) :
    window.copy offset count = some ((window.contents.drop offset).take count) := by
  induction count generalizing offset with
  | zero => rfl
  | succ count ih =>
      have inside : offset < window.contents.length := by
        rw [contents_length]
        omega
      rw [copy, read_eq, List.getElem?_eq_getElem inside, ih (by omega),
        List.drop_eq_getElem_cons inside, List.take_succ_cons]
      rfl

theorem part_eq {offset count : Nat} (fits : offset + count ≤ window.size) :
    ∃ narrowed, window.part offset count = some narrowed ∧
      narrowed.contents = (window.contents.drop offset).take count ∧
      narrowed.start = window.start + offset ∧ narrowed.size = count := by
  refine ⟨_, dif_pos fits, ?_, rfl, rfl⟩
  rw [contents, contents, List.drop_take, List.drop_drop, List.take_take]
  rw [Nat.min_eq_left (by omega)]

theorem rest_eq {offset : Nat} (fits : offset ≤ window.size) :
    ∃ narrowed, window.rest offset = some narrowed ∧
      narrowed.contents = window.contents.drop offset ∧
      narrowed.start = window.start + offset ∧ narrowed.size = window.size - offset := by
  obtain ⟨narrowed, found, contents, start, size⟩ :=
    window.part_eq (show offset + (window.size - offset) ≤ window.size by omega)
  refine ⟨narrowed, ?_, ?_, start, size⟩
  · rw [rest, difference_eq fits]
    exact found
  · have length : (window.contents.drop offset).length = window.size - offset := by
      rw [List.length_drop, contents_length]
    rw [contents, List.take_of_length_le (Nat.le_of_eq length)]

/-- Where a part lies. -/
theorem part_leaves (offset count : Nat) : Leaves
    (fun narrowed => narrowed.start = window.start + offset ∧ narrowed.size = count)
    (window.part offset count) := by
  unfold part
  by_cases fits : offset + count ≤ window.size
  · rw [dif_pos fits]
    exact .value ⟨rfl, rfl⟩
  · rw [dif_neg fits]
    rintro narrowed ⟨⟩

theorem rest_leaves (offset : Nat) : Leaves
    (fun narrowed => narrowed.start = window.start + offset) (window.rest offset) :=
  .bind fun size _ narrowed found => (window.part_leaves offset size narrowed found).1

end Window

end CheckedMemory
