import Mathlib.Algebra.BigOperators.Group.List.Basic
import Mathlib.Algebra.Order.Ring.Nat
import Mathlib.Data.Nat.ModEq
import Mathlib.Tactic.Ring

/-!
# Ones' complement sums

Words from `0` to `top` are added with an end-around carry, which is addition modulo `top`
with two zeros: `0` is the sum of zeros only, any other multiple of `top` is `top`. A word
stands for a natural number if it is that reading of it, so that sums can be formed in the
natural numbers, in any order and any grouping, and read as a word at the end.
-/

namespace OnesComplement

set_option autoImplicit false

/-- The carry out of the word is added at its low end. -/
def add (top left right : Nat) : Nat :=
  if left + right ≤ top then left + right else left + right - top

def sum (top : Nat) (words : List Nat) : Nat := words.foldl (add top) 0

def complement (top word : Nat) : Nat := top - word

/-- Two numbers that are read as the same word. -/
structure Same (top left right : Nat) : Prop where
  residue : left ≡ right [MOD top]
  zero : left = 0 ↔ right = 0

/-- The word is the ones' complement reading of the number. -/
structure Stands (top number word : Nat) : Prop extends Same top word number where
  bounded : word ≤ top

section Same

variable {top first second third : Nat}

theorem Same.refl (number : Nat) : Same top number number := ⟨rfl, Iff.rfl⟩

theorem Same.symm (same : Same top first second) : Same top second first :=
  ⟨same.residue.symm, same.zero.symm⟩

theorem Same.trans (left : Same top first second) (right : Same top second third) :
    Same top first third :=
  ⟨left.residue.trans right.residue, left.zero.trans right.zero⟩

theorem Same.add {left right : Nat} (here : Same top first second) (there : Same top left right) :
    Same top (first + left) (second + right) := by
  refine ⟨here.residue.add there.residue, ?_⟩
  rw [Nat.add_eq_zero_iff, Nat.add_eq_zero_iff, here.zero, there.zero]

theorem Same.scale (same : Same top first second) (factor : Nat) :
    Same top (factor * first) (factor * second) := by
  refine ⟨same.residue.mul_left factor, ?_⟩
  rw [Nat.mul_eq_zero, Nat.mul_eq_zero, same.zero]

end Same

section Stands

variable {top number other word : Nat}

theorem stands_self (bounded : word ≤ top) : Stands top word word :=
  ⟨.refl word, bounded⟩

theorem Stands.add {left right : Nat} (first : Stands top number left)
    (second : Stands top other right) : Stands top (number + other) (add top left right) := by
  obtain ⟨residue, zero⟩ := first.toSame.add second.toSame
  have firstBound := first.bounded
  have secondBound := second.bounded
  unfold OnesComplement.add
  split_ifs with fits
  · exact ⟨⟨residue, zero⟩, fits⟩
  · have wrapped : left + right - top ≡ left + right [MOD top] := by
      have restored : left + right - top + top = left + right := by omega
      calc left + right - top ≡ left + right - top + top [MOD top] := by simp [Nat.ModEq]
        _ = left + right := restored
    exact ⟨⟨wrapped.trans residue, by rw [← zero]; omega⟩, by omega⟩

theorem sum_stands_from (words : List Nat) (bounded : ∀ word ∈ words, word ≤ top)
    {start : Nat} (started : Stands top number start) :
    Stands top (number + words.sum) (words.foldl (OnesComplement.add top) start) := by
  induction words generalizing number start with
  | nil => simpa using started
  | cons first rest ih =>
      rw [List.foldl_cons, List.sum_cons, ← Nat.add_assoc]
      exact ih (fun word member => bounded word (by simp [member]))
        (started.add (stands_self (bounded first (by simp))))

/-- The ones' complement sum stands for the sum. -/
theorem sum_stands (words : List Nat) (bounded : ∀ word ∈ words, word ≤ top) :
    Stands top words.sum (sum top words) := by
  have started : Stands top 0 0 := stands_self (Nat.zero_le top)
  have summed := sum_stands_from words bounded started
  rw [Nat.zero_add] at summed
  exact summed

/-- The all-ones word stands for the multiples of `top` but zero. -/
theorem Stands.all_ones (stands : Stands top number word) (positive : 0 < top) :
    word = top ↔ number ≡ 0 [MOD top] ∧ number ≠ 0 := by
  have nonzero := stands.zero
  constructor
  · intro full
    refine ⟨stands.residue.symm.trans ?_, by omega⟩
    simp [full, Nat.ModEq]
  · rintro ⟨multiple, notZero⟩
    have divides : top ∣ word := (Nat.modEq_zero_iff_dvd).mp (stands.residue.trans multiple)
    exact Nat.le_antisymm stands.bounded (Nat.le_of_dvd (by omega) divides)

/-- Adding the complement of the sum gives the all-ones word. -/
theorem Stands.add_complement (stands : Stands top number word) (positive : 0 < top) :
    number + complement top word ≡ 0 [MOD top] ∧ number + complement top word ≠ 0 := by
  have bounded := stands.bounded
  have zero := stands.zero
  unfold complement
  constructor
  · calc number + (top - word) ≡ word + (top - word) [MOD top] :=
          stands.residue.symm.add_right _
      _ = top := by omega
      _ ≡ 0 [MOD top] := by simp [Nat.ModEq]
  · omega

end Stands

/-- Adding the high part of a number to its low part keeps what it is read as. -/
theorem fold_once (top number : Nat) :
    Same top (number % (top + 1) + number / (top + 1)) number := by
  have parts := Nat.mod_add_div number (top + 1)
  constructor
  · have spread : number = number % (top + 1) + number / (top + 1) +
        top * (number / (top + 1)) := by
      rw [Nat.add_mul, Nat.one_mul] at parts
      omega
    calc number % (top + 1) + number / (top + 1)
        ≡ number % (top + 1) + number / (top + 1) + top * (number / (top + 1)) [MOD top] := by
          simp [Nat.ModEq]
      _ = number := spread.symm
  · constructor
    · intro none
      obtain ⟨low, high⟩ := Nat.add_eq_zero_iff.mp none
      rw [low, high] at parts
      exact parts.symm
    · rintro rfl
      simp

/-- Exchanging the two digits of a word multiplies it by the base. -/
theorem swap_digits (base low high : Nat) (positive : 0 < base) :
    Same (base * base - 1) (low * base + high) (base * (low + high * base)) := by
  have square : base * base - 1 + 1 = base * base :=
    Nat.sub_add_cancel (Nat.mul_pos positive positive)
  have spread : base * (low + high * base) = low * base + high + high * (base * base - 1) := by
    calc base * (low + high * base) = low * base + high * (base * base) := by ring
      _ = low * base + high * (base * base - 1 + 1) := by rw [square]
      _ = low * base + high + high * (base * base - 1) := by ring
  constructor
  · rw [spread]
    simp [Nat.ModEq]
  · simp [positive.ne']

end OnesComplement
