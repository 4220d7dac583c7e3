import Mathlib.Tactic.NormNum

/-!
# Serial numbers

Positions of a stream are numbered by 32-bit words that wrap around, starting
anywhere, and are compared by the sign of their difference. On positions less
than half the number space apart this comparison is the one of the positions.
-/

namespace SerialNumber

set_option autoImplicit false

/-- A word read as a two's complement number. -/
def int32 (x : UInt32) : Int := x.toInt32.toInt

/-- The number of a position, counted from `base`. -/
def number (base : UInt32) (position : Nat) : UInt32 := base + UInt32.ofNat position

theorem int32_pos (x : UInt32) : 0 < int32 x ↔ 0 < x.toNat ∧ x.toNat < 2 ^ 31 := by
  have bound := x.toNat_lt
  rw [int32, ← Int32.toInt_toBitVec, UInt32.toBitVec_toInt32, BitVec.toInt_eq_toNat_cond,
    UInt32.toNat_toBitVec]
  split <;> omega

theorem int32_neg (x : UInt32) : int32 x < 0 ↔ 2 ^ 31 ≤ x.toNat := by
  have bound := x.toNat_lt
  rw [int32, ← Int32.toInt_toBitVec, UInt32.toBitVec_toInt32, BitVec.toInt_eq_toNat_cond,
    UInt32.toNat_toBitVec]
  split <;> omega

@[simp] theorem number_zero (base : UInt32) : number base 0 = base := by
  simp [number]

theorem number_add (base : UInt32) (position count : Nat) :
    number base position + UInt32.ofNat count = number base (position + count) := by
  apply UInt32.toNat_inj.mp
  have bound := base.toNat_lt
  simp only [number, UInt32.toNat_add, UInt32.toNat_ofNat']
  omega

variable (base : UInt32) {left right : Nat}

theorem number_sub_of_le (ordered : right ≤ left) (near : left < 2 ^ 31) :
    (number base left - number base right).toNat = left - right := by
  have bound := base.toNat_lt
  simp only [number, UInt32.toNat_sub, UInt32.toNat_add, UInt32.toNat_ofNat']
  omega

theorem number_sub_of_lt (ordered : left < right) (near : right < 2 ^ 31) :
    (number base left - number base right).toNat = 2 ^ 32 - (right - left) := by
  have bound := base.toNat_lt
  simp only [number, UInt32.toNat_sub, UInt32.toNat_add, UInt32.toNat_ofNat']
  omega

theorem number_inj (leftNear : left < 2 ^ 31) (rightNear : right < 2 ^ 31) :
    number base left = number base right ↔ left = right := by
  constructor
  · intro same
    rcases Nat.lt_or_ge left right with below | above
    · have apart := number_sub_of_lt base below rightNear
      rw [same, UInt32.sub_self] at apart
      have zero : UInt32.toNat 0 = 0 := rfl
      omega
    · have apart := number_sub_of_le base above leftNear
      rw [same, UInt32.sub_self] at apart
      have zero : UInt32.toNat 0 = 0 := rfl
      omega
  · intro same
    rw [same]

theorem number_after (leftNear : left < 2 ^ 31) (rightNear : right < 2 ^ 31) :
    0 < int32 (number base left - number base right) ↔ right < left := by
  rw [int32_pos]
  rcases Nat.lt_or_ge left right with below | above
  · rw [number_sub_of_lt base below rightNear]
    omega
  · rw [number_sub_of_le base above leftNear]
    omega

theorem number_not_before (leftNear : left < 2 ^ 31) (rightNear : right < 2 ^ 31) :
    0 ≤ int32 (number base left - number base right) ↔ right ≤ left := by
  rw [← not_lt, int32_neg]
  rcases Nat.lt_or_ge left right with below | above
  · rw [number_sub_of_lt base below rightNear]
    omega
  · rw [number_sub_of_le base above leftNear]
    omega

end SerialNumber
