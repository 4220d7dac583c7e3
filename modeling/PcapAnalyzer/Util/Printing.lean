import PcapAnalyzer.Util.Text

/-!
# Numbers in text

What a stream writes for a number: decimal digits without leading zeros, or with `std::hex`,
`std::setfill('0')` and `std::setw(2)` two lower-case digits for an octet.
-/

namespace PcapAnalyzer

set_option autoImplicit false

/-- `os << n` for an unsigned number. -/
def decimal (n : Nat) : List UInt8 := (Nat.toDigits 10 n).map code

/-- `os << std::hex << std::setfill('0') << std::setw(2) << byte`. -/
def hexByte (byte : UInt8) : List UInt8 :=
  [code (Nat.digitChar (byte.toNat / 16)), code (Nat.digitChar (byte.toNat % 16))]

/-- `os << std::hex << n`. -/
def hexadecimal (n : Nat) : List UInt8 := (Nat.toDigits 16 n).map code

/-- `os << std::hex << std::setfill('0') << std::setw(width) << n`. -/
def hexPadded (width n : Nat) : List UInt8 :=
  List.replicate (width - (hexadecimal n).length) (code '0') ++ hexadecimal n

section Decimal

theorem code_digit {d : Nat} (small : d < 10) :
    isdigit (code (Nat.digitChar d)) = true ∧ (code (Nat.digitChar d) - code '0').toNat = d := by
  have all : ∀ d : Fin 10, isdigit (code (Nat.digitChar d)) = true ∧
      (code (Nat.digitChar d) - code '0').toNat = d := by decide
  exact all ⟨d, small⟩

theorem decimal_eq (n : Nat) : decimal n =
    (if n < 10 then [] else decimal (n / 10)) ++ [code (Nat.digitChar (n % 10))] := by
  unfold decimal
  rw [Nat.toDigits_eq_if (by decide)]
  by_cases small : n < 10
  · rw [if_pos small, if_pos small, Nat.mod_eq_of_lt small]
    rfl
  · rw [if_neg small, if_neg small, List.map_append, List.map_singleton]

theorem decimal_ne_nil (n : Nat) : decimal n ≠ [] := by
  rw [decimal_eq]
  exact List.append_ne_nil_of_right_ne_nil _ (List.cons_ne_nil _ _)

theorem decimal_digits (n : Nat) : ∀ byte ∈ decimal n, isdigit byte = true := by
  induction n using Nat.strongRecOn with
  | ind n ih =>
      have last := (code_digit (Nat.mod_lt n (show 10 > 0 by decide))).1
      rw [decimal_eq, List.forall_mem_append]
      refine ⟨?_, List.forall_mem_singleton.mpr last⟩
      by_cases small : n < 10
      · rw [if_pos small]
        exact fun _ member => absurd member List.not_mem_nil
      · rw [if_neg small]
        exact ih (n / 10) (by omega)

theorem decimal_value (n : Nat) :
    (decimal n).foldl (fun value c => value * 10 + (c - code '0').toNat) 0 = n := by
  induction n using Nat.strongRecOn with
  | ind n ih =>
      have last := (code_digit (Nat.mod_lt n (show 10 > 0 by decide))).2
      rw [decimal_eq, List.foldl_append, List.foldl_cons, List.foldl_nil, last]
      by_cases small : n < 10
      · rw [if_pos small, List.foldl_nil]
        omega
      · rw [if_neg small, ih (n / 10) (by omega)]
        omega

theorem decimal_length_le {n k : Nat} (positive : 0 < k) (small : n < 10 ^ k) :
    (decimal n).length ≤ k := by
  rw [decimal, List.length_map, Nat.length_toDigits_le_iff (by decide) positive]
  exact small

end Decimal

theorem hexadecimal_digits (n : Nat) :
    ∀ byte ∈ hexadecimal n, ∃ d < 16, byte = code (Nat.digitChar d) := by
  induction n using Nat.strongRecOn with
  | ind n ih =>
      unfold hexadecimal
      rw [Nat.toDigits_eq_if (by decide)]
      split_ifs with small
      · exact List.forall_mem_singleton.mpr ⟨n, small, rfl⟩
      · rw [List.map_append, List.forall_mem_append]
        exact ⟨ih (n / 16) (by omega),
          List.forall_mem_singleton.mpr ⟨n % 16, Nat.mod_lt n (by decide), rfl⟩⟩

end PcapAnalyzer
