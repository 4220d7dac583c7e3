import PcapAnalyzer.Util.Wire

/-!
# Text over bytes

A `std::string_view` is a byte list. Searching for a character and cutting the view
around it is one operation, `cutAt`.
-/

namespace PcapAnalyzer

set_option autoImplicit false

/-- The code of a character. -/
def code (c : Char) : UInt8 := UInt8.ofNat c.toNat

def tolower (byte : UInt8) : UInt8 :=
  if code 'A' ≤ byte ∧ byte ≤ code 'Z' then byte + 32 else byte

def isdigit (byte : UInt8) : Bool := code '0' ≤ byte ∧ byte ≤ code '9'

/-- Equality up to case. -/
def isEquals (a b : List UInt8) : Bool := a.map tolower = b.map tolower

/-- One turn of `parseUint`. The operations wrap as those of `uint64_t` do. -/
def uintDigit (max value : UInt64) (c : UInt8) : Option UInt64 :=
  if c < code '0' ∨ c > code '9' then none else
  let digit := (c - code '0').toUInt64
  if value > max / 10 ∨ value * 10 > max - digit then none else
  some (value * 10 + digit)

def parseUint (text : List UInt8) (max : UInt64) : Option UInt64 :=
  if text = [] then none else text.foldlM (uintDigit max) 0

/-- With a bound that no digit exceeds, a turn stays within it and does not wrap. -/
theorem uint_digit_le {max value next : UInt64} {c : UInt8} (large : 9 ≤ max)
    (taken : uintDigit max value c = some next) :
    next.toNat = value.toNat * 10 + (c - code '0').toNat ∧ next ≤ max := by
  have codes : (code '0').toNat = 48 ∧ (code '9').toNat = 57 := ⟨rfl, rfl⟩
  simp only [uintDigit] at taken
  split_ifs at taken with outside beyond
  simp only [not_or, gt_iff_lt, UInt8.lt_iff_toNat_lt, codes, Nat.not_lt] at outside
  have digit : (c - code '0').toNat ≤ 9 := by
    rw [UInt8.toNat_sub_of_le _ _ (UInt8.le_iff_toNat_le.mpr (by rw [codes.1]; exact outside.1)),
      codes.1]
    omega
  have below := max.toNat_lt
  simp only [UInt64.le_iff_toNat_le, UInt64.reduceToNat] at large
  have room : (max - (c - code '0').toUInt64).toNat = max.toNat - (c - code '0').toNat := by
    rw [UInt64.toNat_sub_of_le _ _ (by rw [UInt64.le_iff_toNat_le, UInt8.toNat_toUInt64]; omega),
      UInt8.toNat_toUInt64]
  simp only [not_or, gt_iff_lt, UInt64.lt_iff_toNat_lt, Nat.not_lt, UInt64.toNat_div, room,
    UInt64.toNat_mul, UInt64.reduceToNat] at beyond
  have product : value.toNat * 10 % 2 ^ 64 = value.toNat * 10 := Nat.mod_eq_of_lt (by omega)
  rw [product] at beyond
  have sum : next.toNat = value.toNat * 10 + (c - code '0').toNat := by
    rw [← Option.some.inj taken, UInt64.toNat_add, UInt64.toNat_mul, UInt8.toNat_toUInt64,
      show (10 : UInt64).toNat = 10 from rfl, product]
    omega
  refine ⟨sum, ?_⟩
  rw [UInt64.le_iff_toNat_le, sum]
  omega

theorem uint_digits_le {digits : List UInt8} {max value number : UInt64} (large : 9 ≤ max)
    (start : value ≤ max) (parsed : digits.foldlM (uintDigit max) value = some number) :
    number ≤ max := by
  induction digits generalizing value with
  | nil =>
      cases parsed
      exact start
  | cons c digits ih =>
      rw [List.foldlM_cons, Option.bind_eq_bind, Option.bind_eq_some_iff] at parsed
      obtain ⟨next, taken, parsed⟩ := parsed
      exact ih (uint_digit_le large taken).2 parsed

theorem parse_uint_le {digits : List UInt8} {max number : UInt64} (large : 9 ≤ max)
    (parsed : parseUint digits max = some number) : number ≤ max := by
  unfold parseUint at parsed
  split_ifs at parsed
  exact uint_digits_le large UInt64.zero_le parsed

theorem decimal_value_le (digits : List UInt8) (value : Nat) :
    value ≤ digits.foldl (fun value c => value * 10 + (c - code '0').toNat) value := by
  induction digits generalizing value with
  | nil => exact le_rfl
  | cons digit digits ih =>
      have later := ih (value * 10 + (digit - code '0').toNat)
      simp only [List.foldl_cons]
      omega

theorem digit_value {byte : UInt8} (digit : isdigit byte = true) :
    (byte - code '0').toNat ≤ 9 := by
  simp only [isdigit, decide_eq_true_eq, UInt8.le_iff_toNat_le] at digit
  have zero : (code '0').toNat = 48 := rfl
  have nine : (code '9').toNat = 57 := rfl
  rw [UInt8.toNat_sub_of_le _ _ (UInt8.le_iff_toNat_le.mpr digit.1)]
  omega

/-- `find` of one character: what stands before it and what stands after it. -/
def cutAt (c : UInt8) (view : List UInt8) : Option (List UInt8 × List UInt8) :=
  match view.dropWhile (· ≠ c) with
  | [] => none
  | _ :: after => some (view.takeWhile (· ≠ c), after)

end PcapAnalyzer
