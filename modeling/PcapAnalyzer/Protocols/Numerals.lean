import PcapAnalyzer.Protocols.HttpFraming

/-!
# Decimal numerals with a bound

The two readers of decimal numerals over 64-bit words. Each of them guards a turn of its loop
against exceeding the bound. The guard of `parseUint` subtracts the digit from the bound, which
wraps where the bound is smaller than the digit.
-/

namespace PcapAnalyzer.Numerals

open Http (decimalValue)

set_option autoImplicit false

/-- One turn of `parseDecimal` over `uint64_t`. -/
def decimalTurn (value : UInt64) (c : UInt8) : Except ParseError UInt64 :=
  if !isdigit c then .error .malformedHeader else
  let digit := (c - code '0').toUInt64
  if value > (UInt64.ofNat Http.uint64Max - digit) / 10 then .error .malformedHeader else
  .ok (value * 10 + digit)

/-- `parseDecimal` over `uint64_t`. -/
def parseDecimalWord (s : List UInt8) : Except ParseError UInt64 :=
  if s = [] then .error .malformedHeader else s.foldlM decimalTurn 0

/-- The subtraction, the product and the sum of a turn do not wrap. -/
structure ExactTurn (max value : UInt64) (c : UInt8) : Prop where
  subtracted : (max - (c - code '0').toUInt64).toNat + (c - code '0').toNat = max.toNat
  multiplied : (value * 10).toNat = value.toNat * 10
  added : (value * 10 + (c - code '0').toUInt64).toNat =
    value.toNat * 10 + (c - code '0').toNat

/-- Not empty, and of decimal digits only. -/
structure Numeral (text : List UInt8) : Prop where
  present : text ≠ []
  decimal : ∀ byte ∈ text, isdigit byte = true

/-- Exactly the numerals within the bound are accepted, each with its value, and none of the
turns that read them wraps. -/
structure ReadsNumerals (turn : UInt64 → UInt8 → Option UInt64) (parsed : Option UInt64)
    (text : List UInt8) (max : UInt64) : Prop where
  accepted : (∃ out, parsed = some out) ↔ Numeral text ∧ decimalValue text ≤ max.toNat
  value : ∀ out, parsed = some out → out.toNat = decimalValue text
  exact : (∃ out, parsed = some out) → ∀ before c after value, text = before ++ c :: after →
    before.foldlM turn 0 = some value → ExactTurn max value c

/-- The turns that go through are those to a digit within the bound. -/
def Guards (turn : UInt64 → UInt8 → Option UInt64) (bound : Nat) : Prop :=
  ∀ value c next, turn value c = some next ↔ isdigit c = true ∧
    next.toNat = value.toNat * 10 + (c - code '0').toNat ∧ next.toNat ≤ bound

section Turns

variable {turn : UInt64 → UInt8 → Option UInt64} {bound : Nat}

/-- The loop goes through exactly on digits that stay within the bound. -/
theorem fold_iff (guards : Guards turn bound) (digits : List UInt8) (value out : UInt64)
    (start : value.toNat ≤ bound) :
    digits.foldlM turn value = some out ↔ (∀ byte ∈ digits, isdigit byte = true) ∧
      out.toNat = digits.foldl (fun value c => value * 10 + (c - code '0').toNat) value.toNat ∧
      out.toNat ≤ bound := by
  induction digits generalizing value with
  | nil =>
      constructor
      · rintro ⟨⟩
        exact ⟨by simp, rfl, start⟩
      · rintro ⟨-, same, -⟩
        exact congrArg some (UInt64.toNat_inj.mp same).symm
  | cons digit digits ih =>
      rw [List.foldlM_cons, Option.bind_eq_bind, Option.bind_eq_some_iff, List.foldl_cons,
        List.forall_mem_cons]
      constructor
      · rintro ⟨next, first, later⟩
        obtain ⟨isDigit, sum, within⟩ := (guards _ _ _).mp first
        obtain ⟨decimal, total, small⟩ := (ih next within).mp later
        rw [sum] at total
        exact ⟨⟨isDigit, decimal⟩, total, small⟩
      · rintro ⟨⟨isDigit, decimal⟩, total, small⟩
        have reached := decimal_value_le digits (value.toNat * 10 + (digit - code '0').toNat)
        have fits := out.toNat_lt
        have next : (UInt64.ofNat (value.toNat * 10 + (digit - code '0').toNat)).toNat =
            value.toNat * 10 + (digit - code '0').toNat := by
          rw [UInt64.toNat_ofNat']
          omega
        refine ⟨_, (guards _ _ _).mpr ⟨isDigit, next, ?_⟩, (ih _ ?_).mpr ⟨decimal, ?_, small⟩⟩
        · omega
        · omega
        · rw [next]
          exact total

/-- From zero, the loop reads the numerals within the bound. -/
theorem fold_zero_iff (guards : Guards turn bound) {text : List UInt8} {out : UInt64}
    (present : text ≠ []) : text.foldlM turn 0 = some out ↔
      Numeral text ∧ decimalValue text ≤ bound ∧ out.toNat = decimalValue text := by
  rw [fold_iff guards text 0 out (Nat.zero_le _), UInt64.toNat_zero, ← decimalValue]
  constructor
  · rintro ⟨decimal, total, small⟩
    exact ⟨⟨present, decimal⟩, total ▸ small, total⟩
  · rintro ⟨numeral, small, total⟩
    exact ⟨numeral.decimal, total, total ▸ small⟩

/-- Where the result stays within the maximum, no turn on the way to it wraps. -/
theorem turns_exact (guards : Guards turn bound) {max : UInt64} {text before after : List UInt8}
    {c : UInt8} {value : UInt64} (cut : text = before ++ c :: after)
    (small : decimalValue text ≤ max.toNat) (reached : before.foldlM turn 0 = some value) :
    ExactTurn max value c := by
  obtain ⟨-, sum, -⟩ := (fold_iff guards before 0 value (Nat.zero_le _)).mp reached
  have later := decimal_value_le after (value.toNat * 10 + (c - code '0').toNat)
  rw [decimalValue, cut, List.foldl_append, List.foldl_cons] at small
  rw [sum, UInt64.toNat_zero] at later
  rw [UInt64.toNat_zero] at sum
  have reach : value.toNat * 10 + (c - code '0').toNat ≤ max.toNat := by
    rw [sum]
    exact later.trans small
  have below := max.toNat_lt
  have product : (value * 10).toNat = value.toNat * 10 := by
    rw [UInt64.toNat_mul, show (10 : UInt64).toNat = 10 from rfl]
    omega
  refine ⟨?_, product, ?_⟩
  · rw [UInt64.toNat_sub_of_le _ _
      (by rw [UInt64.le_iff_toNat_le, UInt8.toNat_toUInt64]; omega), UInt8.toNat_toUInt64]
    omega
  · rw [UInt64.toNat_add, product, UInt8.toNat_toUInt64]
    omega

end Turns

section Uint

theorem digit_codes {c : UInt8} :
    ¬ (c < code '0' ∨ c > code '9') ↔ isdigit c = true := by
  simp only [not_or, gt_iff_lt, UInt8.not_lt, isdigit, decide_eq_true_eq]

/-- A digit that exceeds the bound by itself is let through, the difference being large. -/
theorem uint_digit_guards (max : UInt64) : Guards (uintDigit max) (max.toNat ⊔ 9) := by
  intro value c next
  unfold uintDigit
  by_cases outside : c < code '0' ∨ c > code '9'
  · rw [if_pos outside]
    refine iff_of_false (Option.some_ne_none _).symm ?_
    rintro ⟨digit, -⟩
    exact digit_codes.mpr digit outside
  rw [if_neg outside]
  have isDigit := digit_codes.mp outside
  have digit := digit_value isDigit
  generalize c - code '0' = d at digit
  have ten : (10 : UInt64).toNat = 10 := rfl
  have below := max.toNat_lt
  have product (small : value.toNat ≤ max.toNat / 10) : (value * 10).toNat = value.toNat * 10 := by
    rw [UInt64.toNat_mul, ten]
    omega
  have room : (max - d.toUInt64).toNat = if d.toNat ≤ max.toNat then max.toNat - d.toNat
      else 2 ^ 64 + max.toNat - d.toNat := by
    rw [UInt64.toNat_sub, UInt8.toNat_toUInt64]
    split <;> omega
  have guard : ¬ (value > max / 10 ∨ value * 10 > max - d.toUInt64) ↔
      value.toNat * 10 + d.toNat ≤ max.toNat ⊔ 9 := by
    rw [not_or, gt_iff_lt, gt_iff_lt, UInt64.not_lt, UInt64.not_lt, UInt64.le_iff_toNat_le,
      UInt64.le_iff_toNat_le, UInt64.toNat_div, ten, le_sup_iff]
    by_cases small : value.toNat ≤ max.toNat / 10
    · rw [product small, room]
      split <;> omega
    · omega
  by_cases taken : value > max / 10 ∨ value * 10 > max - d.toUInt64
  · rw [if_pos taken]
    refine iff_of_false (Option.some_ne_none _).symm ?_
    rintro ⟨-, sum, within⟩
    exact guard.mpr (sum ▸ within) taken
  rw [if_neg taken, Option.some.injEq, and_iff_right isDigit]
  have within := guard.mp taken
  have sum : (value * 10 + d.toUInt64).toNat = value.toNat * 10 + d.toNat := by
    rw [le_sup_iff] at within
    rw [UInt64.toNat_add, UInt64.toNat_mul, UInt8.toNat_toUInt64, ten]
    omega
  constructor
  · rintro rfl
    exact ⟨sum, sum ▸ within⟩
  · rintro ⟨same, -⟩
    exact UInt64.toNat_inj.mp (sum.trans same.symm)

/-- A numeral is accepted where its value is within the bound or is a single digit's. -/
theorem parse_uint_iff {text : List UInt8} {max out : UInt64} : parseUint text max = some out ↔
    Numeral text ∧ decimalValue text ≤ max.toNat ⊔ 9 ∧ out.toNat = decimalValue text := by
  unfold parseUint
  by_cases empty : text = []
  · rw [if_pos empty]
    exact iff_of_false (Option.some_ne_none _).symm fun read => read.1.present empty
  rw [if_neg empty, fold_zero_iff (uint_digit_guards max) empty]

end Uint

section Decimal

/-- The words of a turn hold the numbers of `decimalDigit`. -/
theorem decimal_turn_nat (value : UInt64) (c : UInt8) :
    (decimalTurn value c).map UInt64.toNat = Http.decimalDigit value.toNat c := by
  unfold decimalTurn Http.decimalDigit
  cases isDigit : isdigit c with
  | false => rfl
  | true =>
      have digit := digit_value isDigit
      have limit : (UInt64.ofNat Http.uint64Max).toNat = Http.uint64Max := rfl
      have most : Http.uint64Max = 2 ^ 64 - 1 := rfl
      have ten : (10 : UInt64).toNat = 10 := rfl
      generalize c - code '0' = d at digit
      have guard : value > (UInt64.ofNat Http.uint64Max - d.toUInt64) / 10 ↔
          value.toNat > (Http.uint64Max - d.toNat) / 10 := by
        rw [gt_iff_lt, UInt64.lt_iff_toNat_lt, UInt64.toNat_div, ten, UInt64.toNat_sub_of_le,
          UInt8.toNat_toUInt64, limit]
        rw [UInt64.le_iff_toNat_le, limit, UInt8.toNat_toUInt64]
        omega
      rw [Bool.not_true, if_neg Bool.false_ne_true, if_neg Bool.false_ne_true]
      by_cases large : value.toNat > (Http.uint64Max - d.toNat) / 10
      · rw [if_pos (guard.mpr large), if_pos large]
        rfl
      · rw [if_neg (guard.not.mpr large), if_neg large]
        refine congrArg Except.ok ?_
        rw [UInt64.toNat_add, UInt64.toNat_mul, UInt8.toNat_toUInt64, ten]
        omega

theorem decimal_turns_nat (s : List UInt8) (value : UInt64) :
    (s.foldlM decimalTurn value).map UInt64.toNat = s.foldlM Http.decimalDigit value.toNat := by
  induction s generalizing value with
  | nil => rfl
  | cons c s ih =>
      rw [List.foldlM_cons, List.foldlM_cons, ← decimal_turn_nat]
      cases decimalTurn value c with
      | error => rfl
      | ok next => exact ih next

theorem parse_decimal_word (s : List UInt8) :
    (parseDecimalWord s).map UInt64.toNat = Http.parseDecimal s := by
  unfold parseDecimalWord Http.parseDecimal
  split
  · rfl
  · exact decimal_turns_nat s 0

theorem decimal_turn_guards :
    Guards (fun value c => (decimalTurn value c).toOption) Http.uint64Max := by
  intro value c next
  have words := decimal_turn_nat value c
  constructor
  · intro taken
    dsimp only at taken
    cases turned : decimalTurn value c with
    | error => rw [turned] at taken; cases taken
    | ok word =>
        rw [turned] at taken words
        obtain rfl : word = next := Option.some.inj taken
        exact Http.decimal_digit_ok words.symm
  · rintro ⟨isDigit, sum, within⟩
    have read : Http.decimalDigit value.toNat c = .ok next.toNat := by
      have small : value.toNat * 10 + (c - code '0').toNat ≤ Http.uint64Max := sum ▸ within
      have turned := Http.parse_decimal_digits [c] value.toNat
        (List.forall_mem_singleton.mpr isDigit) small
      rw [sum]
      simpa only [List.foldlM_cons, List.foldlM_nil, bind_pure, List.foldl_cons, List.foldl_nil]
        using turned
    dsimp only
    cases turned : decimalTurn value c with
    | error => rw [turned, read] at words; cases words
    | ok word =>
        rw [turned, read] at words
        exact congrArg some (UInt64.toNat_inj.mp (Except.ok.inj words))

theorem parse_decimal_word_iff {s : List UInt8} {out : UInt64} :
    (parseDecimalWord s).toOption = some out ↔
      Numeral s ∧ decimalValue s ≤ Http.uint64Max ∧ out.toNat = decimalValue s := by
  have words := parse_decimal_word s
  cases parsed : parseDecimalWord s with
  | error =>
      rw [parsed] at words
      refine iff_of_false (Option.some_ne_none _).symm ?_
      rintro ⟨numeral, small, -⟩
      rw [Http.parse_decimal_iff.mpr ⟨⟨numeral.present, numeral.decimal⟩,
        Nat.lt_succ_of_le small, rfl⟩] at words
      cases words
  | ok word =>
      rw [parsed] at words
      obtain ⟨⟨present, decimal⟩, small, value⟩ := Http.parse_decimal_iff.mp words.symm
      refine Option.some_inj.trans ⟨?_, ?_⟩
      · rintro rfl
        exact ⟨⟨present, decimal⟩, Nat.le_of_lt_succ small, value⟩
      · rintro ⟨-, -, same⟩
        exact UInt64.toNat_inj.mp (value.trans same.symm)

end Decimal

/-- What is read within a larger bound is right unless the two bounds tell some numeral apart. -/
theorem reads_numerals_iff {turn : UInt64 → UInt8 → Option UInt64} {parsed : Option UInt64}
    {text : List UInt8} {max : UInt64} {bound : Nat} (guards : Guards turn bound)
    (larger : max.toNat ≤ bound)
    (read : ∀ out, parsed = some out ↔
      Numeral text ∧ decimalValue text ≤ bound ∧ out.toNat = decimalValue text)
    (fits : bound < 2 ^ 64) :
    ReadsNumerals turn parsed text max ↔
      ¬ (Numeral text ∧ max.toNat < decimalValue text ∧ decimalValue text ≤ bound) := by
  have held (numeral : Numeral text) (small : decimalValue text ≤ bound) :
      parsed = some (UInt64.ofNat (decimalValue text)) := by
    refine (read _).mpr ⟨numeral, small, ?_⟩
    rw [UInt64.toNat_ofNat', Nat.mod_eq_of_lt (small.trans_lt fits)]
  constructor
  · rintro reads ⟨numeral, beyond, small⟩
    exact absurd (reads.accepted.mp ⟨_, held numeral small⟩).2 (Nat.not_le.mpr beyond)
  · intro apart
    have accepted : (∃ out, parsed = some out) ↔ Numeral text ∧ decimalValue text ≤ max.toNat := by
      constructor
      · rintro ⟨out, taken⟩
        obtain ⟨numeral, small, -⟩ := (read out).mp taken
        refine ⟨numeral, Nat.le_of_not_lt fun beyond => apart ⟨numeral, beyond, small⟩⟩
      · rintro ⟨numeral, small⟩
        exact ⟨_, held numeral (small.trans larger)⟩
    refine ⟨accepted, fun out taken => ((read out).mp taken).2.2, ?_⟩
    intro taken before c after value cut reached
    exact turns_exact guards cut (accepted.mp taken).2 reached

/-- `parseUint` reads exactly the numerals within its bound unless the text is one of a value
above the bound that a single digit writes; `parseDecimal` always does so within 64 bits. -/
theorem bounded_decimals (text : List UInt8) (max : UInt64) :
    (ReadsNumerals (uintDigit max) (parseUint text max) text max ↔
      ¬ (Numeral text ∧ max.toNat < decimalValue text ∧ decimalValue text ≤ 9)) ∧
    (parseDecimalWord text).map UInt64.toNat = Http.parseDecimal text ∧
    ReadsNumerals (fun value c => (decimalTurn value c).toOption)
      (parseDecimalWord text).toOption text (UInt64.ofNat Http.uint64Max) := by
  have limit : (UInt64.ofNat Http.uint64Max).toNat = Http.uint64Max := rfl
  refine ⟨?_, parse_decimal_word text, ?_⟩
  · have below := max.toNat_lt
    rw [reads_numerals_iff (uint_digit_guards max) le_sup_left (fun _ => parse_uint_iff)
      (sup_lt_iff.mpr ⟨below, by decide⟩)]
    refine not_congr (and_congr_right fun _ => and_congr_right fun beyond => ?_)
    rw [le_sup_iff]
    omega
  · rw [reads_numerals_iff decimal_turn_guards limit.le (fun _ => parse_decimal_word_iff)
      (by decide), limit]
    rintro ⟨-, beyond, small⟩
    exact absurd small (Nat.not_le.mpr beyond)

/-- A `7` is read where at most five is asked for. -/
theorem parse_uint_beyond_bound : parseUint [code '7'] 5 = some 7 ∧
    ¬ ReadsNumerals (uintDigit 5) (parseUint [code '7'] 5) [code '7'] 5 := by
  refine ⟨rfl, fun reads => ?_⟩
  exact absurd (reads.accepted.mp ⟨7, rfl⟩).2 (by decide)

end PcapAnalyzer.Numerals
