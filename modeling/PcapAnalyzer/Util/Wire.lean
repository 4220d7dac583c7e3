import Mathlib.Data.List.Basic
import Mathlib.Data.Nat.Bitwise
import Mathlib.Tactic.IntervalCases
import Mathlib.Tactic.NormNum

/-!
# Bytes, machine words and parser results

The spans of the program are byte lists. A `memcpy` of a packed struct on the
little-endian host is a sequence of little-endian loads, and the network byte
order is restored field by field with `toHost16` and `toHost32`, exactly where
the source does it.
-/

namespace PcapAnalyzer

set_option autoImplicit false

/-- The return code of every parser; `none` is success. -/
inductive ParseError where
  | none
  | filtered
  | unexpectedEofF
  | unexpectedEof
  | unsupportedVersion
  | unsupportedLinktype
  | unsupportedNetworkType
  | unsupportedTransportType
  | malformedHeader
  | invalidFieldValue
  | checksumMismatch
  deriving DecidableEq, Repr

inductive Endian where
  | big
  | little
  deriving DecidableEq, Repr

/-- What a parser with in-out parameters `span` and `header` leaves behind.
On an error the header may be partly filled in, as in the source. -/
structure Parsed (Header : Type) where
  err : ParseError
  header : Header
  span : List UInt8

def bswap16 (x : UInt16) : UInt16 := (x >>> 8) ||| (x <<< 8)

def bswap32 (x : UInt32) : UInt32 :=
  ((x >>> 24) &&& (0x000000FF : UInt32)) ||| ((x >>> 8) &&& (0x0000FF00 : UInt32)) |||
    ((x <<< 8) &&& (0x00FF0000 : UInt32)) ||| ((x <<< 24) &&& (0xFF000000 : UInt32))

def toHost16 (v : UInt16) (endian : Endian) : UInt16 :=
  if endian = .big then bswap16 v else v

def toHost32 (v : UInt32) (endian : Endian) : UInt32 :=
  if endian = .big then bswap32 v else v

/-- `span[i]`. Every use sits behind a length check of the source. -/
def byteAt (span : List UInt8) (i : Nat) : UInt8 := span.getD i 0

/-- `memcpy` of `count` bytes starting at `span.data() + offset`. -/
def slice (span : List UInt8) (offset count : Nat) : List UInt8 :=
  (span.drop offset).take count

def load16 (span : List UInt8) (i : Nat) : UInt16 :=
  UInt16.ofNat ((byteAt span i).toNat + 256 * (byteAt span (i + 1)).toNat)

def load32 (span : List UInt8) (i : Nat) : UInt32 :=
  UInt32.ofNat ((byteAt span i).toNat + 256 * (byteAt span (i + 1)).toNat +
    65536 * (byteAt span (i + 2)).toNat + 16777216 * (byteAt span (i + 3)).toNat)

/-- A 16-bit value in network byte order, as it stands on the wire. -/
def wire16 (x : UInt16) : List UInt8 :=
  [UInt8.ofNat (x.toNat / 256), UInt8.ofNat x.toNat]

def wire32 (x : UInt32) : List UInt8 :=
  [UInt8.ofNat (x.toNat / 16777216), UInt8.ofNat (x.toNat / 65536),
    UInt8.ofNat (x.toNat / 256), UInt8.ofNat x.toNat]

/-- `reinterpret_cast` of a text literal: the codes of its characters. -/
def text (chars : List Char) : List UInt8 := chars.map fun c => UInt8.ofNat c.toNat

/-- A parse that went through had its first part go through. -/
theorem bind_ok {First Second : Type} {first : Except ParseError First}
    {second : First → Except ParseError Second} {result : Second}
    (bound : first >>= second = .ok result) :
    ∃ value, first = .ok value ∧ second value = .ok result := by
  cases first with
  | error err => cases bound
  | ok value => exact ⟨value, rfl, bound⟩

@[simp] theorem wire16_length (x : UInt16) : (wire16 x).length = 2 := rfl

@[simp] theorem wire32_length (x : UInt32) : (wire32 x).length = 4 := rfl

@[simp] theorem slice_length (span : List UInt8) (offset count : Nat) :
    (slice span offset count).length = min count (span.length - offset) := by
  simp [slice]

@[simp] theorem slice_zero (span : List UInt8) (offset : Nat) : slice span offset 0 = [] := by
  simp [slice]

theorem slice_succ (span : List UInt8) (offset count : Nat) (inside : offset < span.length) :
    slice span offset (count + 1) = byteAt span offset :: slice span (offset + 1) count := by
  rw [slice, List.drop_eq_getElem_cons inside, List.take_succ_cons, slice, byteAt,
    List.getD_eq_getElem _ _ inside]

theorem slice_append_left (left right : List UInt8) (count : Nat)
    (exact : left.length = count) : slice (left ++ right) 0 count = left := by
  simp [slice, ← exact]

theorem slice_append_right (left right : List UInt8) (offset count : Nat)
    (beyond : left.length ≤ offset) :
    slice (left ++ right) offset count = slice right (offset - left.length) count := by
  simp [slice, List.drop_append, List.drop_eq_nil_of_le beyond]

theorem byte_at_append_right (left right : List UInt8) (i : Nat) (beyond : left.length ≤ i) :
    byteAt (left ++ right) i = byteAt right (i - left.length) := by
  simp [byteAt, List.getD_eq_getElem?_getD, List.getElem?_append_right beyond]

theorem byte_at_append_left (left right : List UInt8) (i : Nat) (inside : i < left.length) :
    byteAt (left ++ right) i = byteAt left i := by
  simp [byteAt, List.getD_eq_getElem?_getD, List.getElem?_append_left inside]

/-- A word that lies in the left part. -/
theorem load32_append_left (left right : List UInt8) (i : Nat) (inside : i + 4 ≤ left.length) :
    load32 (left ++ right) i = load32 left i := by
  rw [load32, byte_at_append_left _ _ _ (by omega), byte_at_append_left _ _ _ (by omega),
    byte_at_append_left _ _ _ (by omega), byte_at_append_left _ _ _ (by omega), load32]

@[simp] theorem byte_at_cons_succ (byte : UInt8) (rest : List UInt8) (i : Nat) :
    byteAt (byte :: rest) (i + 1) = byteAt rest i := by
  simp [byteAt]

@[simp] theorem byte_at_cons_zero (byte : UInt8) (rest : List UInt8) :
    byteAt (byte :: rest) 0 = byte := by
  simp [byteAt]

/-- Two parts of a word that share no bit are joined by `|` as by `+`. -/
theorem or_of_disjoint (low high width : Nat) (small : low < 2 ^ width) :
    low ||| high * 2 ^ width = low + high * 2 ^ width := by
  rw [Nat.or_comm, ← Nat.shiftLeft_eq, ← Nat.shiftLeft_add_eq_or_of_lt small, Nat.add_comm]

/-- A mask that keeps the byte at bit `width` keeps its value in place. -/
theorem and_byte_mask (x width : Nat) :
    x &&& 255 * 2 ^ width = x / 2 ^ width % 256 * 2 ^ width := by
  apply Nat.eq_of_testBit_eq
  intro i
  have mask : (255 : Nat) = 2 ^ 8 - 1 := rfl
  have byte : (256 : Nat) = 2 ^ 8 := rfl
  rw [mask, byte, Nat.testBit_and, Nat.testBit_mul_two_pow, Nat.testBit_mul_two_pow,
    Nat.testBit_mod_two_pow, Nat.testBit_div_two_pow, Nat.testBit_two_pow_sub_one]
  by_cases above : width ≤ i
  · simp [above, Bool.and_comm]
  · simp [above]

theorem bswap16_to_nat (x : UInt16) :
    (bswap16 x).toNat = x.toNat / 256 + x.toNat % 256 * 256 := by
  have bound := x.toNat_lt
  have shift8 : UInt16.toNat 8 % 16 = 8 := rfl
  have joined := or_of_disjoint (x.toNat / 256) (x.toNat % 256) 8 (by omega)
  have shifted : x.toNat * 256 % 65536 = x.toNat % 256 * 256 := by omega
  simp only [bswap16, UInt16.toNat_or, UInt16.toNat_shiftRight, UInt16.toNat_shiftLeft,
    Nat.shiftRight_eq_div_pow, Nat.shiftLeft_eq, shift8]
  norm_num at joined ⊢
  rw [shifted, joined]

theorem bswap32_to_nat (x : UInt32) :
    (bswap32 x).toNat = x.toNat / 16777216 % 256 + x.toNat / 65536 % 256 * 256 +
      x.toNat / 256 % 256 * 65536 + x.toNat % 256 * 16777216 := by
  have bound := x.toNat_lt
  have first := and_byte_mask (x.toNat / 16777216) 0
  have second := and_byte_mask (x.toNat / 256) 8
  have third := and_byte_mask (x.toNat * 256 % 4294967296) 16
  have fourth := and_byte_mask (x.toNat * 16777216 % 4294967296) 24
  have masks : UInt32.toNat 255 = 255 ∧ UInt32.toNat 65280 = 65280 ∧
      UInt32.toNat 16711680 = 16711680 ∧ UInt32.toNat 4278190080 = 4278190080 :=
    ⟨rfl, rfl, rfl, rfl⟩
  have shift24 : UInt32.toNat 24 % 32 = 24 := rfl
  have shift8 : UInt32.toNat 8 % 32 = 8 := rfl
  simp only [bswap32, UInt32.toNat_or, UInt32.toNat_and, UInt32.toNat_shiftRight,
    UInt32.toNat_shiftLeft, Nat.shiftRight_eq_div_pow, Nat.shiftLeft_eq, shift24, shift8]
  norm_num [masks] at first second third fourth ⊢
  rw [first, second, third, fourth]
  have second_part : x.toNat / 256 / 256 % 256 = x.toNat / 65536 % 256 := by
    omega
  have third_part : x.toNat * 256 % 4294967296 / 65536 % 256 = x.toNat / 256 % 256 := by
    omega
  have fourth_part : x.toNat * 16777216 % 4294967296 / 16777216 % 256 = x.toNat % 256 := by
    have scaled := Nat.mul_mod_mul_right 16777216 x.toNat 256
    norm_num at scaled
    rw [scaled, Nat.mul_div_cancel _ (by decide), Nat.mod_mod]
  rw [second_part, third_part, fourth_part]
  have top : x.toNat / 16777216 % 256 < 256 := Nat.mod_lt _ (by decide)
  have high : x.toNat / 65536 % 256 < 256 := Nat.mod_lt _ (by decide)
  have low : x.toNat / 256 % 256 < 256 := Nat.mod_lt _ (by decide)
  generalize x.toNat / 16777216 % 256 = b0 at top ⊢
  generalize x.toNat / 65536 % 256 = b1 at high ⊢
  generalize x.toNat / 256 % 256 = b2 at low ⊢
  have joined1 := or_of_disjoint b0 b1 8 (by omega)
  have joined2 := or_of_disjoint (b0 + b1 * 256) b2 16 (by omega)
  have joined3 := or_of_disjoint (b0 + b1 * 256 + b2 * 65536) (x.toNat % 256) 24 (by omega)
  norm_num at joined1 joined2 joined3
  rw [joined1, joined2, joined3]

theorem load16_to_nat (span : List UInt8) (i : Nat) :
    (load16 span i).toNat = (byteAt span i).toNat + 256 * (byteAt span (i + 1)).toNat := by
  have low := (byteAt span i).toNat_lt
  have high := (byteAt span (i + 1)).toNat_lt
  rw [load16, UInt16.toNat_ofNat']
  omega

theorem load32_to_nat (span : List UInt8) (i : Nat) :
    (load32 span i).toNat = (byteAt span i).toNat + 256 * (byteAt span (i + 1)).toNat +
      65536 * (byteAt span (i + 2)).toNat + 16777216 * (byteAt span (i + 3)).toNat := by
  have b0 := (byteAt span i).toNat_lt
  have b1 := (byteAt span (i + 1)).toNat_lt
  have b2 := (byteAt span (i + 2)).toNat_lt
  have b3 := (byteAt span (i + 3)).toNat_lt
  rw [load32, UInt32.toNat_ofNat']
  omega

theorem to_host16_load (span : List UInt8) (i : Nat) :
    (toHost16 (load16 span i) .big).toNat =
      256 * (byteAt span i).toNat + (byteAt span (i + 1)).toNat := by
  have low := (byteAt span i).toNat_lt
  have high := (byteAt span (i + 1)).toNat_lt
  rw [toHost16, if_pos rfl, bswap16_to_nat, load16_to_nat]
  omega

theorem to_host32_load (span : List UInt8) (i : Nat) :
    (toHost32 (load32 span i) .big).toNat =
      16777216 * (byteAt span i).toNat + 65536 * (byteAt span (i + 1)).toNat +
        256 * (byteAt span (i + 2)).toNat + (byteAt span (i + 3)).toNat := by
  have b0 := (byteAt span i).toNat_lt
  have b1 := (byteAt span (i + 1)).toNat_lt
  have b2 := (byteAt span (i + 2)).toNat_lt
  have b3 := (byteAt span (i + 3)).toNat_lt
  rw [toHost32, if_pos rfl, bswap32_to_nat, load32_to_nat]
  omega

/-- A swapped field written back in network byte order is the bytes it was loaded from. -/
theorem wire16_to_host (span : List UInt8) (i : Nat) (inside : i + 2 ≤ span.length) :
    wire16 (toHost16 (load16 span i) .big) = slice span i 2 := by
  have b0 := (byteAt span i).toNat_lt
  have b1 := (byteAt span (i + 1)).toNat_lt
  rw [slice_succ span i 1 (by omega), slice_succ span (i + 1) 0 (by omega), slice_zero, wire16,
    to_host16_load]
  simp only [List.cons.injEq, ← UInt8.toNat_inj, UInt8.toNat_ofNat', and_true]
  omega

theorem wire32_to_host (span : List UInt8) (i : Nat) (inside : i + 4 ≤ span.length) :
    wire32 (toHost32 (load32 span i) .big) = slice span i 4 := by
  have b0 := (byteAt span i).toNat_lt
  have b1 := (byteAt span (i + 1)).toNat_lt
  have b2 := (byteAt span (i + 2)).toNat_lt
  have b3 := (byteAt span (i + 3)).toNat_lt
  rw [slice_succ span i 3 (by omega), slice_succ span (i + 1) 2 (by omega),
    slice_succ span (i + 1 + 1) 1 (by omega), slice_succ span (i + 1 + 1 + 1) 0 (by omega),
    slice_zero, wire32, to_host32_load]
  simp only [List.cons.injEq, ← UInt8.toNat_inj, UInt8.toNat_ofNat', and_true, Nat.add_assoc,
    Nat.reduceAdd]
  omega

theorem to_host16_wire (x : UInt16) (rest : List UInt8) :
    toHost16 (load16 (wire16 x ++ rest) 0) .big = x := by
  apply UInt16.toNat_inj.mp
  have bound := x.toNat_lt
  rw [to_host16_load]
  simp only [wire16, List.cons_append, byte_at_cons_zero, byte_at_cons_succ, UInt8.toNat_ofNat']
  omega

theorem to_host32_wire (x : UInt32) (rest : List UInt8) :
    toHost32 (load32 (wire32 x ++ rest) 0) .big = x := by
  apply UInt32.toNat_inj.mp
  have bound := x.toNat_lt
  rw [to_host32_load]
  simp only [wire32, List.cons_append, byte_at_cons_zero, byte_at_cons_succ, UInt8.toNat_ofNat']
  omega

end PcapAnalyzer
