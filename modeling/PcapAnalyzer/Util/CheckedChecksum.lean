import PcapAnalyzer.Library.CheckedMemory
import PcapAnalyzer.Util.Checksum

/-!
# The checksum with checked reads

`verifyChecksum` over a pointer and a length: every word and every octet its loops look at is
read through a window.
-/

namespace PcapAnalyzer.Checked

open CheckedMemory
open Window (Within)

set_option autoImplicit false

variable {frame : List UInt8}

/-- A four-byte `memcpy`. -/
def load32 (window : Window frame) (i : Nat) : Option UInt32 :=
  (window.copy i 4).map fun bytes => PcapAnalyzer.load32 bytes 0

/-- An eight-byte `memcpy`. -/
def load64 (window : Window frame) (i : Nat) : Option UInt64 :=
  (window.copy i 8).map fun bytes => PcapAnalyzer.load64 bytes 0

def addBlock (window : Window frame) (acc : Accumulators) (block : Nat) : Option Accumulators := do
  let w0 ← load64 window (32 * block)
  let w1 ← load64 window (32 * block + 8)
  let w2 ← load64 window (32 * block + 16)
  let w3 ← load64 window (32 * block + 24)
  some
    { a := acc.a + halves w0
      b := acc.b + halves w1
      c := acc.c + halves w2
      d := acc.d + halves w3 }

def sumBlocks (window : Window frame) (len : Nat) : Option Accumulators :=
  (List.range (len / 32)).foldlM (addBlock window) ⟨0, 0, 0, 0⟩

def sumWords (window : Window frame) (len : Nat) (swapped : UInt64) : Option UInt64 :=
  (List.range (len % 32 / 4)).foldlM
    (fun sum word => do
      let w ← load32 window (32 * (len / 32) + 4 * word)
      some (sum + w.toUInt64)) swapped

def sumPairs (window : Window frame) (len : Nat) (sum : UInt64) : Option UInt64 :=
  (List.range (len % 4 / 2)).foldlM
    (fun sum pair => do
      let i := 4 * (len / 4) + 2 * pair
      let high ← window.read i
      let low ← window.read (i + 1)
      some (sum + ((high.toUInt32 <<< 8) ||| low.toUInt32).toUInt64)) sum

def sumOdd (window : Window frame) (len : Nat) (sum : UInt64) : Option UInt64 :=
  let i := 2 * (len / 2)
  if i < len then do
    let last ← window.read i
    some (sum + (last.toUInt32 <<< 8).toUInt64)
  else some sum

/-- `verifyChecksum(data, len, pseudo_header_sum)`. -/
def verifyChecksum (window : Window frame) (len : Nat) (pseudoHeaderSum : UInt64) :
    Option Bool := do
  let acc ← sumBlocks window len
  let swapped ← sumWords window len (acc.a + acc.b + acc.c + acc.d)
  let sum := pseudoHeaderSum + (bswap16 (foldSum swapped).toUInt16).toUInt64
  let sum ← sumPairs window len sum
  let sum ← sumOdd window len sum
  some ((~~~ foldSum sum).toUInt16 = 0)

section Agreement

variable (window : Window frame) {len : Nat}

theorem byte_at_slice (span : List UInt8) {offset count i : Nat} (inside : i < count) :
    byteAt (slice span offset count) i = byteAt span (offset + i) := by
  simp only [byteAt, slice, List.getD_eq_getElem?_getD, List.getElem?_take_of_lt inside,
    List.getElem?_drop]

theorem load32_slice (span : List UInt8) {offset count i : Nat} (inside : i + 4 ≤ count) :
    PcapAnalyzer.load32 (slice span offset count) i = PcapAnalyzer.load32 span (offset + i) := by
  unfold PcapAnalyzer.load32
  rw [byte_at_slice span (by omega), byte_at_slice span (by omega), byte_at_slice span (by omega),
    byte_at_slice span (by omega)]
  rfl

theorem load64_slice (span : List UInt8) {offset count i : Nat} (inside : i + 8 ≤ count) :
    PcapAnalyzer.load64 (slice span offset count) i = PcapAnalyzer.load64 span (offset + i) := by
  unfold PcapAnalyzer.load64
  rw [load32_slice span (by omega), load32_slice span (by omega)]
  rfl

theorem copy_slice {offset count : Nat} (fits : offset + count ≤ window.size) :
    window.copy offset count = some (slice window.contents offset count) := window.copy_eq fits

theorem read_byte {i : Nat} (fits : i < window.size) :
    window.read i = some (byteAt window.contents i) := by
  have inside : i < window.contents.length := by rwa [window.contents_length]
  rw [window.read_eq, byteAt, List.getElem?_eq_getElem inside, List.getD_eq_getElem _ _ inside]

theorem load32_eq {i : Nat} (inside : i + 4 ≤ len) (fits : len ≤ window.size) :
    load32 window i = some (PcapAnalyzer.load32 (slice window.contents 0 len) i) := by
  rw [load32, copy_slice window (by omega), Option.map_some, load32_slice _ le_rfl,
    load32_slice _ inside, Nat.add_zero, Nat.zero_add]

theorem load64_eq {i : Nat} (inside : i + 8 ≤ len) (fits : len ≤ window.size) :
    load64 window i = some (PcapAnalyzer.load64 (slice window.contents 0 len) i) := by
  rw [load64, copy_slice window (by omega), Option.map_some, load64_slice _ le_rfl,
    load64_slice _ inside, Nat.add_zero, Nat.zero_add]

theorem read_eq {i : Nat} (inside : i < len) (fits : len ≤ window.size) :
    window.read i = some (byteAt (slice window.contents 0 len) i) := by
  rw [read_byte window (by omega), byte_at_slice _ inside, Nat.zero_add]

theorem summed_length (fits : len ≤ window.size) :
    (slice window.contents 0 len).length = len := by
  rw [slice_length, window.contents_length]
  omega

theorem sum_blocks_eq (fits : len ≤ window.size) :
    sumBlocks window len = some (PcapAnalyzer.sumBlocks (slice window.contents 0 len)) := by
  rw [sumBlocks, PcapAnalyzer.sumBlocks, summed_length window fits]
  apply fold_checked
  intro block member acc
  have before := List.mem_range.mp member
  rw [addBlock, load64_eq window (by omega) fits, load64_eq window (by omega) fits,
    load64_eq window (by omega) fits, load64_eq window (by omega) fits]
  rfl

theorem sum_words_eq (fits : len ≤ window.size) (swapped : UInt64) :
    sumWords window len swapped =
      some (PcapAnalyzer.sumWords (slice window.contents 0 len) swapped) := by
  rw [sumWords, PcapAnalyzer.sumWords, summed_length window fits]
  apply fold_checked
  intro word member sum
  have before := List.mem_range.mp member
  rw [load32_eq window (by omega) fits]
  rfl

theorem sum_pairs_eq (fits : len ≤ window.size) (start : UInt64) :
    sumPairs window len start =
      some (PcapAnalyzer.sumPairs (slice window.contents 0 len) start) := by
  rw [sumPairs, PcapAnalyzer.sumPairs, summed_length window fits]
  apply fold_checked
  intro pair member sum
  have before := List.mem_range.mp member
  have high := read_eq window (show 4 * (len / 4) + 2 * pair < len by omega) fits
  have low := read_eq window (show 4 * (len / 4) + 2 * pair + 1 < len by omega) fits
  simp only [high, low, Option.bind_eq_bind, Option.bind_some]

theorem sum_odd_eq (fits : len ≤ window.size) (sum : UInt64) :
    sumOdd window len sum = some (PcapAnalyzer.sumOdd (slice window.contents 0 len) sum) := by
  simp only [sumOdd, PcapAnalyzer.sumOdd, summed_length window fits]
  by_cases odd : 2 * (len / 2) < len
  · rw [if_pos odd, if_pos odd, read_eq window odd fits]
    rfl
  · rw [if_neg odd, if_neg odd]

/-- Inside the window the checksum is computed without a failing read. -/
theorem verify_checksum_eq (fits : len ≤ window.size) (pseudoHeaderSum : UInt64) :
    verifyChecksum window len pseudoHeaderSum =
      some (PcapAnalyzer.verifyChecksum (window.contents.take len) pseudoHeaderSum) := by
  have front : window.contents.take len = slice window.contents 0 len := by
    rw [slice, List.drop_zero]
  rw [front, verifyChecksum, sum_blocks_eq window fits, Option.bind_eq_bind, Option.bind_some,
    sum_words_eq window fits, Option.bind_eq_bind, Option.bind_some]
  simp only [sum_pairs_eq window fits, sum_odd_eq window fits, Option.bind_some,
    PcapAnalyzer.verifyChecksum]

end Agreement

end PcapAnalyzer.Checked
