import PcapAnalyzer.Util.Wire
import PcapAnalyzer.Library.MeasuredLoop

/-!
# The fast internet checksum

`verifyChecksum` adds the data in little-endian words over four 64-bit
accumulators, folds, swaps once and mixes in the big-endian tail. The
accumulators are 64-bit words here as well, so that nothing is assumed about
their size.
-/

namespace PcapAnalyzer

open MeasuredLoop

set_option autoImplicit false

/-- An eight-byte `memcpy` into a `uint64_t`. -/
def load64 (data : List UInt8) (i : Nat) : UInt64 :=
  UInt64.ofNat ((load32 data i).toNat + 4294967296 * (load32 data (i + 4)).toNat)

/-- `(w & 0xFFFFFFFF) + (w >> 32)`. -/
def halves (w : UInt64) : UInt64 := (w &&& (0xFFFFFFFF : UInt64)) + (w >>> 32)

structure Accumulators where
  a : UInt64
  b : UInt64
  c : UInt64
  d : UInt64

def addBlock (data : List UInt8) (acc : Accumulators) (block : Nat) : Accumulators :=
  { a := acc.a + halves (load64 data (32 * block))
    b := acc.b + halves (load64 data (32 * block + 8))
    c := acc.c + halves (load64 data (32 * block + 16))
    d := acc.d + halves (load64 data (32 * block + 24)) }

/-- `for (; i + 32 <= len; i += 32)`. -/
def sumBlocks (data : List UInt8) : Accumulators :=
  (List.range (data.length / 32)).foldl (addBlock data) ⟨0, 0, 0, 0⟩

/-- `for (; i + 4 <= len; i += 4)`, entered with `i = 32 * (len / 32)`. -/
def sumWords (data : List UInt8) (swapped : UInt64) : UInt64 :=
  (List.range (data.length % 32 / 4)).foldl
    (fun sum word =>
      sum + (load32 data (32 * (data.length / 32) + 4 * word)).toUInt64) swapped

/-- `while (sum >> 16) sum = (sum & 0xFFFF) + (sum >> 16)`. -/
def foldTurn (sum : UInt64) : Turn UInt64 UInt64 :=
  if sum >>> 16 ≠ 0 then .again ((sum &&& (0xFFFF : UInt64)) + (sum >>> 16)) else .leave sum

def foldSum (sum : UInt64) : UInt64 := run foldTurn id (sum.toNat + 1) sum

/-- `for (; i + 2 <= len; i += 2)`, entered with `i = 4 * (len / 4)`; the pair is
read in network order. -/
def sumPairs (data : List UInt8) (sum : UInt64) : UInt64 :=
  (List.range (data.length % 4 / 2)).foldl
    (fun sum pair =>
      let i := 4 * (data.length / 4) + 2 * pair
      sum + (((byteAt data i).toUInt32 <<< 8) ||| (byteAt data (i + 1)).toUInt32).toUInt64) sum

/-- `if (i < len)`, with `i = 2 * (len / 2)`: an odd byte is padded on the right. -/
def sumOdd (data : List UInt8) (sum : UInt64) : UInt64 :=
  let i := 2 * (data.length / 2)
  if i < data.length then sum + ((byteAt data i).toUInt32 <<< 8).toUInt64 else sum

def verifyChecksum (data : List UInt8) (pseudoHeaderSum : UInt64) : Bool :=
  let acc := sumBlocks data
  let swapped := foldSum (sumWords data (acc.a + acc.b + acc.c + acc.d))
  let sum := pseudoHeaderSum + (bswap16 swapped.toUInt16).toUInt64
  let sum := foldSum (sumOdd data (sumPairs data sum))
  (~~~ sum).toUInt16 = 0

end PcapAnalyzer
