import Mathlib.Tactic.Convert
import PcapAnalyzer.Library.OnesComplement
import PcapAnalyzer.Util.Checksum

/-!
# What the fast checksum verifies

The checksum of RFC 1071 is the complement of the ones' complement sum of the big-endian
16-bit words, an odd last byte being padded on the right. `verifyChecksum` accepts exactly
the data whose sum, the pseudo header included, is the all-ones word, and none of its
additions wraps.
-/

namespace PcapAnalyzer

open MeasuredLoop OnesComplement

set_option autoImplicit false

/-- The 16-bit words that are summed. -/
def words : List UInt8 → List Nat
  | [] => []
  | [last] => [256 * last.toNat]
  | high :: low :: rest => (256 * high.toNat + low.toNat) :: words rest

def wordSum (data : List UInt8) : Nat := (words data).sum

def internetChecksum (data : List UInt8) : UInt16 :=
  UInt16.ofNat (complement 65535 (OnesComplement.sum 65535 (words data)))

section Words

theorem words_bounded (data : List UInt8) : ∀ word ∈ words data, word ≤ 65535 := by
  fun_induction words data with
  | case1 => simp
  | case2 last =>
      have bound := last.toNat_lt
      simp only [List.mem_singleton, forall_eq]
      omega
  | case3 high low rest ih =>
      have highBound := high.toNat_lt
      have lowBound := low.toNat_lt
      simp only [List.mem_cons, forall_eq_or_imp]
      exact ⟨by omega, ih⟩

theorem word_sum_append (left right : List UInt8) (even : left.length % 2 = 0) :
    wordSum (left ++ right) = wordSum left + wordSum right := by
  fun_induction words left with
  | case1 => simp [wordSum, words]
  | case2 last => simp at even
  | case3 high low rest ih =>
      have rejoined := ih (by simp only [List.length_cons] at even; omega)
      simp only [wordSum, List.cons_append, words, List.sum_cons] at rejoined ⊢
      omega

theorem word_sum_bound (data : List UInt8) : wordSum data ≤ 65535 * data.length := by
  fun_induction words data with
  | case1 => simp [wordSum, words]
  | case2 last =>
      have bound := last.toNat_lt
      simp only [wordSum, words, List.sum_cons, List.sum_nil, List.length_singleton]
      omega
  | case3 high low rest ih =>
      have highBound := high.toNat_lt
      have lowBound := low.toNat_lt
      simp only [wordSum, words, List.sum_cons, List.length_cons] at ih ⊢
      omega

theorem checksum_stands (data : List UInt8) :
    Stands 65535 (wordSum data) (OnesComplement.sum 65535 (words data)) :=
  sum_stands (words data) (words_bounded data)

theorem internet_checksum_to_nat (data : List UInt8) :
    (internetChecksum data).toNat =
      complement 65535 (OnesComplement.sum 65535 (words data)) := by
  have bound : complement 65535 (OnesComplement.sum 65535 (words data)) ≤ 65535 :=
    Nat.sub_le _ _
  rw [internetChecksum, UInt16.toNat_ofNat']
  omega

/-- Data that contains its checksum sums to the all-ones word. -/
theorem checksum_completes (data : List UInt8) :
    Stands 65535 (wordSum data + (internetChecksum data).toNat) 65535 := by
  have whole := (checksum_stands data).add_complement (by decide)
  rw [internet_checksum_to_nat]
  refine ⟨⟨?_, ?_⟩, le_rfl⟩
  · exact (show 65535 ≡ 0 [MOD 65535] by decide).trans whole.1.symm
  · exact iff_of_false (by decide) whole.2

/-- An IPv4 header with its checksum field cleared. -/
example : internetChecksum [0x45, 0x00, 0x00, 0x73, 0x00, 0x00, 0x40, 0x00, 0x40, 0x11, 0, 0,
    0xc0, 0xa8, 0x00, 0x01, 0xc0, 0xa8, 0x00, 0xc7] = 0xb861 := by decide

end Words

section Slices

variable (data : List UInt8)

/-- The words of the first `count` bytes from an even offset on. -/
theorem word_sum_take (i count : Nat) (even : i % 2 = 0) (inside : i ≤ data.length) :
    wordSum (data.take (i + count)) = wordSum (data.take i) + wordSum (slice data i count) := by
  rw [List.take_add, word_sum_append _ _ (by simp [Nat.min_eq_left inside, even]), slice]

theorem word_sum_pair (i : Nat) (inside : i + 2 ≤ data.length) :
    wordSum (slice data i 2) = 256 * (byteAt data i).toNat + (byteAt data (i + 1)).toNat := by
  rw [slice_succ data i 1 (by omega), slice_succ data (i + 1) 0 (by omega)]
  simp [slice, wordSum, words]

/-- A little-endian word of 32 bits is read as its two words exchanged. -/
theorem load32_same (i : Nat) (inside : i + 4 ≤ data.length) :
    Same 65535 (256 * (load32 data i).toNat) (wordSum (slice data i 4)) := by
  rw [slice_succ data i 3 (by omega), slice_succ data (i + 1) 2 (by omega),
    slice_succ data (i + 1 + 1) 1 (by omega), slice_succ data (i + 1 + 1 + 1) 0 (by omega),
    load32_to_nat]
  simp only [wordSum, words, slice, List.take_zero, List.sum_cons, List.sum_nil, Nat.add_assoc,
    Nat.reduceAdd]
  exact ⟨by unfold Nat.ModEq; omega, by omega⟩

theorem halves_load64 (i : Nat) :
    (halves (load64 data i)).toNat = (load32 data i).toNat + (load32 data (i + 4)).toNat := by
  have low := (load32 data i).toNat_lt
  have high := (load32 data (i + 4)).toNat_lt
  have loaded : (load64 data i).toNat =
      (load32 data i).toNat + 4294967296 * (load32 data (i + 4)).toNat := by
    rw [load64, UInt64.toNat_ofNat']
    omega
  have mask : (0xFFFFFFFF : UInt64).toNat = 2 ^ 32 - 1 := rfl
  have shift : (32 : UInt64).toNat % 64 = 32 := rfl
  rw [halves, UInt64.toNat_add, UInt64.toNat_and, UInt64.toNat_shiftRight, mask, shift,
    Nat.and_two_pow_sub_one_eq_mod, Nat.shiftRight_eq_div_pow, loaded]
  omega

/-- Eight bytes of one accumulator. -/
theorem halves_same (i : Nat) (even : i % 2 = 0) (inside : i + 8 ≤ data.length) :
    Same 65535 (256 * (halves (load64 data i)).toNat) (wordSum (slice data i 8)) := by
  have first := load32_same data i (by omega)
  have second := load32_same data (i + 4) (by omega)
  have parts : wordSum (slice data i 8) =
      wordSum (slice data i 4) + wordSum (slice data (i + 4) 4) := by
    have whole := word_sum_take data i 8 even (by omega)
    have half := word_sum_take data i 4 even (by omega)
    have rest := word_sum_take data (i + 4) 4 (by omega) (by omega)
    simp only [Nat.add_assoc, Nat.reduceAdd] at whole half rest ⊢
    omega
  rw [halves_load64, Nat.mul_add, parts]
  exact first.add second

end Slices

section Loops

variable (data : List UInt8)

/-- What the accumulators hold after some blocks. -/
structure Accumulated (blocks : Nat) (acc : Accumulators) : Prop where
  a : acc.a.toNat ≤ blocks * 2 ^ 33
  b : acc.b.toNat ≤ blocks * 2 ^ 33
  c : acc.c.toNat ≤ blocks * 2 ^ 33
  d : acc.d.toNat ≤ blocks * 2 ^ 33
  same : Same 65535 (256 * (acc.a.toNat + acc.b.toNat + acc.c.toNat + acc.d.toNat))
    (wordSum (data.take (32 * blocks)))

theorem halves_bound (i : Nat) : (halves (load64 data i)).toNat < 2 ^ 33 := by
  have low := (load32 data i).toNat_lt
  have high := (load32 data (i + 4)).toNat_lt
  rw [halves_load64]
  omega

/-- An accumulator that has room for one more addition. -/
theorem accumulate_to_nat (acc : UInt64) (i blocks : Nat) (small : blocks < 2 ^ 28)
    (bound : acc.toNat ≤ blocks * 2 ^ 33) :
    (acc + halves (load64 data i)).toNat = acc.toNat + (halves (load64 data i)).toNat ∧
      (acc + halves (load64 data i)).toNat ≤ (blocks + 1) * 2 ^ 33 := by
  have added := halves_bound data i
  rw [UInt64.toNat_add]
  omega

theorem add_block_accumulated {blocks : Nat} {acc : Accumulators} (small : blocks < 2 ^ 28)
    (inside : 32 * (blocks + 1) ≤ data.length) (before : Accumulated data blocks acc) :
    Accumulated data (blocks + 1) (addBlock data acc blocks) := by
  have a := accumulate_to_nat data acc.a (32 * blocks) blocks small before.a
  have b := accumulate_to_nat data acc.b (32 * blocks + 8) blocks small before.b
  have c := accumulate_to_nat data acc.c (32 * blocks + 16) blocks small before.c
  have d := accumulate_to_nat data acc.d (32 * blocks + 24) blocks small before.d
  refine ⟨a.2, b.2, c.2, d.2, ?_⟩
  have first := halves_same data (32 * blocks) (by omega) (by omega)
  have second := halves_same data (32 * blocks + 8) (by omega) (by omega)
  have third := halves_same data (32 * blocks + 16) (by omega) (by omega)
  have fourth := halves_same data (32 * blocks + 24) (by omega) (by omega)
  have cut8 := word_sum_take data (32 * blocks) 8 (by omega) (by omega)
  have cut16 := word_sum_take data (32 * blocks + 8) 8 (by omega) (by omega)
  have cut24 := word_sum_take data (32 * blocks + 16) 8 (by omega) (by omega)
  have cut32 := word_sum_take data (32 * blocks + 24) 8 (by omega) (by omega)
  have whole : wordSum (data.take (32 * (blocks + 1))) = wordSum (data.take (32 * blocks)) +
      (wordSum (slice data (32 * blocks) 8) + wordSum (slice data (32 * blocks + 8) 8) +
        wordSum (slice data (32 * blocks + 16) 8) + wordSum (slice data (32 * blocks + 24) 8)) := by
    simp only [Nat.add_assoc, Nat.reduceAdd] at cut8 cut16 cut24 cut32
    rw [show 32 * (blocks + 1) = 32 * blocks + 32 by omega]
    omega
  have parts := before.same.add (((first.add second).add third).add fourth)
  rw [← Nat.mul_add, ← Nat.mul_add, ← Nat.mul_add, ← Nat.mul_add] at parts
  rw [whole]
  simp only [addBlock, a.1, b.1, c.1, d.1]
  convert parts using 2
  omega

theorem blocks_accumulated (short : data.length < 2 ^ 32) (count : Nat)
    (inside : count ≤ data.length / 32) :
    Accumulated data count ((List.range count).foldl (addBlock data) ⟨0, 0, 0, 0⟩) := by
  induction count with
  | zero => exact ⟨by simp, by simp, by simp, by simp, by simp [wordSum, words, Same.refl]⟩
  | succ count ih =>
      rw [List.range_succ, List.foldl_append]
      exact add_block_accumulated data (by omega) (by omega) (ih (by omega))

theorem sum_blocks_accumulated (short : data.length < 2 ^ 32) :
    Accumulated data (data.length / 32) (sumBlocks data) :=
  blocks_accumulated data short _ le_rfl

/-- The accumulators together. -/
theorem Accumulated.total {blocks : Nat} {acc : Accumulators} (few : blocks < 2 ^ 27)
    (held : Accumulated data blocks acc) :
    (acc.a + acc.b + acc.c + acc.d).toNat ≤ 2 ^ 62 ∧
      Same 65535 (256 * (acc.a + acc.b + acc.c + acc.d).toNat)
        (wordSum (data.take (32 * blocks))) := by
  obtain ⟨a, b, c, d, same⟩ := held
  have total : (acc.a + acc.b + acc.c + acc.d).toNat =
      acc.a.toNat + acc.b.toNat + acc.c.toNat + acc.d.toNat := by
    simp only [UInt64.toNat_add]
    omega
  rw [total]
  exact ⟨by omega, same⟩

/-- What is summed after some of the words behind the blocks. -/
theorem words_accumulated {swapped : UInt64} (bound : swapped.toNat ≤ 2 ^ 62)
    (same : Same 65535 (256 * swapped.toNat)
      (wordSum (data.take (32 * (data.length / 32)))))
    (count : Nat) (inside : count ≤ data.length % 32 / 4) :
    let sum := (List.range count).foldl (fun sum word =>
      sum + (load32 data (32 * (data.length / 32) + 4 * word)).toUInt64) swapped
    sum.toNat ≤ 2 ^ 62 + count * 2 ^ 32 ∧ Same 65535 (256 * sum.toNat)
      (wordSum (data.take (32 * (data.length / 32) + 4 * count))) := by
  induction count with
  | zero => exact ⟨bound, same⟩
  | succ count ih =>
      obtain ⟨earlier, summed⟩ := ih (by omega)
      rw [List.range_succ, List.foldl_append, List.foldl_cons, List.foldl_nil]
      generalize (List.range count).foldl _ swapped = sum at *
      have word := (load32 data (32 * (data.length / 32) + 4 * count)).toNat_lt
      have added : (sum + (load32 data (32 * (data.length / 32) + 4 * count)).toUInt64).toNat =
          sum.toNat + (load32 data (32 * (data.length / 32) + 4 * count)).toNat := by
        rw [UInt64.toNat_add, UInt32.toNat_toUInt64]
        omega
      have next := load32_same data (32 * (data.length / 32) + 4 * count) (by omega)
      refine ⟨by omega, ?_⟩
      rw [added, Nat.mul_add, Nat.mul_succ, ← Nat.add_assoc,
        word_sum_take data _ 4 (by omega) (by omega)]
      exact summed.add next

theorem sum_words_same {swapped : UInt64} (bound : swapped.toNat ≤ 2 ^ 62)
    (same : Same 65535 (256 * swapped.toNat)
      (wordSum (data.take (32 * (data.length / 32))))) :
    Same 65535 (256 * (sumWords data swapped).toNat)
      (wordSum (data.take (4 * (data.length / 4)))) := by
  have whole := (words_accumulated data bound same _ le_rfl).2
  rwa [show 32 * (data.length / 32) + 4 * (data.length % 32 / 4) = 4 * (data.length / 4) by
    omega] at whole

theorem fold_turn_to_nat (sum : UInt64) :
    ((sum &&& (0xFFFF : UInt64)) + (sum >>> 16)).toNat =
      sum.toNat % (65535 + 1) + sum.toNat / (65535 + 1) := by
  have bound := sum.toNat_lt
  have mask : (0xFFFF : UInt64).toNat = 2 ^ 16 - 1 := rfl
  have shift : (16 : UInt64).toNat % 64 = 16 := rfl
  rw [UInt64.toNat_add, UInt64.toNat_and, UInt64.toNat_shiftRight, mask, shift,
    Nat.and_two_pow_sub_one_eq_mod, Nat.shiftRight_eq_div_pow]
  omega

theorem fold_turn_high (sum : UInt64) : sum >>> 16 ≠ 0 ↔ 65535 < sum.toNat := by
  have shift : (16 : UInt64).toNat % 64 = 16 := rfl
  rw [ne_eq, ← UInt64.toNat_inj, UInt64.toNat_shiftRight, shift, Nat.shiftRight_eq_div_pow]
  simp only [UInt64.toNat_zero]
  omega

theorem fold_turn_decreasing : Decreasing foldTurn UInt64.toNat := by
  intro sum next turned
  unfold foldTurn at turned
  split_ifs at turned with high
  cases turned
  have large := (fold_turn_high sum).mp high
  rw [fold_turn_to_nat]
  omega

/-- Folding reads a sum as a word of 16 bits. -/
theorem fold_sum_stands (sum : UInt64) : Stands 65535 sum.toNat (foldSum sum).toNat := by
  refine run_invariant fold_turn_decreasing (fun state => Same 65535 state.toNat sum.toNat)
    (fun result => Stands 65535 sum.toNat result.toNat) ?_ ?_ _ sum (Nat.lt_succ_self _)
    (Same.refl _)
  · intro state next same turned
    unfold foldTurn at turned
    split_ifs at turned
    cases turned
    rw [fold_turn_to_nat]
    exact (fold_once 65535 state.toNat).trans same
  · intro state result same turned
    unfold foldTurn at turned
    split_ifs at turned with high
    cases turned
    exact ⟨same, Nat.le_of_not_lt fun large => high ((fold_turn_high state).mpr large)⟩

end Loops

/-- Swapping the bytes of the little-endian sum gives the big-endian one. -/
theorem bswap16_same (word : UInt16) : Same 65535 (bswap16 word).toNat (256 * word.toNat) := by
  have digits := swap_digits 256 (word.toNat % 256) (word.toNat / 256) (by decide)
  have rejoined : word.toNat % 256 + word.toNat / 256 * 256 = word.toNat := by omega
  rw [rejoined] at digits
  rw [bswap16_to_nat, Nat.add_comm]
  exact digits

theorem pair_to_nat (high low : UInt8) :
    ((high.toUInt32 <<< 8) ||| low.toUInt32).toUInt64.toNat = 256 * high.toNat + low.toNat := by
  have highBound := high.toNat_lt
  have lowBound := low.toNat_lt
  have shift : (8 : UInt32).toNat % 32 = 8 := rfl
  have joined := or_of_disjoint low.toNat high.toNat 8 (by omega)
  rw [UInt32.toNat_toUInt64, UInt32.toNat_or, UInt32.toNat_shiftLeft, UInt8.toNat_toUInt32,
    UInt8.toNat_toUInt32, shift, Nat.shiftLeft_eq, Nat.mod_eq_of_lt (by omega), Nat.or_comm, joined]
  omega

section Tail

variable (data : List UInt8)

theorem sum_pairs_to_nat {sum : UInt64} (room : sum.toNat < 2 ^ 48) :
    (sumPairs data sum).toNat + wordSum (data.take (4 * (data.length / 4))) =
        sum.toNat + wordSum (data.take (2 * (data.length / 2))) ∧
      (sumPairs data sum).toNat < 2 ^ 49 := by
  unfold sumPairs
  have few : data.length % 4 / 2 = 0 ∨ data.length % 4 / 2 = 1 := by omega
  rcases few with none | one
  · rw [none, show 2 * (data.length / 2) = 4 * (data.length / 4) by omega]
    exact ⟨rfl, by simp only [List.range_zero, List.foldl_nil]; omega⟩
  · have cut := word_sum_take data (4 * (data.length / 4)) 2 (by omega) (by omega)
    have pair := word_sum_pair data (4 * (data.length / 4)) (by omega)
    have high := (byteAt data (4 * (data.length / 4))).toNat_lt
    have low := (byteAt data (4 * (data.length / 4) + 1)).toNat_lt
    rw [one, show 2 * (data.length / 2) = 4 * (data.length / 4) + 2 by omega]
    simp only [List.range_one, List.foldl_cons, List.foldl_nil, Nat.mul_zero, Nat.add_zero,
      UInt64.toNat_add, pair_to_nat]
    omega

theorem sum_odd_to_nat {sum : UInt64} (room : sum.toNat < 2 ^ 49) :
    (sumOdd data sum).toNat + wordSum (data.take (2 * (data.length / 2))) =
      sum.toNat + wordSum data := by
  unfold sumOdd
  simp only
  split_ifs with odd
  · have cut := word_sum_take data (2 * (data.length / 2)) 1 (by omega) (by omega)
    have last : wordSum (slice data (2 * (data.length / 2)) 1) =
        256 * (byteAt data (2 * (data.length / 2))).toNat := by
      rw [slice_succ data _ 0 odd]
      simp [slice, wordSum, words]
    have byte := (byteAt data (2 * (data.length / 2))).toNat_lt
    have padded := pair_to_nat (byteAt data (2 * (data.length / 2))) 0
    rw [show (0 : UInt8).toUInt32 = 0 from rfl, UInt32.or_zero] at padded
    rw [List.take_of_length_le (by omega)] at cut
    rw [UInt64.toNat_add, padded, show (0 : UInt8).toNat = 0 from rfl]
    omega
  · rw [List.take_of_length_le (by omega)]

/-- The last three bytes at most are added as they stand. -/
theorem sum_tail_to_nat {sum : UInt64} (room : sum.toNat < 2 ^ 48) :
    (sumOdd data (sumPairs data sum)).toNat + wordSum (data.take (4 * (data.length / 4))) =
      sum.toNat + wordSum data := by
  obtain ⟨pairs, bound⟩ := sum_pairs_to_nat data room
  have odd := sum_odd_to_nat data bound
  omega

end Tail

theorem complement_zero_iff (sum : UInt64) (bound : sum.toNat ≤ 65535) :
    (~~~ sum).toUInt16 = 0 ↔ sum.toNat = 65535 := by
  have size : UInt64.size = 2 ^ 64 := rfl
  rw [← UInt16.toNat_inj, UInt64.toNat_toUInt16, UInt64.toNat_not, size]
  simp only [UInt16.toNat_zero]
  omega

/-- The fast checksum accepts the data whose sum is read as the all-ones word. -/
theorem verify_checksum_iff (data : List UInt8) (pseudoHeaderSum : UInt64)
    (short : data.length < 2 ^ 32) (small : pseudoHeaderSum.toNat < 2 ^ 40) :
    verifyChecksum data pseudoHeaderSum = true ↔
      Same 65535 (pseudoHeaderSum.toNat + wordSum data) 65535 := by
  obtain ⟨bound, blocks⟩ := (sum_blocks_accumulated data short).total data (by omega)
  have summed := sum_words_same data bound blocks
  simp only [verifyChecksum, decide_eq_true_eq]
  generalize sumWords data _ = swapped at summed ⊢
  have folded := fold_sum_stands swapped
  have narrow : (foldSum swapped).toUInt16.toNat = (foldSum swapped).toNat := by
    have bounded := folded.bounded
    rw [UInt64.toNat_toUInt16]
    omega
  have front : Same 65535 (bswap16 (foldSum swapped).toUInt16).toNat
      (wordSum (data.take (4 * (data.length / 4)))) := by
    have exchanged := bswap16_same (foldSum swapped).toUInt16
    rw [narrow] at exchanged
    exact (exchanged.trans (folded.toSame.scale 256)).trans summed
  have swappedBound := (bswap16 (foldSum swapped).toUInt16).toNat_lt
  generalize bswap16 (foldSum swapped).toUInt16 = word at front swappedBound ⊢
  have started : (pseudoHeaderSum + word.toUInt64).toNat = pseudoHeaderSum.toNat + word.toNat := by
    rw [UInt64.toNat_add, UInt16.toNat_toUInt64]
    omega
  have tail : (sumOdd data (sumPairs data (pseudoHeaderSum + word.toUInt64))).toNat +
      wordSum (data.take (4 * (data.length / 4))) = _ := sum_tail_to_nat data (by omega)
  generalize sumOdd data _ = total at tail ⊢
  have whole : Same 65535 total.toNat (pseudoHeaderSum.toNat + wordSum data) := by
    have cut := word_sum_append (data.take (4 * (data.length / 4)))
      (data.drop (4 * (data.length / 4))) (by rw [List.length_take]; omega)
    rw [List.take_append_drop] at cut
    have total_eq : total.toNat = pseudoHeaderSum.toNat +
        (word.toNat + wordSum (data.drop (4 * (data.length / 4)))) := by
      omega
    rw [total_eq, cut]
    exact (Same.refl _).add (front.add (Same.refl _))
  have last := fold_sum_stands total
  rw [complement_zero_iff _ last.bounded, last.all_ones (by decide)]
  constructor
  · rintro ⟨residue, nonzero⟩
    exact whole.symm.trans ⟨residue, iff_of_false nonzero (by decide)⟩
  · intro same
    have both := whole.trans same
    exact ⟨both.residue, fun zero => absurd (both.zero.mp zero) (by decide)⟩

section Additions

/-- The additions of one block, each as its operands. -/
def blockAdditions (data : List UInt8) (block : Nat) : List (UInt64 × UInt64) :=
  let acc := (List.range block).foldl (addBlock data) ⟨0, 0, 0, 0⟩
  let w0 := load64 data (32 * block)
  let w1 := load64 data (32 * block + 8)
  let w2 := load64 data (32 * block + 16)
  let w3 := load64 data (32 * block + 24)
  [w0, w1, w2, w3].map (fun w => (w &&& (0xFFFFFFFF : UInt64), w >>> 32)) ++
    [(acc.a, halves w0), (acc.b, halves w1), (acc.c, halves w2), (acc.d, halves w3)]

def wordAdditions (data : List UInt8) (swapped : UInt64) : List (UInt64 × UInt64) :=
  (List.range (data.length % 32 / 4)).map fun word =>
    ((List.range word).foldl (fun sum word =>
      sum + (load32 data (32 * (data.length / 32) + 4 * word)).toUInt64) swapped,
    (load32 data (32 * (data.length / 32) + 4 * word)).toUInt64)

def foldAdditions (sum : UInt64) : List (UInt64 × UInt64) :=
  ((visited foldTurn (sum.toNat + 1) sum).filter fun sum : UInt64 => sum >>> 16 ≠ 0).map
    fun sum : UInt64 => (sum &&& (0xFFFF : UInt64), sum >>> 16)

/-- There is at most one pair and one odd byte behind the words. -/
def tailAdditions (data : List UInt8) (sum : UInt64) : List (UInt64 × UInt64) :=
  let i := 4 * (data.length / 4)
  let last := 2 * (data.length / 2)
  (if i + 2 ≤ data.length then
    [(sum, (((byteAt data i).toUInt32 <<< 8) ||| (byteAt data (i + 1)).toUInt32).toUInt64)]
  else []) ++
    if last < data.length then
      [(sumPairs data sum, ((byteAt data last).toUInt32 <<< 8).toUInt64)]
    else []

/-- The 64-bit additions of `verifyChecksum`, each as its operands. -/
def checksumAdditions (data : List UInt8) (pseudoHeaderSum : UInt64) : List (UInt64 × UInt64) :=
  let acc := sumBlocks data
  let swapped := sumWords data (acc.a + acc.b + acc.c + acc.d)
  let word := (bswap16 (foldSum swapped).toUInt16).toUInt64
  (List.range (data.length / 32)).flatMap (blockAdditions data) ++
    [(acc.a, acc.b), (acc.a + acc.b, acc.c), (acc.a + acc.b + acc.c, acc.d)] ++
    wordAdditions data (acc.a + acc.b + acc.c + acc.d) ++
    foldAdditions swapped ++ [(pseudoHeaderSum, word)] ++
    tailAdditions data (pseudoHeaderSum + word) ++
    foldAdditions (sumOdd data (sumPairs data (pseudoHeaderSum + word)))

/-- The addition does not wrap. -/
def Fits (operands : UInt64 × UInt64) : Prop :=
  operands.1.toNat + operands.2.toNat < 2 ^ 64

variable (data : List UInt8)

theorem block_additions_fit (short : data.length < 2 ^ 32) {block : Nat}
    (inside : block < data.length / 32) : ∀ operands ∈ blockAdditions data block, Fits operands := by
  have held := blocks_accumulated data short block (by omega)
  have added := fun i => halves_bound data i
  have parts : ∀ w : UInt64, Fits (w &&& (0xFFFFFFFF : UInt64), w >>> 32) := by
    intro w
    have bound := w.toNat_lt
    have mask : (0xFFFFFFFF : UInt64).toNat = 2 ^ 32 - 1 := rfl
    have shift : (32 : UInt64).toNat % 64 = 32 := rfl
    simp only [Fits, UInt64.toNat_and, UInt64.toNat_shiftRight, mask, shift,
      Nat.and_two_pow_sub_one_eq_mod, Nat.shiftRight_eq_div_pow]
    omega
  have room : ∀ (acc : UInt64) (i : Nat), acc.toNat ≤ block * 2 ^ 33 →
      Fits (acc, halves (load64 data i)) := by
    intro acc i bound
    have word := added i
    simp only [Fits]
    omega
  intro operands member
  rcases List.mem_append.mp member with split | accumulate
  · obtain ⟨w, -, rfl⟩ := List.mem_map.mp split
    exact parts w
  · simp only [List.mem_cons, List.not_mem_nil, or_false] at accumulate
    rcases accumulate with rfl | rfl | rfl | rfl
    · exact room _ _ held.a
    · exact room _ _ held.b
    · exact room _ _ held.c
    · exact room _ _ held.d

theorem fold_additions_fit (sum : UInt64) : ∀ operands ∈ foldAdditions sum, Fits operands := by
  intro operands member
  obtain ⟨seen, -, rfl⟩ := List.mem_map.mp member
  have bound := seen.toNat_lt
  have mask : (0xFFFF : UInt64).toNat = 2 ^ 16 - 1 := rfl
  have shift : (16 : UInt64).toNat % 64 = 16 := rfl
  simp only [Fits, UInt64.toNat_and, UInt64.toNat_shiftRight, mask, shift,
    Nat.and_two_pow_sub_one_eq_mod, Nat.shiftRight_eq_div_pow]
  omega

theorem tail_additions_fit {sum : UInt64} (room : sum.toNat < 2 ^ 48) :
    ∀ operands ∈ tailAdditions data sum, Fits operands := by
  have pairs := (sum_pairs_to_nat data room).2
  have narrow : ∀ w : UInt32, w.toUInt64.toNat < 2 ^ 32 := by
    intro w
    rw [UInt32.toNat_toUInt64]
    exact w.toNat_lt
  intro operands member
  unfold tailAdditions at member
  simp only [List.mem_append] at member
  rcases member with pair | odd
  · split_ifs at pair
    · have bound := narrow (((byteAt data (4 * (data.length / 4))).toUInt32 <<< 8) |||
        (byteAt data (4 * (data.length / 4) + 1)).toUInt32)
      rw [List.mem_singleton.mp pair]
      simp only [Fits]
      omega
    · cases pair
  · split_ifs at odd
    · have bound := narrow ((byteAt data (2 * (data.length / 2))).toUInt32 <<< 8)
      rw [List.mem_singleton.mp odd]
      simp only [Fits]
      omega
    · cases odd

theorem word_additions_fit {swapped : UInt64} (bound : swapped.toNat ≤ 2 ^ 62)
    (same : Same 65535 (256 * swapped.toNat)
      (wordSum (data.take (32 * (data.length / 32))))) :
    ∀ operands ∈ wordAdditions data swapped, Fits operands := by
  intro operands member
  obtain ⟨count, inside, rfl⟩ := List.mem_map.mp member
  rw [List.mem_range] at inside
  have before := (words_accumulated data bound same count (by omega)).1
  have word := (load32 data (32 * (data.length / 32) + 4 * count)).toNat_lt
  simp only [Fits, UInt32.toNat_toUInt64]
  omega

theorem block_total_fits {blocks : Nat} {acc : Accumulators} (few : blocks < 2 ^ 27)
    (held : Accumulated data blocks acc) :
    ∀ operands ∈ [(acc.a, acc.b), (acc.a + acc.b, acc.c), (acc.a + acc.b + acc.c, acc.d)],
      Fits operands := by
  have a := held.a
  have b := held.b
  have c := held.c
  have d := held.d
  simp only [List.mem_cons, List.not_mem_nil, or_false, forall_eq_or_imp, forall_eq, Fits,
    UInt64.toNat_add]
  omega

theorem checksum_additions_fit (short : data.length < 2 ^ 32) {pseudoHeaderSum : UInt64}
    (small : pseudoHeaderSum.toNat < 2 ^ 40) :
    ∀ operands ∈ checksumAdditions data pseudoHeaderSum, Fits operands := by
  have held := sum_blocks_accumulated data short
  obtain ⟨bound, blocks⟩ := held.total data (by omega)
  have swapped := (bswap16 (foldSum (sumWords data ((sumBlocks data).a + (sumBlocks data).b +
    (sumBlocks data).c + (sumBlocks data).d))).toUInt16).toNat_lt
  intro operands member
  simp only [checksumAdditions, List.mem_append] at member
  rcases member with (((((block | total) | word) | fold) | start) | tail) | last
  · obtain ⟨count, inside, added⟩ := List.mem_flatMap.mp block
    exact block_additions_fit data short (List.mem_range.mp inside) operands added
  · exact block_total_fits data (by omega) held operands total
  · exact word_additions_fit data bound blocks operands word
  · exact fold_additions_fit _ operands fold
  · rw [List.mem_singleton.mp start]
    simp only [Fits, UInt16.toNat_toUInt64]
    omega
  · apply tail_additions_fit data _ operands tail
    rw [UInt64.toNat_add, UInt16.toNat_toUInt64]
    omega
  · exact fold_additions_fit _ operands last

end Additions

/-- End-around carry down to 16 bits. -/
def foldWord (sum : Nat) : Nat :=
  if sum ≤ 0xFFFF then sum else foldWord (sum % 0x10000 + sum / 0x10000)
termination_by sum
decreasing_by omega

theorem fold_word_stands (sum : Nat) : Stands 65535 sum (foldWord sum) := by
  fun_induction foldWord sum with
  | case1 sum small => exact stands_self small
  | case2 sum large ih => exact ⟨ih.toSame.trans (fold_once 65535 sum), ih.bounded⟩

/-- The fast checksum is the plain one, and no addition of it wraps. -/
theorem verify_checksum_plain (data : List UInt8) (pseudoHeaderSum : UInt64)
    (short : data.length < 2 ^ 32) (small : pseudoHeaderSum.toNat < 2 ^ 32) :
    (verifyChecksum data pseudoHeaderSum = true ↔
        foldWord (pseudoHeaderSum.toNat + wordSum data) = 0xFFFF) ∧
      ∀ operands ∈ checksumAdditions data pseudoHeaderSum, Fits operands := by
  refine ⟨?_, checksum_additions_fit data short (by omega)⟩
  rw [verify_checksum_iff data pseudoHeaderSum short (by omega),
    (fold_word_stands _).all_ones (by decide)]
  constructor
  · intro same
    exact ⟨same.residue.trans (by decide), fun zero => absurd (same.zero.mp zero) (by decide)⟩
  · rintro ⟨residue, nonzero⟩
    exact ⟨residue.trans (by decide), iff_of_false nonzero (by decide)⟩

theorem verify_checksum_plain_carried :
    verifyChecksum [0xFF, 0xFF, 0x00, 0x01, 0x00] 0xFFFE = true ∧
      ∀ operands ∈ checksumAdditions [0xFF, 0xFF, 0x00, 0x01, 0x00] 0xFFFE, Fits operands := by
  have plain := verify_checksum_plain [0xFF, 0xFF, 0x00, 0x01, 0x00] 0xFFFE (by decide) (by decide)
  have carried : foldWord ((0xFFFE : UInt64).toNat + wordSum [0xFF, 0xFF, 0x00, 0x01, 0x00]) =
      0xFFFF := by
    have total : (0xFFFE : UInt64).toNat + wordSum [0xFF, 0xFF, 0x00, 0x01, 0x00] = 0x1FFFE := rfl
    rw [total, foldWord, if_neg (by decide), foldWord, if_pos (by decide)]
  exact ⟨plain.1.mpr carried, plain.2⟩

end PcapAnalyzer
