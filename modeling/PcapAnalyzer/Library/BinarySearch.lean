import PcapAnalyzer.Library.MeasuredLoop

/-!
# Binary search

The search for the first item that is not below a bound halves a range of the items, whatever
their order is. Only where all items below the bound stand in front of the others is its result
where a search from the front would stop.
-/

namespace BinarySearch

open MeasuredLoop (Turn)

set_option autoImplicit false

variable {Item : Type*}

/-- The items that are still to be searched. -/
structure Range where
  first : Nat
  len : Nat

/-- The middle of the range is compared, and one half of the range is left. -/
def halveTurn (below : Item → Bool) (items : List Item) (range : Range) : Turn Range Nat :=
  if range.len = 0 then .leave range.first else
  let half := range.len / 2
  if items[range.first + half]?.any below then
    .again { first := range.first + half + 1, len := range.len - half - 1 }
  else .again { range with len := half }

/-- Every pass shortens the range, so the fuel is never used up. -/
def lowerBound (below : Item → Bool) (items : List Item) : Nat :=
  MeasuredLoop.run (halveTurn below items) Range.first (items.length + 1)
    { first := 0, len := items.length }

/-- All items below the bound stand in front of the others. -/
def Partitioned (below : Item → Bool) (items : List Item) : Prop :=
  items.Pairwise fun left right => below right = true → below left = true

section Search

variable {below : Item → Bool} {items : List Item}

theorem halve_turn_decreasing : MeasuredLoop.Decreasing (halveTurn below items) Range.len := by
  intro range next pass
  unfold halveTurn at pass
  simp only at pass
  split_ifs at pass
  · cases pass
    simp only
    omega
  · cases pass
    simp only
    omega

/-- Behind the front of the partitioned items nothing is below the bound. -/
theorem partitioned_back (partitioned : Partitioned below items) :
    ∀ item ∈ items.dropWhile below, below item = false := by
  induction items with
  | nil => exact fun item member => absurd member List.not_mem_nil
  | cons item items ih =>
      obtain ⟨first, others⟩ := List.pairwise_cons.mp partitioned
      cases holds : below item with
      | true =>
          rw [List.dropWhile_cons_of_pos holds]
          exact ih others
      | false =>
          rw [List.dropWhile_cons_of_neg (by simp [holds])]
          intro other member
          cases member with
          | head => exact holds
          | tail _ later =>
              -- one below the bound behind this item would put this item below it as well
              by_contra reached
              have passed := first other later (by simpa using reached)
              rw [holds] at passed
              cases passed

/-- Where the items are partitioned, the bound is passed where the front ends. -/
theorem below_iff_front (partitioned : Partitioned below items) (index : Nat)
    (inside : index < items.length) :
    items[index]?.any below = true ↔ index < (items.takeWhile below).length := by
  have split : items = items.takeWhile below ++ items.dropWhile below :=
    List.takeWhile_append_dropWhile.symm
  by_cases front : index < (items.takeWhile below).length
  · have found : items[index]? = some (items.takeWhile below)[index] := by
      rw [← List.getElem?_eq_getElem front]
      conv_lhs => rw [split]
      exact List.getElem?_append_left front
    have holds : below (items.takeWhile below)[index] = true :=
      List.all_eq_true.mp List.all_takeWhile _ (List.getElem_mem front)
    simp [found, holds, front]
  · have found : items[index]? =
        (items.dropWhile below)[index - (items.takeWhile below).length]? := by
      conv_lhs => rw [split]
      exact List.getElem?_append_right (Nat.le_of_not_lt front)
    have lengths := congrArg List.length split
    rw [List.length_append] at lengths
    have back : index - (items.takeWhile below).length < (items.dropWhile below).length := by
      omega
    have above := partitioned_back partitioned _ (List.getElem_mem back)
    rw [found, List.getElem?_eq_getElem back]
    simp [above, front]

/-- Where the items are partitioned, the search finds the end of the front. -/
theorem lower_bound_partitioned (partitioned : Partitioned below items) :
    lowerBound below items = (items.takeWhile below).length := by
  have fits : (items.takeWhile below).length ≤ items.length :=
    (List.takeWhile_prefix below).length_le
  apply MeasuredLoop.run_invariant halve_turn_decreasing
    (fun range => range.first ≤ (items.takeWhile below).length ∧
      (items.takeWhile below).length ≤ range.first + range.len ∧
      range.first + range.len ≤ items.length)
    (fun found => found = (items.takeWhile below).length)
  · intro range next invariant pass
    obtain ⟨start, stop, inside⟩ := invariant
    unfold halveTurn at pass
    simp only at pass
    split_ifs at pass with ended passed
    · cases pass
      have front := (below_iff_front partitioned _ (by omega)).mp passed
      simp only
      omega
    · cases pass
      have behind := mt (below_iff_front partitioned (range.first + range.len / 2) (by omega)).mpr
        passed
      simp only
      omega
  · intro range found invariant pass
    obtain ⟨start, stop, -⟩ := invariant
    unfold halveTurn at pass
    simp only at pass
    split_ifs at pass with ended passed
    cases pass
    omega
  · exact Nat.lt_succ_self _
  · exact ⟨Nat.zero_le _, by simpa using fits, by simp⟩

/-- Elsewhere it is not where a search from the front would stop. -/
example : lowerBound (· < 3) [5, 1, 2] = 3 := by decide

/-- What is in front of the bound in a partitioned list is what is below it. -/
theorem take_lower_bound (partitioned : Partitioned below items) :
    items.take (lowerBound below items) = items.takeWhile below := by
  rw [lower_bound_partitioned partitioned]
  exact (List.prefix_iff_eq_take.mp (List.takeWhile_prefix below)).symm

theorem drop_lower_bound (partitioned : Partitioned below items) :
    items.drop (lowerBound below items) = items.dropWhile below := by
  have split : items.takeWhile below ++ items.dropWhile below = items :=
    List.takeWhile_append_dropWhile
  have behind : (items.takeWhile below ++ items.dropWhile below).drop
      (items.takeWhile below).length = items.dropWhile below := List.drop_left
  rw [split] at behind
  rw [lower_bound_partitioned partitioned, behind]

/-- Where no item is below the bound, the search stays at the first. -/
theorem lower_bound_none (above : ∀ item ∈ items, below item = false) :
    lowerBound below items = 0 := by
  have partitioned : Partitioned below items := by
    apply List.pairwise_of_forall_mem_list
    intro left _ right member holds
    rw [above right member] at holds
    cases holds
  have empty : items.takeWhile below = [] := by
    cases items with
    | nil => rfl
    | cons item items =>
        exact List.takeWhile_cons_of_neg (by simp [above item List.mem_cons_self])
  rw [lower_bound_partitioned partitioned, empty, List.length_nil]

end Search

end BinarySearch
