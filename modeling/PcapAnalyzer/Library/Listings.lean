import Mathlib.Data.List.Nodup
import Mathlib.Data.List.Pairwise

/-!
# Listings

Items are listed by weight, the heaviest first, and by rank where weights are equal. An unstable
sort of the items in any order gives the same list as soon as no two of them agree in both.
-/

namespace Listings

set_option autoImplicit false

variable {Item : Type*}

/-- What a sort may make of the items: all of them, none behind one that it goes before. -/
structure Lists (before : Item → Item → Prop) (items listing : List Item) : Prop where
  entries : listing.Perm items
  sorted : listing.Pairwise fun left right => ¬ before right left

/-- Any two of the items are ordered one way or the other. -/
def Ordered (before : Item → Item → Prop) (items : List Item) : Prop :=
  items.Pairwise fun left right => before left right ∨ before right left

/-- Where any two items are ordered there is one listing. -/
theorem lists_unique {before : Item → Item → Prop} {items left right : List Item}
    (ordered : Ordered before items) (first : Lists before items left)
    (second : Lists before items right) : left = right := by
  have symmetric : Std.Symm fun left right => before left right ∨ before right left :=
    ⟨fun _ _ => Or.symm⟩
  refine List.Perm.eq_of_pairwise ?_ first.sorted second.sorted
    (first.entries.trans second.entries.symm)
  intro item other member otherMember notAfter notBefore
  by_contra different
  rcases ordered.forall (first.entries.subset member) (second.entries.subset otherMember)
    different with earlier | later
  · exact notBefore earlier
  · exact notAfter later

/-- Where any two items are ordered a listing leaves no doubt between neighbours. -/
theorem lists_strict {before : Item → Item → Prop} {items listing : List Item}
    (ordered : Ordered before items) (lists : Lists before items listing) :
    listing.Pairwise before := by
  have listed : Ordered before listing := ordered.perm lists.entries.symm Or.symm
  refine (List.Pairwise.and listed lists.sorted).imp ?_
  rintro left right ⟨earlier | later, notAfter⟩
  · exact earlier
  · exact absurd later notAfter

/-- Two lists in strict order with the same members are the same list. -/
theorem strict_unique {before : Item → Item → Prop}
    (asymmetric : ∀ left right, before left right → ¬ before right left) {left right : List Item}
    (leftSorted : left.Pairwise before) (rightSorted : right.Pairwise before)
    (same : ∀ item, item ∈ left ↔ item ∈ right) : left = right := by
  have apart : ∀ {items : List Item}, items.Pairwise before → items.Nodup := by
    intro items sorted
    refine sorted.imp ?_
    rintro item _ earlier rfl
    exact asymmetric item item earlier earlier
  have entries : left.Perm right :=
    (List.perm_ext_iff_of_nodup (apart leftSorted) (apart rightSorted)).mpr same
  refine entries.eq_of_pairwise ?_ leftSorted rightSorted
  intro item other _ _ earlier later
  exact absurd later (asymmetric item other earlier)

section Before

variable {Rank : Type*} [Ord Rank] (weight : Item → Nat) (rank : Item → Rank)

/-- Heavier, or as heavy and of lower rank. -/
def Before (left right : Item) : Prop :=
  weight right < weight left ∨
    weight left = weight right ∧ compare (rank left) (rank right) = .lt

theorem before_irrefl [Std.ReflOrd Rank] (item : Item) : ¬ Before weight rank item item := by
  rintro (heavier | ⟨-, lower⟩)
  · exact Nat.lt_irrefl _ heavier
  · rw [Std.ReflOrd.compare_self] at lower
    cases lower

theorem before_trans [Std.TransOrd Rank] {left middle right : Item}
    (first : Before weight rank left middle) (second : Before weight rank middle right) :
    Before weight rank left right := by
  unfold Before at *
  rcases first with heavier | ⟨same, lower⟩
  · exact Or.inl (by omega)
  · rcases second with later | ⟨equal, further⟩
    · exact Or.inl (by omega)
    · exact Or.inr ⟨same.trans equal, Std.TransCmp.lt_trans lower further⟩

/-- Two items are ordered one way or the other unless they agree in weight and rank. -/
theorem before_or_before_iff [Std.OrientedOrd Rank] [Std.LawfulEqOrd Rank] (left right : Item) :
    Before weight rank left right ∨ Before weight rank right left ↔
      (rank left, weight left) ≠ (rank right, weight right) := by
  have mirrored : compare (rank right) (rank left) = (compare (rank left) (rank right)).swap :=
    Std.OrientedOrd.eq_swap
  rw [Ne, Prod.mk.injEq, ← Std.compare_eq_iff_eq (a := rank left), Before, Before, mirrored]
  rcases Nat.lt_trichotomy (weight left) (weight right) with lighter | same | heavier
  · exact iff_of_true (Or.inr (Or.inl lighter)) fun agree => Nat.ne_of_lt lighter agree.2
  · cases compare (rank left) (rank right) <;> simp [same]
  · exact iff_of_true (Or.inl (Or.inl heavier)) fun agree => Nat.ne_of_gt heavier agree.2

theorem not_before_iff [Std.OrientedOrd Rank] (left right : Item) :
    ¬ Before weight rank right left ↔ weight right ≤ weight left ∧
      (weight left = weight right → (compare (rank left) (rank right)).isLE) := by
  have mirrored : compare (rank right) (rank left) = (compare (rank left) (rank right)).swap :=
    Std.OrientedOrd.eq_swap
  rw [Before, mirrored, not_or, Nat.not_lt, not_and]
  cases compare (rank left) (rank right) <;> simp [eq_comm]

theorem not_before_trans [Std.TransOrd Rank] {left middle right : Item}
    (first : ¬ Before weight rank middle left) (second : ¬ Before weight rank right middle) :
    ¬ Before weight rank right left := by
  rw [not_before_iff] at first second ⊢
  refine ⟨Nat.le_trans second.1 first.1, fun same => ?_⟩
  have upper : weight left = weight middle := by omega
  exact Std.TransOrd.isLE_trans (first.2 upper) (second.2 (upper.symm.trans same))

/-- The items are ordered exactly if no two of them agree in weight and rank. -/
theorem ordered_iff_nodup [Std.OrientedOrd Rank] [Std.LawfulEqOrd Rank] (items : List Item) :
    Ordered (Before weight rank) items ↔
      (items.map fun item => (rank item, weight item)).Nodup := by
  rw [List.nodup_iff_pairwise_ne, List.pairwise_map, Ordered]
  simp only [before_or_before_iff]

end Before

end Listings
