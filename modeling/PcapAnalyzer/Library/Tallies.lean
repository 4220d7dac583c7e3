import Mathlib.Algebra.BigOperators.Group.Finset.Basic
import Mathlib.Algebra.BigOperators.Group.Finset.Piecewise
import PcapAnalyzer.Library.Ledger

/-!
# Tallies

A tally adds up the weights of items by a label. It holds the labels that occur, each once, with
the sum over the items that carry it. Two filings that agree in their sums key by key agree in the
sum over any selection of keys.
-/

namespace Tallies

set_option autoImplicit false

variable {Item Label : Type} [DecidableEq Label]

section Tally

variable (label : Item → Label) (weight : Item → Nat)

/-- `table[label] += weight`, where a label that is not there starts from nothing. -/
def add (table : AList fun _ : Label => Nat) (item : Item) : AList fun _ : Label => Nat :=
  table.insert (label item) ((table.lookup (label item)).getD 0 + weight item)

def tally (items : List Item) : AList fun _ : Label => Nat :=
  items.foldl (add label weight) ∅

/-- The weight of the items with a label. -/
def weightOf (name : Label) (items : List Item) : Nat :=
  ((items.filter fun item => label item = name).map weight).sum

theorem weight_of_cons (name : Label) (item : Item) (items : List Item) :
    weightOf label weight name (item :: items) =
      (if label item = name then weight item else 0) + weightOf label weight name items := by
  unfold weightOf
  by_cases same : label item = name
  · simp [same]
  · simp [same]

theorem fold_lookup (items : List Item) (table : AList fun _ : Label => Nat) (name : Label) :
    (items.foldl (add label weight) table).lookup name =
      if name ∈ items.map label ∨ name ∈ table then
        some ((table.lookup name).getD 0 + weightOf label weight name items)
      else none := by
  induction items generalizing table with
  | nil =>
      cases found : table.lookup name with
      | none => simp [AList.lookup_eq_none.mp found, found]
      | some held => simp [AList.lookup_isSome.mp (by rw [found]; rfl), found, weightOf]
  | cons item items ih =>
      rw [List.foldl_cons, ih]
      simp only [add, weight_of_cons, List.map_cons, List.mem_cons, AList.mem_insert]
      by_cases same : label item = name
      · subst same
        simp [Nat.add_assoc]
      · simp [same, Ne.symm same, AList.lookup_insert_ne (Ne.symm same)]

/-- A tally holds a label exactly if it occurs, with the weight of the items that carry it. -/
theorem tally_lookup (items : List Item) (name : Label) :
    (tally label weight items).lookup name =
      if name ∈ items.map label then some (weightOf label weight name items) else none := by
  have held := fold_lookup label weight items ∅ name
  simpa [tally, AList.notMem_empty] using held

/-- The rows of a tally. -/
def rows (items : List Item) : List (Label × Nat) :=
  (tally label weight items).entries.map fun entry => (entry.1, entry.2)

theorem mem_rows (items : List Item) (name : Label) (sum : Nat) :
    (name, sum) ∈ rows label weight items ↔
      name ∈ items.map label ∧ sum = weightOf label weight name items := by
  have found := tally_lookup label weight items name
  have stored : (name, sum) ∈ rows label weight items ↔
      (tally label weight items).lookup name = some sum := by
    rw [← Option.mem_def, AList.mem_lookup_iff, rows, List.mem_map]
    constructor
    · rintro ⟨entry, member, same⟩
      cases same
      exact member
    · intro member
      exact ⟨⟨name, sum⟩, member, rfl⟩
  rw [stored, found]
  split_ifs with occurs
  · rw [Option.some.injEq, eq_comm]
    exact (and_iff_right occurs).symm
  · simp [occurs]

theorem rows_labels_nodup (items : List Item) :
    ((rows label weight items).map Prod.fst).Nodup := by
  rw [rows, List.map_map]
  exact (tally label weight items).keys_nodup

/-- The rows add up to the weight of all items. -/
theorem rows_total (items : List Item) :
    ((rows label weight items).map Prod.snd).sum = (items.map weight).sum := by
  have opened : ∀ (items : List Item) (table : AList fun _ : Label => Nat),
      Ledger.openedSum id (items.foldl (add label weight) table) =
        Ledger.openedSum id table + (items.map weight).sum := by
    intro items
    induction items with
    | nil => simp
    | cons item items ih =>
        intro table
        rw [List.foldl_cons, ih, add, Ledger.opened_sum_insert, List.map_cons, List.sum_cons]
        cases found : table.lookup (label item) with
        | none =>
            rw [Ledger.opened_sum_erase_absent id table found]
            simp only [Option.getD_none, id_eq]
            omega
        | some held =>
            rw [Ledger.opened_sum_erase id table found]
            simp only [Option.getD_some, id_eq]
            omega
  have total := opened items ∅
  simp only [Ledger.openedSum, AList.empty_entries, List.map_nil, List.sum_nil, Nat.zero_add]
    at total
  rw [rows, List.map_map, ← total]
  rfl

end Tally

section Selections

variable {Key Left Right : Type} [DecidableEq Key]

/-- The weight of the values filed under the selected keys. -/
def selected {Value : Type} (among : Key → Bool) (weight : Value → Nat)
    (entries : List (Key × Value)) : Nat :=
  ((entries.filter fun entry => among entry.1).map fun entry => weight entry.2).sum

theorem selected_sum {Value : Type} (among : Key → Bool) (weight : Value → Nat)
    (entries : List (Key × Value)) (keys : Finset Key) (all : ∀ entry ∈ entries, entry.1 ∈ keys) :
    selected among weight entries = ∑ key ∈ keys,
      if among key then ((Ledger.ofKey key entries).map weight).sum else 0 := by
  induction entries with
  | nil => simp [selected]
  | cons entry entries ih =>
      obtain ⟨here, others⟩ := List.forall_mem_cons.mp all
      have split : ∀ key, (if among key then
          ((Ledger.ofKey key (entry :: entries)).map weight).sum else 0) =
          (if entry.1 = key then (if among entry.1 then weight entry.2 else 0) else 0) +
            if among key then ((Ledger.ofKey key entries).map weight).sum else 0 := by
        intro key
        by_cases same : entry.1 = key
        · subst same
          cases chosen : among entry.1 <;> simp [Ledger.ofKey]
        · simp [Ledger.ofKey, same]
      rw [Finset.sum_congr rfl fun key _ => split key, Finset.sum_add_distrib,
        Finset.sum_ite_eq, if_pos here, ← ih others]
      cases chosen : among entry.1 <;> simp [selected, chosen]

/-- Filings that weigh the same under each key weigh the same under each selection of keys. -/
theorem selected_congr {left : List (Key × Left)} {right : List (Key × Right)}
    (leftWeight : Left → Nat) (rightWeight : Right → Nat)
    (same : ∀ key, ((Ledger.ofKey key left).map leftWeight).sum =
      ((Ledger.ofKey key right).map rightWeight).sum) (among : Key → Bool) :
    selected among leftWeight left = selected among rightWeight right := by
  let keys : Finset Key := (left.map Prod.fst ++ right.map Prod.fst).toFinset
  have leftKeys : ∀ entry ∈ left, entry.1 ∈ keys := by
    intro entry member
    exact List.mem_toFinset.mpr (List.mem_append_left _ (List.mem_map_of_mem member))
  have rightKeys : ∀ entry ∈ right, entry.1 ∈ keys := by
    intro entry member
    exact List.mem_toFinset.mpr (List.mem_append_right _ (List.mem_map_of_mem member))
  rw [selected_sum among leftWeight left keys leftKeys,
    selected_sum among rightWeight right keys rightKeys]
  exact Finset.sum_congr rfl fun key _ => by rw [same key]

end Selections

end Tallies
