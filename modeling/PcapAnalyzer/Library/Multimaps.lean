import Mathlib.Data.Prod.Basic
import PcapAnalyzer.Library.Listings

/-!
# Multimaps

A map in ascending order of its keys, with a list of values for each, filled by appending values
one at a time. Each key holds its own values, in the order in which they came, whatever came for
other keys between them.
-/

namespace Multimaps

set_option autoImplicit false

variable {Key Value : Type*}

/-- `table[key].push_back(value)`. -/
def file [Ord Key] (key : Key) (value : Value) : List (Key × List Value) → List (Key × List Value)
  | [] => [(key, [value])]
  | (other, values) :: rest =>
      match compare key other with
      | .lt => (key, [value]) :: (other, values) :: rest
      | .eq => (other, values ++ [value]) :: rest
      | .gt => (other, values) :: file key value rest

def fileAll [Ord Key] (entries : List (Key × Value)) (table : List (Key × List Value)) :
    List (Key × List Value) :=
  entries.foldl (fun table entry => file entry.1 entry.2 table) table

/-- The values that came for a key. -/
def valuesOf [DecidableEq Key] (key : Key) (entries : List (Key × Value)) : List Value :=
  (entries.filter fun entry => entry.1 = key).map Prod.snd

/-- The keys stand in ascending order. -/
def Ascending [Ord Key] (table : List (Key × List Value)) : Prop :=
  table.Pairwise fun left right => compare left.1 right.1 = .lt

/-- The table holds for each key the values that came for it, and no key without values. -/
structure Gathers [Ord Key] [DecidableEq Key] (table : List (Key × List Value))
    (entries : List (Key × Value)) : Prop where
  ascending : Ascending table
  holds : ∀ key values,
    (key, values) ∈ table ↔ values ≠ [] ∧ values = valuesOf key entries

section ValuesOf

variable [DecidableEq Key]

theorem values_of_snoc (key other : Key) (value : Value) (entries : List (Key × Value)) :
    valuesOf key (entries ++ [(other, value)]) =
      if other = key then valuesOf key entries ++ [value] else valuesOf key entries := by
  unfold valuesOf
  split_ifs with same <;> simp [same]

theorem mem_values_of {key : Key} {value : Value} {entries : List (Key × Value)} :
    value ∈ valuesOf key entries ↔ (key, value) ∈ entries := by
  unfold valuesOf
  simp only [List.mem_map, List.mem_filter, decide_eq_true_eq, Prod.exists]
  constructor
  · rintro ⟨_, _, ⟨member, rfl⟩, rfl⟩
    exact member
  · intro member
    exact ⟨key, value, ⟨member, rfl⟩, rfl⟩

end ValuesOf

section Filing

variable [Ord Key]

theorem file_keys (key : Key) (value : Value) (table : List (Key × List Value))
    {row : Key × List Value} (member : row ∈ file key value table) :
    row.1 = key ∨ ∃ old ∈ table, row.1 = old.1 := by
  induction table with
  | nil =>
      rw [file, List.mem_singleton] at member
      exact Or.inl (congrArg Prod.fst member)
  | cons head rest ih =>
      rw [file] at member
      cases order : compare key head.1 with
      | lt =>
          simp only [order, List.mem_cons] at member
          rcases member with rfl | rfl | old
          · exact Or.inl rfl
          · exact Or.inr ⟨_, List.mem_cons_self, rfl⟩
          · exact Or.inr ⟨row, List.mem_cons_of_mem _ old, rfl⟩
      | eq =>
          simp only [order, List.mem_cons] at member
          rcases member with rfl | old
          · exact Or.inr ⟨head, List.mem_cons_self, rfl⟩
          · exact Or.inr ⟨row, List.mem_cons_of_mem _ old, rfl⟩
      | gt =>
          simp only [order, List.mem_cons] at member
          rcases member with rfl | later
          · exact Or.inr ⟨_, List.mem_cons_self, rfl⟩
          · rcases ih later with new | ⟨old, stored, same⟩
            · exact Or.inl new
            · exact Or.inr ⟨old, List.mem_cons_of_mem _ stored, same⟩

theorem file_ascending [Std.TransOrd Key] (key : Key) (value : Value)
    {table : List (Key × List Value)} (ascending : Ascending table) :
    Ascending (file key value table) := by
  induction table with
  | nil => exact List.pairwise_singleton _ _
  | cons head rest ih =>
      obtain ⟨first, later⟩ := List.pairwise_cons.mp ascending
      rw [file]
      cases order : compare key head.1 with
      | lt =>
          refine List.Pairwise.cons ?_ ascending
          intro row member
          rcases List.mem_cons.mp member with rfl | stored
          · exact order
          · exact Std.TransCmp.lt_trans order (first row stored)
      | eq => exact List.Pairwise.cons first later
      | gt =>
          refine List.Pairwise.cons ?_ (ih later)
          intro row member
          rcases file_keys key value rest member with same | ⟨old, stored, same⟩
          · rw [same]
            exact Std.OrientedCmp.gt_iff_lt.mp order
          · rw [same]
            exact first old stored

/-- A key below all others has no row. -/
theorem absent_of_lt [Std.ReflOrd Key] {key : Key} {table : List (Key × List Value)}
    (below : ∀ row ∈ table, compare key row.1 = .lt) (values : List Value) :
    (key, values) ∉ table := by
  intro member
  have smaller := below _ member
  rw [Std.ReflOrd.compare_self] at smaller
  cases smaller

variable [Std.LawfulEqOrd Key]

/-- Filing a value leaves the rows of other keys alone. -/
theorem mem_file_other {key other : Key} (different : other ≠ key) (value : Value)
    (table : List (Key × List Value)) (values : List Value) :
    (other, values) ∈ file key value table ↔ (other, values) ∈ table := by
  induction table with
  | nil => simp [file, different]
  | cons head rest ih =>
      obtain ⟨name, held⟩ := head
      rw [file]
      cases order : compare key name with
      | lt => simp [different]
      | eq =>
          obtain rfl := Std.LawfulEqOrd.eq_of_compare order
          simp [different]
      | gt => simp [ih]

/-- It appends the value to the row of its key, or adds one. -/
theorem mem_file_same [Std.TransOrd Key] (key : Key) (value : Value)
    {table : List (Key × List Value)} (ascending : Ascending table) (values : List Value) :
    (key, values) ∈ file key value table ↔
      (∃ held, (key, held) ∈ table ∧ values = held ++ [value]) ∨
        (∀ held, (key, held) ∉ table) ∧ values = [value] := by
  induction table with
  | nil => simp [file]
  | cons head rest ih =>
      obtain ⟨name, held⟩ := head
      obtain ⟨first, later⟩ := List.pairwise_cons.mp ascending
      rw [file]
      cases order : compare key name with
      | lt =>
          have below : ∀ row ∈ (name, held) :: rest, compare key row.1 = .lt := by
            intro row member
            rcases List.mem_cons.mp member with rfl | stored
            · exact order
            · exact Std.TransCmp.lt_trans order (first row stored)
          have absent := absent_of_lt below
          simp only [List.mem_cons (b := (key, [value])), absent, or_false, false_and, exists_false,
            false_or, not_false_eq_true, implies_true, true_and, Prod.mk.injEq]
      | eq =>
          obtain rfl := Std.LawfulEqOrd.eq_of_compare order
          have absent := absent_of_lt first
          simp [absent]
      | gt =>
          have different : key ≠ name := by
            rintro rfl
            rw [Std.ReflOrd.compare_self] at order
            cases order
          simp [different, ih later]

theorem Gathers.file [Std.TransOrd Key] [DecidableEq Key] {table : List (Key × List Value)}
    {entries : List (Key × Value)} (gathers : Gathers table entries) (key : Key) (value : Value) :
    Gathers (file key value table) (entries ++ [(key, value)]) := by
  refine ⟨file_ascending key value gathers.ascending, fun other values => ?_⟩
  rw [values_of_snoc]
  by_cases same : key = other
  · subst same
    rw [mem_file_same key value gathers.ascending, if_pos rfl]
    simp only [gathers.holds]
    have filled : values = valuesOf key entries ++ [value] → values ≠ [] := by
      rintro rfl
      simp
    by_cases none : valuesOf key entries = []
    · simpa [none] using filled
    · constructor
      · rintro (⟨held, ⟨-, rfl⟩, extended⟩ | ⟨absent, -⟩)
        · exact ⟨filled extended, extended⟩
        · exact absurd ⟨none, rfl⟩ (absent _)
      · exact fun ⟨_, extended⟩ => Or.inl ⟨_, ⟨none, rfl⟩, extended⟩
  · rw [mem_file_other (Ne.symm same), if_neg same]
    exact gathers.holds other values

/-- Whatever is filed, the table gathers all of it. -/
theorem Gathers.fileAll [Std.TransOrd Key] [DecidableEq Key] {table : List (Key × List Value)}
    {past : List (Key × Value)} (gathers : Gathers table past) (entries : List (Key × Value)) :
    Gathers (fileAll entries table) (past ++ entries) := by
  induction entries generalizing table past with
  | nil => simpa [Multimaps.fileAll] using gathers
  | cons entry entries ih =>
      have step := ih (gathers.file entry.1 entry.2)
      rw [List.append_assoc, List.singleton_append] at step
      exact step

theorem file_all_gathers [Std.TransOrd Key] [DecidableEq Key] (entries : List (Key × Value)) :
    Gathers (fileAll entries []) entries := by
  have empty : Gathers ([] : List (Key × List Value)) [] :=
    ⟨List.Pairwise.nil, fun key values => by simp [valuesOf]⟩
  exact empty.fileAll entries

end Filing

/-- Two tables with the same rows are the same table. -/
theorem ascending_unique [Ord Key] [Std.TransOrd Key] {left right : List (Key × List Value)}
    (leftAscending : Ascending left) (rightAscending : Ascending right)
    (same : ∀ row, row ∈ left ↔ row ∈ right) : left = right := by
  refine Listings.strict_unique ?_ leftAscending rightAscending same
  intro row other before after
  rw [Std.OrientedCmp.gt_iff_lt.mpr after] at before
  cases before

/-- A key has one row. -/
theorem row_unique [Ord Key] [Std.TransOrd Key] {table : List (Key × List Value)}
    (ascending : Ascending table) {row other : Key × List Value} (member : row ∈ table)
    (otherMember : other ∈ table) (same : row.1 = other.1) : row = other := by
  by_contra different
  have apart : table.Pairwise fun left right => left.1 ≠ right.1 := by
    refine ascending.imp ?_
    intro left right before equal
    rw [equal, Std.ReflOrd.compare_self] at before
    cases before
  have symmetric : Std.Symm fun left right : Key × List Value => left.1 ≠ right.1 :=
    ⟨fun _ _ => Ne.symm⟩
  exact apart.forall member otherMember different same

end Multimaps
