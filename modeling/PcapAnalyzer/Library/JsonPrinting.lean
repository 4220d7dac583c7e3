import PcapAnalyzer.Library.Json

/-!
# Printed JSON

What a program prints piece by piece, strings with no escapes put in. Each piece comes with the
value it stands for and with the condition under which it is read back, and lists of pieces are
pieces again.
-/

namespace Json

set_option autoImplicit false

/-- A printed item reads as its value exactly when it is sound, whatever stands behind it. -/
structure Printed {Kind : Type} (item : List UInt8 → Kind → List UInt8 → Prop) where
  text : List UInt8
  value : Kind
  sound : Prop
  front : ∀ tail, skip (text ++ tail) = text ++ tail
  reads : ∀ tail rest, item (text ++ tail) value rest ↔ sound ∧ rest = tail

/-- The blanks of a printed list. -/
structure Layout where
  lead : List UInt8
  between : List UInt8
  trail : List UInt8
  blank : ∀ byte ∈ lead ++ between ++ trail, isSpace byte = true

variable {Kind : Type} {item : List UInt8 → Kind → List UInt8 → Prop}
  {list : List UInt8 → List Kind → List UInt8 → Prop} {close : UInt8}

namespace Layout

/-- A row a line, `inner` blanks in front of it, and `outer` in front of the closing byte. -/
def lines (inner outer : Nat) : Layout where
  lead := newline :: List.replicate inner 0x20
  between := newline :: List.replicate inner 0x20
  trail := newline :: List.replicate outer 0x20
  blank byte member := by
    simp only [List.mem_append, List.mem_cons, List.mem_replicate] at member
    rcases member with ((rfl | ⟨-, rfl⟩) | rfl | ⟨-, rfl⟩) | rfl | ⟨-, rfl⟩
    all_goals rfl

/-- All on one line. -/
def inline : Layout where
  lead := []
  between := [0x20]
  trail := []
  blank := List.forall_mem_singleton.mpr rfl

/-- The rows with a comma behind each but the last. -/
def rows (layout : Layout) : List (List UInt8) → List UInt8
  | [] => []
  | row :: rows =>
      layout.lead ++ (row ++ rows.flatMap fun row => comma :: (layout.between ++ row))

theorem rows_cons (layout : Layout) (row : List UInt8) (rows : List (List UInt8)) :
    layout.rows (row :: rows) =
      layout.lead ++ (row ++ rows.flatMap fun row => comma :: (layout.between ++ row)) :=
  rfl

/-- A list behind its opening byte. -/
def print (layout : Layout) (close : UInt8) (items : List (Printed item)) : List UInt8 :=
  layout.rows (items.map Printed.text) ++ (layout.trail ++ [close])

variable (layout : Layout) (text : List UInt8)

theorem skip_lead : skip (layout.lead ++ text) = skip text :=
  skip_blank fun byte member => layout.blank byte (by simp [member])

theorem skip_between : skip (layout.between ++ text) = skip text :=
  skip_blank fun byte member => layout.blank byte (by simp [member])

theorem skip_trail (solid : isSpace close = false) :
    skip (layout.trail ++ close :: text) = close :: text := by
  rw [skip_blank fun byte member => layout.blank byte (by simp [member]), skip_cons solid]

end Layout

theorem items_read (isList : IsList item close list) (solid : isSpace close = false)
    (distinct : close ≠ comma) (layout : Layout) (first : Printed item)
    (items : List (Printed item)) (tail rest : List UInt8) :
    list (first.text ++ ((items.map Printed.text).flatMap (fun row =>
        comma :: (layout.between ++ row)) ++ (layout.trail ++ close :: tail)))
        ((first :: items).map Printed.value) rest ↔
      (∀ printed ∈ first :: items, printed.sound) ∧ rest = tail := by
  induction items generalizing first with
  | nil =>
      have closed := layout.skip_trail tail solid
      simp only [List.map_cons, List.map_nil, List.flatMap_nil, List.nil_append,
        List.forall_mem_singleton]
      rw [isList]
      simp only [first.reads, and_assoc, exists_and_left, exists_eq_left, closed, List.cons.injEq,
        distinct, false_and, exists_false, or_false, true_and, eq_comm]
  | cons next items ih =>
      have more := ih next
      simp only [List.map_cons] at more
      simp only [List.map_cons, List.flatMap_cons, List.append_assoc, List.cons_append]
      rw [isList]
      simp only [first.reads, and_assoc, exists_and_left, exists_eq_left,
        skip_cons (show isSpace comma = false from rfl), List.cons.injEq, true_and,
        List.cons_ne_nil, false_and, false_or, exists_eq_left', layout.skip_between, next.front,
        more, List.forall_mem_cons]

/-- A printed list behind its opening byte. -/
theorem list_read (isList : IsList item close list) (solid : isSpace close = false)
    (distinct : close ≠ comma) (never : ∀ text rest, ¬ list text [] rest)
    (layout : Layout) (items : List (Printed item)) (tail rest : List UInt8) :
    (items.map Printed.value = [] ∧ skip (layout.print close items ++ tail) = close :: rest ∨
        list (skip (layout.print close items ++ tail)) (items.map Printed.value) rest) ↔
      (∀ printed ∈ items, printed.sound) ∧ rest = tail := by
  cases items with
  | nil =>
      simp only [Layout.print, Layout.rows, List.append_assoc, List.cons_append, List.map_nil,
        List.nil_append, layout.skip_trail _ solid, true_and, never, or_false, List.cons.injEq,
        eq_comm, List.not_mem_nil, false_implies, implies_true]
  | cons first items =>
      have read := items_read isList solid distinct layout first items tail rest
      simp only [List.map_cons] at read
      simp only [Layout.print, Layout.rows, List.append_assoc, List.cons_append, List.map_cons,
        List.nil_append, layout.skip_lead, first.front, read, List.cons_ne_nil, false_and,
        false_or]

abbrev Written : Type := Printed Reads

abbrev Member : Type := Printed ReadsMember

/-- Bytes between quotes. -/
def quoted (s : List UInt8) : List UInt8 := quote :: (s ++ [quote])

theorem quoted_front (s tail : List UInt8) : skip (quoted s ++ tail) = quoted s ++ tail :=
  skip_cons rfl

theorem number_front {spelling : List UInt8} (number : Number spelling) (tail : List UInt8) :
    skip (spelling ++ tail) = spelling ++ tail := by
  cases number with
  | @intro minus integer fraction exponent sign whole _ _ =>
      rcases sign with rfl | rfl
      · match integer, whole with
        | [], whole => exact absurd rfl whole.present
        | digit :: digits, whole =>
            refine skip_cons ?_
            have visible := whole.digits digit List.mem_cons_self
            by_contra blank
            simp only [isSpace, Bool.not_eq_false, Bool.or_eq_true, decide_eq_true_eq] at blank
            rcases blank with ((rfl | rfl) | rfl) | rfl
            all_goals cases visible
      · exact skip_cons rfl

namespace Written

/-- Bytes between quotes, escaped or not. -/
def string (s : List UInt8) : Written where
  text := quoted s
  value := .string s
  sound := Clean s
  front := quoted_front s
  reads tail rest := by
    rw [quoted, List.cons_append, List.append_assoc, reads_string_iff]
    exact reads_string_raw

def number (spelling : List UInt8) (number : Number spelling) : Written where
  text := spelling
  value := .number spelling
  sound := True
  front := number_front number
  reads _ _ := reads_number_iff.trans (by simp [number])

def array (layout : Layout) (items : List Written) : Written where
  text := openArray :: layout.print closeArray items
  value := .array (items.map Printed.value)
  sound := ∀ printed ∈ items, printed.sound
  front _ := skip_cons rfl
  reads _ _ := reads_array_iff.trans (list_read elements_are_list rfl (by decide)
    (fun _ _ read => by cases read) layout items _ _)

/-- A member with its name in front. -/
def member (name : List UInt8) (written : Written) : Member where
  text := quoted name ++ colon :: 0x20 :: written.text
  value := (name, written.value)
  sound := Clean name ∧ written.sound
  front tail := by
    rw [List.append_assoc]
    exact quoted_front name _
  reads tail rest := by
    have blank (text : List UInt8) : skip (0x20 :: text) = skip text :=
      List.dropWhile_cons_of_pos rfl
    rw [and_assoc, ← written.reads]
    constructor
    · rintro ⟨body, behind, value, whole, read, separator, inside⟩
      simp only [quoted, List.cons_append, List.append_assoc, List.nil_append, List.cons.injEq,
        true_and] at whole
      rw [← whole] at read
      obtain ⟨clean, rfl⟩ := reads_string_raw.mp read
      rw [skip_cons rfl] at separator
      obtain ⟨-, rfl⟩ := List.cons.inj separator
      rw [blank, written.front] at inside
      exact ⟨clean, inside⟩
    · rintro ⟨clean, inside⟩
      refine ⟨name ++ quote :: colon :: 0x20 :: (written.text ++ tail), _,
        0x20 :: (written.text ++ tail), by simp [quoted], reads_string_raw.mpr ⟨clean, rfl⟩,
        skip_cons rfl, ?_⟩
      rwa [blank, written.front]

def object (layout : Layout) (members : List Member) : Written where
  text := openObject :: layout.print closeObject members
  value := .object (members.map Printed.value)
  sound := ∀ printed ∈ members, printed.sound
  front _ := skip_cons rfl
  reads _ _ := reads_object_iff.trans (list_read members_are_list rfl (by decide)
    (fun _ _ read => by cases read) layout members _ _)

section Sound

variable {layout : Layout} {s name : List UInt8} {written : Written}

@[simp] theorem string_sound : (string s).sound ↔ Clean s := Iff.rfl

@[simp] theorem number_sound {spelled : Number s} : (number s spelled).sound ↔ True := Iff.rfl

@[simp] theorem member_sound :
    (member name written).sound ↔ Clean name ∧ written.sound :=
  Iff.rfl

@[simp] theorem array_sound {items : List Written} :
    (array layout items).sound ↔ ∀ printed ∈ items, printed.sound :=
  Iff.rfl

@[simp] theorem object_sound {members : List Member} :
    (object layout members).sound ↔ ∀ printed ∈ members, printed.sound :=
  Iff.rfl

end Sound

end Written

theorem document_iff (written : Written) :
    Document written.text written.value ↔ written.sound := by
  have front := written.front []
  have reads := written.reads []
  rw [List.append_nil] at front reads
  rw [Document, front]
  constructor
  · rintro ⟨rest, read, -⟩
    exact ((reads rest).mp read).1
  · intro sound
    exact ⟨[], (reads []).mpr ⟨sound, rfl⟩, rfl⟩

end Json
