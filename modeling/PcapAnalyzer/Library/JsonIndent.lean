import PcapAnalyzer.Library.JsonPrinting

/-!
# Indented JSON

Blanks behind every line end of a JSON text leave the value it stands for: no string, number or
literal runs over the end of a line. What is left behind a value is determined by the text and
the value, so that a piece that is known to be read is a printed piece.
-/

namespace Json

set_option autoImplicit false

/-- Blanks behind every line end that something follows. -/
def spread (blanks : List UInt8) : List UInt8 → List UInt8
  | [] => []
  | byte :: text =>
      if byte = newline ∧ text ≠ [] then newline :: (blanks ++ spread blanks text)
      else byte :: spread blanks text

section Spread

variable {blanks text tail rest : List UInt8}

theorem spread_line (present : text ≠ []) :
    spread blanks (newline :: text) = newline :: (blanks ++ spread blanks text) := by
  rw [spread, if_pos ⟨rfl, present⟩]

theorem spread_solid {byte : UInt8} (solid : byte ≠ newline) (text : List UInt8) :
    spread blanks (byte :: text) = byte :: spread blanks text := by
  rw [spread, if_neg fun line => solid line.1]

theorem visible_solid {byte : UInt8} (visible : 0x20 ≤ byte) : byte ≠ newline := by
  rintro rfl
  exact absurd visible (by decide)

/-- Bytes that are no control bytes are passed over. -/
theorem spread_front {front : List UInt8} (visible : Visible front) (text : List UInt8) :
    spread blanks (front ++ text) = front ++ spread blanks text := by
  induction front with
  | nil => rfl
  | cons byte front ih =>
      obtain ⟨first, others⟩ := List.forall_mem_cons.mp visible
      rw [List.cons_append, spread_solid (visible_solid first), ih others, List.cons_append]

/-- A last line end stays the last byte. -/
theorem spread_last {byte : UInt8} (solid : byte ≠ newline) (text : List UInt8) :
    spread blanks (text ++ [byte, newline]) = spread blanks (text ++ [byte]) ++ [newline] := by
  induction text with
  | nil =>
      rw [List.nil_append, List.nil_append, spread_solid solid, spread_solid solid]
      rfl
  | cons first text ih =>
      rw [List.cons_append, List.cons_append]
      by_cases line : first = newline
      · rw [line, spread_line (by simp), spread_line (by simp), ih]
        simp
      · rw [spread_solid line, spread_solid line, ih]
        rfl

variable (blank : ∀ byte ∈ blanks, isSpace byte = true)

include blank

/-- White space is skipped as before. -/
theorem skip_spread (present : skip text ≠ []) :
    skip (spread blanks text ++ tail) = spread blanks (skip text) ++ tail := by
  induction text with
  | nil => exact absurd rfl present
  | cons byte text ih =>
      by_cases space : isSpace byte = true
      · have next : skip (byte :: text) = skip text := List.dropWhile_cons_of_pos space
        rw [next] at present
        rw [next, ← ih present]
        by_cases line : byte = newline
        · have follows : text ≠ [] := by
            rintro rfl
            exact present rfl
          have spaces : ∀ byte ∈ newline :: blanks, isSpace byte = true :=
            List.forall_mem_cons.mpr ⟨rfl, blank⟩
          rw [line, spread_line follows, ← List.cons_append, List.append_assoc]
          exact skip_blank spaces
        · rw [spread_solid line, List.cons_append]
          exact List.dropWhile_cons_of_pos space
      · have solid : isSpace byte = false := by simpa using space
        have line : byte ≠ newline := by
          rintro rfl
          cases solid
        rw [spread_solid line, List.cons_append, skip_cons solid, skip_cons solid,
          spread_solid line, List.cons_append]

theorem skip_spread_cons {byte : UInt8} (reached : skip text = byte :: rest)
    (solid : byte ≠ newline) :
    skip (spread blanks text ++ tail) = byte :: (spread blanks rest ++ tail) := by
  rw [skip_spread blank (by simp [reached]), reached, spread_solid solid]
  rfl

/-- Nothing but white space stays so. -/
theorem skip_spread_nil (ends : skip text = []) : skip (spread blanks text) = [] := by
  rw [skip, List.dropWhile_eq_nil_iff] at ends ⊢
  induction text with
  | nil => exact ends
  | cons byte text ih =>
      obtain ⟨space, others⟩ := List.forall_mem_cons.mp ends
      unfold spread
      split_ifs with line
      · exact List.forall_mem_cons.mpr ⟨rfl, List.forall_mem_append.mpr ⟨blank, ih others⟩⟩
      · exact List.forall_mem_cons.mpr ⟨space, ih others⟩

end Spread

section Front

variable {text rest : List UInt8}

theorem number_ne_nil {spelling : List UInt8} (number : Number spelling) : spelling ≠ [] := by
  cases number with
  | intro sign whole point power => simp [whole.present]

theorem Reads.present {value : Value} (read : Reads text value rest) : text ≠ [] := by
  cases read with
  | number number => exact List.append_ne_nil_of_left_ne_nil (number_ne_nil number) _
  | _ => exact List.cons_ne_nil _ _

theorem ReadsElements.present {elements : List Value} (read : ReadsElements text elements rest) :
    text ≠ [] := by
  cases read with
  | last read close => exact read.present
  | more read next more => exact read.present

theorem ReadsMembers.present {members : List (List UInt8 × Value)}
    (read : ReadsMembers text members rest) : text ≠ [] := by
  cases read with
  | last name separator read close => exact List.cons_ne_nil _ _
  | more name separator read next more => exact List.cons_ne_nil _ _

end Front

section Moved

variable {blanks : List UInt8} (blank : ∀ byte ∈ blanks, isSpace byte = true)
  (tail : List UInt8)

theorem ReadsString.moved {text s rest : List UInt8} (read : ReadsString text s rest) :
    ReadsString (spread blanks text ++ tail) s (spread blanks rest ++ tail) := by
  induction read with
  | close =>
      rw [spread_solid (by decide), List.cons_append]
      exact .close
  | plain plain _ ih =>
      have parts := plain
      simp only [isPlain, Bool.and_eq_true, decide_eq_true_eq] at parts
      rw [spread_solid (visible_solid parts.2), List.cons_append]
      exact .plain plain ih
  | escape escaped _ ih =>
      rw [spread_solid (by decide), spread_front (escape_spec escaped).visible,
        List.cons_append, List.append_assoc]
      exact .escape escaped ih

include blank

mutual

/-- A value is read as before with blanks behind the line ends and more text behind it. -/
theorem Reads.moved {text rest : List UInt8} {value : Value} :
    Reads text value rest → Reads (spread blanks text ++ tail) value (spread blanks rest ++ tail)
  | .null => by
      rw [spread_front (by decide), List.append_assoc]
      exact .null
  | .true => by
      rw [spread_front (by decide), List.append_assoc]
      exact .true
  | .false => by
      rw [spread_front (by decide), List.append_assoc]
      exact .false
  | .number number => by
      rw [spread_front (number_visible number), List.append_assoc]
      exact .number number
  | .string read => by
      rw [spread_solid (by decide), List.cons_append]
      exact .string (read.moved tail)
  | .emptyArray close => by
      rw [spread_solid (by decide), List.cons_append]
      exact .emptyArray (skip_spread_cons blank close (by decide))
  | .array read => by
      rw [spread_solid (by decide), List.cons_append]
      have moved := read.moved
      rw [← skip_spread blank read.present] at moved
      exact .array moved
  | .emptyObject close => by
      rw [spread_solid (by decide), List.cons_append]
      exact .emptyObject (skip_spread_cons blank close (by decide))
  | .object read => by
      rw [spread_solid (by decide), List.cons_append]
      have moved := read.moved
      rw [← skip_spread blank read.present] at moved
      exact .object moved

theorem ReadsElements.moved {text rest : List UInt8} {elements : List Value} :
    ReadsElements text elements rest →
      ReadsElements (spread blanks text ++ tail) elements (spread blanks rest ++ tail)
  | .last read close => .last read.moved (skip_spread_cons blank close (by decide))
  | .more read next more => by
      have moved := more.moved
      rw [← skip_spread blank more.present] at moved
      exact .more read.moved (skip_spread_cons blank next (by decide)) moved

theorem ReadsMembers.moved {text rest : List UInt8} {members : List (List UInt8 × Value)} :
    ReadsMembers text members rest →
      ReadsMembers (spread blanks text ++ tail) members (spread blanks rest ++ tail)
  | .last name separator read close => by
      have moved := read.moved
      rw [← skip_spread blank read.present] at moved
      rw [spread_solid (by decide), List.cons_append]
      exact .last (name.moved tail) (skip_spread_cons blank separator (by decide)) moved
        (skip_spread_cons blank close (by decide))
  | .more name separator read next more => by
      have moved := read.moved
      rw [← skip_spread blank read.present] at moved
      have later := more.moved
      rw [← skip_spread blank more.present] at later
      rw [spread_solid (by decide), List.cons_append]
      exact .more (name.moved tail) (skip_spread_cons blank separator (by decide)) moved
        (skip_spread_cons blank next (by decide)) later

end

theorem ReadsMember.moved {text rest : List UInt8} {member : List UInt8 × Value}
    (read : ReadsMember text member rest) :
    ReadsMember (spread blanks text ++ tail) member (spread blanks rest ++ tail) := by
  obtain ⟨body, behind, value, rfl, name, separator, inside⟩ := read
  have moved := inside.moved blank tail
  rw [← skip_spread blank inside.present] at moved
  rw [spread_solid (by decide), List.cons_append]
  exact ⟨_, _, _, rfl, name.moved tail, skip_spread_cons blank separator (by decide), moved⟩

/-- Indenting keeps the value of a whole text. -/
theorem document_spread {text : List UInt8} {value : Value} (document : Document text value) :
    Document (spread blanks text) value := by
  obtain ⟨rest, read, ends⟩ := document
  have moved := read.moved blank []
  rw [← skip_spread blank read.present, List.append_nil, List.append_nil] at moved
  exact ⟨_, moved, skip_spread_nil blank ends⟩

end Moved

section Determined

/-- What stands behind the quote that closes a string. -/
def stringEnd : List UInt8 → List UInt8
  | [] => []
  | [_] => []
  | byte :: next :: text =>
      if byte = quote then next :: text
      else if byte = backslash then stringEnd text
      else stringEnd (next :: text)

theorem string_end_quote (text : List UInt8) : stringEnd (quote :: text) = text := by
  cases text with
  | nil => rfl
  | cons next text => rw [stringEnd, if_pos rfl]

theorem string_end_plain {byte : UInt8} (open_ : byte ≠ quote) (bare : byte ≠ backslash)
    (text : List UInt8) : stringEnd (byte :: text) = stringEnd text := by
  cases text with
  | nil => rfl
  | cons next text => rw [stringEnd, if_neg open_, if_neg bare]

theorem string_end_escape (next : UInt8) (text : List UInt8) :
    stringEnd (backslash :: next :: text) = stringEnd text := by
  rw [stringEnd, if_neg (by decide), if_pos rfl]

theorem hex_digit_bare {byte : UInt8} {value : Nat} (digit : hexDigit byte = some value) :
    byte ≠ quote ∧ byte ≠ backslash := by
  constructor
  · rintro rfl
    rw [show hexDigit quote = none from rfl] at digit
    cases digit
  · rintro rfl
    rw [show hexDigit backslash = none from rfl] at digit
    cases digit

theorem string_end_hex {digits : List UInt8} {start value : Nat}
    (read : digits.foldlM (fun value byte => (hexDigit byte).map (value * 16 + ·)) start =
      some value) (text : List UInt8) : stringEnd (digits ++ text) = stringEnd text := by
  induction digits generalizing start with
  | nil => rfl
  | cons byte digits ih =>
      rw [List.foldlM_cons, Option.bind_eq_bind, Option.bind_eq_some_iff] at read
      obtain ⟨next, digit, others⟩ := read
      obtain ⟨value, digit, -⟩ := Option.map_eq_some_iff.mp digit
      obtain ⟨quoteless, bare⟩ := hex_digit_bare digit
      rw [List.cons_append, string_end_plain quoteless bare, ih others]

theorem string_end_unit {digits : List UInt8} {value : Nat} (read : codeUnit digits = some value)
    (text : List UInt8) : stringEnd (digits ++ text) = stringEnd text := by
  unfold codeUnit at read
  split_ifs at read
  exact string_end_hex read text

theorem string_end_escaped {escape bytes : List UInt8} (escaped : Escape escape bytes)
    (text : List UInt8) : stringEnd (backslash :: (escape ++ text)) = stringEnd text := by
  cases escaped with
  | short short => exact string_end_escape _ _
  | unit unit =>
      rw [List.cons_append, string_end_escape]
      exact string_end_unit unit text
  | pair high low =>
      rw [List.cons_append, string_end_escape, List.append_assoc, string_end_unit high,
        List.cons_append, List.cons_append, string_end_escape]
      exact string_end_unit low text

variable {text s rest other : List UInt8}

theorem reads_string_end (read : ReadsString text s rest) : rest = stringEnd text := by
  induction read with
  | close => exact (string_end_quote _).symm
  | plain plain _ ih =>
      simp only [isPlain, Bool.and_eq_true, decide_eq_true_eq] at plain
      rw [string_end_plain plain.1.1 plain.1.2]
      exact ih
  | escape escaped _ ih =>
      rw [string_end_escaped escaped]
      exact ih

theorem no_elements : ¬ ReadsElements text [] rest := by
  intro read
  cases read

theorem no_members : ¬ ReadsMembers text [] rest := by
  intro read
  cases read

mutual

/-- What is left behind a value is determined. -/
theorem Reads.rest_unique {text rest other : List UInt8} {value : Value} :
    Reads text value rest → Reads text value other → rest = other
  | .null, read => by
      generalize whole : "null".toList.map ascii ++ rest = front at read
      cases read with
      | null => exact List.append_cancel_left whole
  | .true, read => by
      generalize whole : "true".toList.map ascii ++ rest = front at read
      cases read with
      | true => exact List.append_cancel_left whole
  | .false, read => by
      generalize whole : "false".toList.map ascii ++ rest = front at read
      cases read with
      | false => exact List.append_cancel_left whole
  | .number number, read => (reads_number_iff.mp read).2.symm
  | .string body, read =>
      (reads_string_end body).trans (reads_string_end (reads_string_iff.mp read)).symm
  | .emptyArray close, read => by
      rcases reads_array_iff.mp read with ⟨-, again⟩ | elements
      · exact (List.cons.inj (close.symm.trans again)).2
      · exact absurd elements no_elements
  | .array elements, read => by
      rcases reads_array_iff.mp read with ⟨rfl, -⟩ | again
      · exact absurd elements no_elements
      · exact elements.rest_unique again
  | .emptyObject close, read => by
      rcases reads_object_iff.mp read with ⟨-, again⟩ | members
      · exact (List.cons.inj (close.symm.trans again)).2
      · exact absurd members no_members
  | .object members, read => by
      rcases reads_object_iff.mp read with ⟨rfl, -⟩ | again
      · exact absurd members no_members
      · exact members.rest_unique again

theorem ReadsElements.rest_unique {text rest other : List UInt8} {elements : List Value} :
    ReadsElements text elements rest → ReadsElements text elements other → rest = other
  | .last read close, again => by
      obtain ⟨after, same, ⟨-, closed⟩ | ⟨_, _, none⟩⟩ := (elements_are_list _ _ _ _).mp again
      · rw [← read.rest_unique same] at closed
        exact (List.cons.inj (close.symm.trans closed)).2
      · exact absurd none no_elements
  | .more read next more, again => by
      obtain ⟨after, same, ⟨rfl, -⟩ | ⟨_, behind, later⟩⟩ := (elements_are_list _ _ _ _).mp again
      · exact absurd more no_elements
      · rw [← read.rest_unique same] at behind
        obtain ⟨-, rfl⟩ := List.cons.inj (next.symm.trans behind)
        exact more.rest_unique later

theorem ReadsMembers.rest_unique {text rest other : List UInt8}
    {members : List (List UInt8 × Value)} :
    ReadsMembers text members rest → ReadsMembers text members other → rest = other
  | .last name separator read close, again => by
      obtain ⟨after, ⟨_, _, _, front, name', separator', same⟩, ⟨-, closed⟩ | ⟨_, _, none⟩⟩ :=
        (members_are_list _ _ _ _).mp again
      · obtain ⟨-, rfl⟩ := List.cons.inj front
        obtain rfl := (reads_string_end name).trans (reads_string_end name').symm
        obtain ⟨-, rfl⟩ := List.cons.inj (separator.symm.trans separator')
        rw [← read.rest_unique same] at closed
        exact (List.cons.inj (close.symm.trans closed)).2
      · exact absurd none no_members
  | .more name separator read next more, again => by
      obtain ⟨after, ⟨_, _, _, front, name', separator', same⟩, ⟨rfl, -⟩ | ⟨_, behind, later⟩⟩ :=
        (members_are_list _ _ _ _).mp again
      · exact absurd more no_members
      · obtain ⟨-, rfl⟩ := List.cons.inj front
        obtain rfl := (reads_string_end name).trans (reads_string_end name').symm
        obtain ⟨-, rfl⟩ := List.cons.inj (separator.symm.trans separator')
        rw [← read.rest_unique same] at behind
        obtain ⟨-, rfl⟩ := List.cons.inj (next.symm.trans behind)
        exact more.rest_unique later

end

theorem ReadsMember.rest_unique {member : List UInt8 × Value}
    (read : ReadsMember text member rest) (again : ReadsMember text member other) :
    rest = other := by
  obtain ⟨body, behind, value, rfl, name, separator, inside⟩ := read
  obtain ⟨body', behind', value', front, name', separator', inside'⟩ := again
  obtain ⟨-, rfl⟩ := List.cons.inj front
  obtain rfl := (reads_string_end name).trans (reads_string_end name').symm
  obtain ⟨-, rfl⟩ := List.cons.inj (separator.symm.trans separator')
  exact inside.rest_unique inside'

end Determined

section Pieces

namespace Written

/-- A piece that is known to be read. -/
def known (text : List UInt8) (value : Value) (front : ∀ tail, skip (text ++ tail) = text ++ tail)
    (read : ∀ tail, Reads (text ++ tail) value tail) : Written where
  text := text
  value := value
  sound := True
  front := front
  reads tail rest := by
    constructor
    · intro again
      exact ⟨trivial, again.rest_unique (read tail)⟩
    · intro ends
      rw [ends.2]
      exact read tail

def bool (b : Bool) : Written :=
  known ((if b then "true" else "false").toList.map ascii) (.bool b)
    (fun tail => by cases b <;> exact skip_cons rfl)
    (fun tail => by
      cases b
      · exact .false
      · exact .true)

@[simp] theorem bool_sound (b : Bool) : (bool b).sound ↔ True := Iff.rfl

end Written

variable {blanks : List UInt8}

theorem spread_starts {byte : UInt8} (solid : isSpace byte = false) (text tail : List UInt8) :
    skip (spread blanks (byte :: text) ++ tail) =
      spread blanks (byte :: text) ++ tail := by
  have line : byte ≠ newline := by
    rintro rfl
    cases solid
  rw [spread_solid line, List.cons_append, skip_cons solid]

/-- A sound value with blanks behind its line ends. -/
def Written.moved (written : Written) (sound : written.sound) (blanks : List UInt8)
    (blank : ∀ byte ∈ blanks, isSpace byte = true) : Written :=
  known (spread blanks written.text) written.value
    (fun tail => by
      have front := written.front []
      rw [List.append_nil] at front
      have present := ((written.reads [] []).mpr ⟨sound, rfl⟩).present
      rw [List.append_nil] at present
      have same : skip (spread blanks written.text ++ tail) =
          spread blanks (skip written.text) ++ tail :=
        skip_spread blank (front.symm ▸ present)
      rwa [front] at same)
    (fun tail => by
      have moved := ((written.reads [] []).mpr ⟨sound, rfl⟩).moved blank tail
      rwa [List.append_nil] at moved)

/-- A sound member with blanks behind its line ends. -/
def Member.moved (member : Member) (sound : member.sound) (blanks : List UInt8)
    (blank : ∀ byte ∈ blanks, isSpace byte = true) : Member where
  text := spread blanks member.text
  value := member.value
  sound := True
  front tail := by
    obtain ⟨body, behind, value, front, -⟩ := (member.reads [] []).mpr ⟨sound, rfl⟩
    rw [List.append_nil] at front
    rw [front]
    exact spread_starts rfl body tail
  reads tail rest := by
    have moved := ((member.reads [] []).mpr ⟨sound, rfl⟩).moved blank tail
    rw [List.append_nil] at moved
    constructor
    · intro again
      exact ⟨trivial, again.rest_unique moved⟩
    · intro ends
      rw [ends.2]
      exact moved

/-- A sound piece with blanks behind it is a document. -/
theorem document_trailing (written : Written) (sound : written.sound)
    (blank : ∀ byte ∈ blanks, isSpace byte = true) :
    Document (written.text ++ blanks) written.value := by
  rw [Document, written.front]
  exact ⟨blanks, (written.reads blanks blanks).mpr ⟨sound, rfl⟩,
    List.dropWhile_eq_nil_iff.mpr blank⟩

end Pieces

section Spaced

/-- Pieces with blanks behind each and behind the commas between them. -/
def spacedRows (before after : List UInt8) : List Written → List UInt8
  | [] => []
  | item :: items => item.text ++ (before ++ items.flatMap fun item =>
      comma :: (after ++ (item.text ++ before)))

variable {before after trail : List UInt8} (blankBefore : ∀ byte ∈ before, isSpace byte = true)
  (blankAfter : ∀ byte ∈ after, isSpace byte = true)

include blankBefore blankAfter

theorem reads_spaced (first : Written) (items : List Written)
    (sound : ∀ item ∈ first :: items, item.sound) (tail : List UInt8) :
    ReadsElements (spacedRows before after (first :: items) ++ closeArray :: tail)
      ((first :: items).map Printed.value) tail := by
  induction items generalizing first with
  | nil =>
      obtain ⟨held, -⟩ := List.forall_mem_cons.mp sound
      have read := (first.reads (before ++ closeArray :: tail) _).mpr ⟨held, rfl⟩
      have closes : skip (before ++ closeArray :: tail) = closeArray :: tail :=
        (skip_blank blankBefore).trans (skip_cons rfl)
      simp only [spacedRows, List.flatMap_nil, List.append_nil, List.append_assoc]
      exact .last read closes
  | cons next items ih =>
      obtain ⟨held, others⟩ := List.forall_mem_cons.mp sound
      have later := ih next others
      have front := next.front (before ++ (items.flatMap (fun item =>
        comma :: (after ++ (item.text ++ before))) ++ closeArray :: tail))
      simp only [spacedRows, List.flatMap_cons, List.append_assoc, List.cons_append] at later ⊢
      rw [← front] at later
      have read := (first.reads (before ++ comma :: (after ++ (next.text ++ (before ++
        (items.flatMap (fun item => comma :: (after ++ (item.text ++ before))) ++
          closeArray :: tail))))) _).mpr ⟨held, rfl⟩
      refine .more read ((skip_blank blankBefore).trans (skip_cons rfl)) ?_
      rw [skip_blank blankAfter]
      exact later

/-- Brackets around such pieces, with blanks behind them, are an array. -/
theorem document_spaced (items : List Written) (sound : ∀ item ∈ items, item.sound)
    (blankTrail : ∀ byte ∈ trail, isSpace byte = true) :
    Document (openArray :: (after ++ (spacedRows before after items ++ closeArray :: trail)))
      (.array (items.map Printed.value)) := by
  have ends : skip trail = [] := List.dropWhile_eq_nil_iff.mpr blankTrail
  refine ⟨trail, ?_, ends⟩
  rw [skip_cons rfl]
  cases items with
  | nil => exact .emptyArray ((skip_blank blankAfter).trans (skip_cons rfl))
  | cons first items =>
      have read := reads_spaced blankBefore blankAfter first items sound trail
      apply Reads.array
      rw [skip_blank blankAfter]
      simp only [spacedRows, List.append_assoc] at read ⊢
      rwa [first.front]

end Spaced

end Json
