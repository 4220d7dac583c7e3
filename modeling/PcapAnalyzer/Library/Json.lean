import Mathlib.Data.List.Basic
import Mathlib.Data.List.TakeWhile
import Mathlib.Tactic.SplitIfs

/-!
# JSON over bytes

The grammar of RFC 8259 as relations between a text, the value at its front and what is left
behind that value. A number keeps its spelling, an object the order of its members.
-/

namespace Json

set_option autoImplicit false

def ascii (c : Char) : UInt8 := UInt8.ofNat c.toNat

def quote : UInt8 := 0x22
def backslash : UInt8 := 0x5C
def comma : UInt8 := 0x2C
def colon : UInt8 := 0x3A
def openArray : UInt8 := 0x5B
def closeArray : UInt8 := 0x5D
def openObject : UInt8 := 0x7B
def closeObject : UInt8 := 0x7D
def newline : UInt8 := 0x0A

inductive Value where
  | null
  | bool (b : Bool)
  | number (spelling : List UInt8)
  | string (s : List UInt8)
  | array (elements : List Value)
  | object (members : List (List UInt8 × Value))

section Grammar

def isSpace (byte : UInt8) : Bool :=
  byte = 0x20 || byte = 0x09 || byte = newline || byte = 0x0D

def skip (text : List UInt8) : List UInt8 := text.dropWhile isSpace

def isDigit (byte : UInt8) : Bool := ascii '0' ≤ byte && byte ≤ ascii '9'

structure Digits (s : List UInt8) : Prop where
  present : s ≠ []
  digits : ∀ byte ∈ s, isDigit byte = true

/-- No zero stands in front of another digit. -/
structure Integer (s : List UInt8) : Prop extends Digits s where
  leading : s.head? = ascii '0' → s = [ascii '0']

inductive Fraction : List UInt8 → Prop
  | none : Fraction []
  | point {digits : List UInt8} : Digits digits → Fraction (ascii '.' :: digits)

inductive Exponent : List UInt8 → Prop
  | none : Exponent []
  | power {e : UInt8} {sign digits : List UInt8} : e = ascii 'e' ∨ e = ascii 'E' →
      sign = [] ∨ sign = [ascii '+'] ∨ sign = [ascii '-'] → Digits digits →
      Exponent (e :: (sign ++ digits))

inductive Number : List UInt8 → Prop
  | intro {minus integer fraction exponent : List UInt8} : minus = [] ∨ minus = [ascii '-'] →
      Integer integer → Fraction fraction → Exponent exponent →
      Number (minus ++ integer ++ fraction ++ exponent)

/-- What may stand in a string as itself. -/
def isPlain (byte : UInt8) : Bool := byte ≠ quote && byte ≠ backslash && 0x20 ≤ byte

def shortEscape (byte : UInt8) : Option UInt8 :=
  if byte = quote ∨ byte = backslash ∨ byte = ascii '/' then some byte
  else if byte = ascii 'b' then some 0x08
  else if byte = ascii 'f' then some 0x0C
  else if byte = ascii 'n' then some 0x0A
  else if byte = ascii 'r' then some 0x0D
  else if byte = ascii 't' then some 0x09
  else none

def hexDigit (byte : UInt8) : Option Nat :=
  if isDigit byte then some (byte - ascii '0').toNat
  else if ascii 'a' ≤ byte ∧ byte ≤ ascii 'f' then some ((byte - ascii 'a').toNat + 10)
  else if ascii 'A' ≤ byte ∧ byte ≤ ascii 'F' then some ((byte - ascii 'A').toNat + 10)
  else none

/-- The value of four hexadecimal digits. -/
def codeUnit (digits : List UInt8) : Option Nat :=
  if digits.length ≠ 4 then none else
  digits.foldlM (fun value byte => (hexDigit byte).map (value * 16 + ·)) 0

/-- A half of a pair on its own is in the grammar but stands for no character. -/
def utf8 (codePoint : Nat) : List UInt8 :=
  String.utf8EncodeChar
    (Char.ofNat (if codePoint.isValidChar then codePoint else 0xFFFD))

/-- What may follow a backslash, and the bytes it stands for. -/
inductive Escape : List UInt8 → List UInt8 → Prop
  | short {byte value : UInt8} : shortEscape byte = some value → Escape [byte] [value]
  | unit {digits : List UInt8} {value : Nat} : codeUnit digits = some value →
      Escape (ascii 'u' :: digits) (utf8 value)
  | pair {first second : List UInt8} {high low : Nat} : codeUnit first = some high →
      codeUnit second = some low → 0xD800 ≤ high ∧ high < 0xDC00 →
      0xDC00 ≤ low ∧ low < 0xE000 →
      Escape (ascii 'u' :: (first ++ backslash :: ascii 'u' :: second))
        (utf8 (0x10000 + (high - 0xD800) * 0x400 + (low - 0xDC00)))

/-- A string behind its opening quote. -/
inductive ReadsString : List UInt8 → List UInt8 → List UInt8 → Prop
  | close {rest : List UInt8} : ReadsString (quote :: rest) [] rest
  | plain {byte : UInt8} {text s rest : List UInt8} : isPlain byte = true →
      ReadsString text s rest → ReadsString (byte :: text) (byte :: s) rest
  | escape {escape bytes text s rest : List UInt8} : Escape escape bytes →
      ReadsString text s rest →
      ReadsString (backslash :: (escape ++ text)) (bytes ++ s) rest

mutual

/-- A value at the very front of a text. -/
inductive Reads : List UInt8 → Value → List UInt8 → Prop
  | null {rest : List UInt8} : Reads ("null".toList.map ascii ++ rest) .null rest
  | true {rest : List UInt8} : Reads ("true".toList.map ascii ++ rest) (.bool true) rest
  | false {rest : List UInt8} : Reads ("false".toList.map ascii ++ rest) (.bool false) rest
  | number {spelling rest : List UInt8} : Number spelling →
      Reads (spelling ++ rest) (.number spelling) rest
  | string {text s rest : List UInt8} : ReadsString text s rest →
      Reads (quote :: text) (.string s) rest
  | emptyArray {text rest : List UInt8} : skip text = closeArray :: rest →
      Reads (openArray :: text) (.array []) rest
  | array {text rest : List UInt8} {elements : List Value} :
      ReadsElements (skip text) elements rest → Reads (openArray :: text) (.array elements) rest
  | emptyObject {text rest : List UInt8} : skip text = closeObject :: rest →
      Reads (openObject :: text) (.object []) rest
  | object {text rest : List UInt8} {members : List (List UInt8 × Value)} :
      ReadsMembers (skip text) members rest → Reads (openObject :: text) (.object members) rest

/-- The elements of an array up to and with its bracket. -/
inductive ReadsElements : List UInt8 → List Value → List UInt8 → Prop
  | last {text after rest : List UInt8} {element : Value} : Reads text element after →
      skip after = closeArray :: rest → ReadsElements text [element] rest
  | more {text after next rest : List UInt8} {element : Value} {elements : List Value} :
      Reads text element after → skip after = comma :: next →
      ReadsElements (skip next) elements rest → ReadsElements text (element :: elements) rest

/-- The members of an object up to and with its brace. -/
inductive ReadsMembers : List UInt8 → List (List UInt8 × Value) → List UInt8 → Prop
  | last {text behind value after rest name : List UInt8} {member : Value} :
      ReadsString text name behind → skip behind = colon :: value →
      Reads (skip value) member after → skip after = closeObject :: rest →
      ReadsMembers (quote :: text) [(name, member)] rest
  | more {text behind value after next rest name : List UInt8} {member : Value}
      {members : List (List UInt8 × Value)} :
      ReadsString text name behind → skip behind = colon :: value →
      Reads (skip value) member after → skip after = comma :: next →
      ReadsMembers (skip next) members rest →
      ReadsMembers (quote :: text) ((name, member) :: members) rest

end

/-- A member of an object. -/
def ReadsMember (text : List UInt8) (member : List UInt8 × Value) (rest : List UInt8) : Prop :=
  ∃ body behind value, text = quote :: body ∧ ReadsString body member.1 behind ∧
    skip behind = colon :: value ∧ Reads (skip value) member.2 rest

/-- A whole text that is one value. -/
def Document (text : List UInt8) (value : Value) : Prop :=
  ∃ rest, Reads (skip text) value rest ∧ skip rest = []

end Grammar

section Reading

variable {text tail rest : List UInt8}

theorem skip_blank {blanks : List UInt8} (blank : ∀ byte ∈ blanks, isSpace byte = true) :
    skip (blanks ++ text) = skip text :=
  List.dropWhile_append_of_pos blank

theorem skip_cons {byte : UInt8} (solid : isSpace byte = false) :
    skip (byte :: text) = byte :: text := by
  refine List.dropWhile_cons_of_neg ?_
  rw [solid]
  exact Bool.false_ne_true

theorem reads_string_iff {s : List UInt8} :
    Reads (quote :: text) (.string s) rest ↔ ReadsString text s rest := by
  constructor
  · intro read
    generalize whole : quote :: text = front at read
    cases read with
    | string body =>
        cases whole
        exact body
  · exact .string

theorem reads_number_iff {spelling : List UInt8} :
    Reads (spelling ++ tail) (.number spelling) rest ↔ Number spelling ∧ rest = tail := by
  constructor
  · intro read
    generalize whole : spelling ++ tail = text at read
    cases read with
    | number number => exact ⟨number, (List.append_cancel_left whole).symm⟩
  · rintro ⟨number, rfl⟩
    exact .number number

theorem reads_array_iff {elements : List Value} :
    Reads (openArray :: text) (.array elements) rest ↔
      elements = [] ∧ skip text = closeArray :: rest ∨
        ReadsElements (skip text) elements rest := by
  constructor
  · intro read
    generalize whole : openArray :: text = front at read
    cases read with
    | emptyArray close =>
        cases whole
        exact .inl ⟨rfl, close⟩
    | array read =>
        cases whole
        exact .inr read
  · rintro (⟨rfl, close⟩ | read)
    · exact .emptyArray close
    · exact .array read

theorem reads_object_iff {members : List (List UInt8 × Value)} :
    Reads (openObject :: text) (.object members) rest ↔
      members = [] ∧ skip text = closeObject :: rest ∨
        ReadsMembers (skip text) members rest := by
  constructor
  · intro read
    generalize whole : openObject :: text = front at read
    cases read with
    | emptyObject close =>
        cases whole
        exact .inl ⟨rfl, close⟩
    | object read =>
        cases whole
        exact .inr read
  · rintro (⟨rfl, close⟩ | read)
    · exact .emptyObject close
    · exact .object read

/-- What a comma or a closing byte behind each item makes of a list. -/
def IsList {Kind : Type} (item : List UInt8 → Kind → List UInt8 → Prop) (close : UInt8)
    (list : List UInt8 → List Kind → List UInt8 → Prop) : Prop :=
  ∀ text kind kinds rest, list text (kind :: kinds) rest ↔
    ∃ after, item text kind after ∧ (kinds = [] ∧ skip after = close :: rest ∨
      ∃ next, skip after = comma :: next ∧ list (skip next) kinds rest)

theorem elements_are_list : IsList Reads closeArray ReadsElements := by
  intro text element elements rest
  constructor
  · intro read
    cases read with
    | last read close => exact ⟨_, read, .inl ⟨rfl, close⟩⟩
    | more read next more => exact ⟨_, read, .inr ⟨_, next, more⟩⟩
  · rintro ⟨after, read, ⟨rfl, close⟩ | ⟨next, behind, more⟩⟩
    · exact .last read close
    · exact .more read behind more

theorem members_are_list : IsList ReadsMember closeObject ReadsMembers := by
  intro text member members rest
  constructor
  · intro read
    cases read with
    | last name value read close =>
        exact ⟨_, ⟨_, _, _, rfl, name, value, read⟩, .inl ⟨rfl, close⟩⟩
    | more name value read next more =>
        exact ⟨_, ⟨_, _, _, rfl, name, value, read⟩, .inr ⟨_, next, more⟩⟩
  · rintro ⟨after, ⟨body, behind, value, rfl, name, separated, read⟩,
      ⟨rfl, close⟩ | ⟨next, behind, more⟩⟩
    · exact .last name separated read close
    · exact .more name separated read behind more

end Reading

section Strings

variable {s tail rest : List UInt8}

/-- A string that stands for itself between quotes. -/
def Clean (s : List UInt8) : Prop := ∀ byte ∈ s, isPlain byte = true

instance (s : List UInt8) : Decidable (Clean s) :=
  decidable_of_iff (s.all isPlain = true) List.all_eq_true

/-- No control byte, white space neither. -/
def Visible (s : List UInt8) : Prop := ∀ byte ∈ s, 0x20 ≤ byte

instance (s : List UInt8) : Decidable (Visible s) :=
  decidable_of_iff (s.all (fun byte => decide (0x20 ≤ byte)) = true) (by simp [Visible])

theorem short_escape_visible {byte value : UInt8} (short : shortEscape byte = some value) :
    0x20 ≤ byte := by
  unfold shortEscape at short
  split_ifs at short with self b f n r t
  · rcases self with rfl | rfl | rfl <;> decide
  all_goals
    subst byte
    decide

theorem digit_ge {byte : UInt8} (digit : isDigit byte = true) : ascii '0' ≤ byte := by
  simp only [isDigit, Bool.and_eq_true, decide_eq_true_eq] at digit
  exact digit.1

theorem hex_digit_ge {byte : UInt8} {value : Nat} (digit : hexDigit byte = some value) :
    ascii '0' ≤ byte := by
  unfold hexDigit at digit
  split_ifs at digit with decimal lower upper
  · exact digit_ge decimal
  · exact UInt8.le_trans (by decide) lower.1
  · exact UInt8.le_trans (by decide) upper.1

theorem hex_digits_ge {digits : List UInt8} {start value : Nat}
    (read : digits.foldlM (fun value byte => (hexDigit byte).map (value * 16 + ·)) start =
      some value) : ∀ byte ∈ digits, ascii '0' ≤ byte := by
  induction digits generalizing start with
  | nil => exact fun _ member => absurd member List.not_mem_nil
  | cons byte digits ih =>
      rw [List.foldlM_cons, Option.bind_eq_bind, Option.bind_eq_some_iff] at read
      obtain ⟨next, digit, others⟩ := read
      obtain ⟨value, digit, -⟩ := Option.map_eq_some_iff.mp digit
      exact List.forall_mem_cons.mpr ⟨hex_digit_ge digit, ih others⟩

theorem code_unit_spec {digits : List UInt8} {value : Nat} (read : codeUnit digits = some value) :
    digits.length = 4 ∧ ∀ byte ∈ digits, ascii '0' ≤ byte := by
  unfold codeUnit at read
  split_ifs at read with sized
  exact ⟨not_not.mp sized, hex_digits_ge read⟩

theorem utf8_length_le (codePoint : Nat) : (utf8 codePoint).length ≤ 4 := by
  rw [utf8, String.length_utf8EncodeChar]
  exact Char.utf8Size_le_four _

/-- An escape without its backslash. -/
structure Escape.Spec (escape bytes : List UInt8) : Prop where
  visible : Visible escape
  short : bytes.length ≤ escape.length
  quoted : quote ∈ escape → escape = [quote] ∧ bytes = [quote]

theorem Escape.Spec.of_letters {escape bytes : List UInt8} (short : bytes.length ≤ escape.length)
    (letters : ∀ byte ∈ escape, ascii '0' ≤ byte) : Escape.Spec escape bytes where
  visible byte member := UInt8.le_trans (by decide) (letters byte member)
  short := short
  quoted member := absurd (letters quote member) (by decide)

theorem escape_spec {escape bytes : List UInt8} (escaped : Escape escape bytes) :
    Escape.Spec escape bytes := by
  cases escaped with
  | @short byte value short =>
      refine ⟨List.forall_mem_singleton.mpr (short_escape_visible short), Nat.le_refl _, ?_⟩
      intro member
      obtain rfl := List.mem_singleton.mp member
      cases short
      exact ⟨rfl, rfl⟩
  | @unit digits value unit =>
      obtain ⟨sized, letters⟩ := code_unit_spec unit
      have bound := utf8_length_le value
      refine .of_letters ?_ (List.forall_mem_cons.mpr ⟨by decide, letters⟩)
      rw [List.length_cons, sized]
      omega
  | @pair first second high low highUnit lowUnit =>
      obtain ⟨sized, letters⟩ := code_unit_spec highUnit
      obtain ⟨-, others⟩ := code_unit_spec lowUnit
      have bound := utf8_length_le (0x10000 + (high - 0xD800) * 0x400 + (low - 0xDC00))
      refine .of_letters ?_ (List.forall_mem_cons.mpr ⟨by decide, List.forall_mem_append.mpr
        ⟨letters, List.forall_mem_cons.mpr ⟨by decide,
          List.forall_mem_cons.mpr ⟨by decide, others⟩⟩⟩⟩)
      rw [List.length_cons, List.length_append, sized]
      omega

/-- How a string is spelt. It is as long as its spelling only where nothing is escaped, and a
quote in the spelling stands for one that comes earlier in the string. -/
structure Spelt (s raw : List UInt8) : Prop where
  visible : Visible raw
  short : s.length ≤ raw.length
  clean : raw.length = s.length → raw = s ∧ Clean s
  quoted : quote ∈ raw → s.idxOf quote < raw.idxOf quote

theorem Spelt.nil : Spelt [] [] where
  visible _ member := absurd member List.not_mem_nil
  short := Nat.le_refl _
  clean _ := ⟨rfl, fun _ member => absurd member List.not_mem_nil⟩
  quoted member := absurd member List.not_mem_nil

theorem Spelt.plain {byte : UInt8} {raw : List UInt8} (plain : isPlain byte = true)
    (spelt : Spelt s raw) : Spelt (byte :: s) (byte :: raw) := by
  have parts := plain
  simp only [isPlain, Bool.and_eq_true, decide_eq_true_eq] at parts
  refine ⟨List.forall_mem_cons.mpr ⟨parts.2, spelt.visible⟩, Nat.succ_le_succ spelt.short,
    ?_, ?_⟩
  · intro same
    obtain ⟨rfl, clean⟩ := spelt.clean (Nat.succ.inj same)
    exact ⟨rfl, List.forall_mem_cons.mpr ⟨plain, clean⟩⟩
  · intro member
    have later : quote ∈ raw := (List.mem_cons.mp member).resolve_left (Ne.symm parts.1.1)
    rw [List.idxOf_cons_ne _ parts.1.1, List.idxOf_cons_ne _ parts.1.1]
    exact Nat.succ_lt_succ (spelt.quoted later)

theorem Spelt.escape {escape bytes raw : List UInt8} (escaped : Escape.Spec escape bytes)
    (spelt : Spelt s raw) : Spelt (bytes ++ s) (backslash :: (escape ++ raw)) := by
  have short := escaped.short
  have shorter := spelt.short
  refine ⟨List.forall_mem_cons.mpr ⟨by decide,
    List.forall_mem_append.mpr ⟨escaped.visible, spelt.visible⟩⟩, ?_, ?_, ?_⟩
  · simp only [List.length_cons, List.length_append]
    omega
  · intro same
    simp only [List.length_cons, List.length_append] at same
    omega
  · intro member
    rw [List.idxOf_cons_ne _ (show backslash ≠ quote by decide), List.idxOf_append,
      List.idxOf_append]
    by_cases inside : quote ∈ escape
    · obtain ⟨rfl, rfl⟩ := escaped.quoted inside
      exact Nat.succ_pos _
    · have later : quote ∈ raw := by
        simpa [inside, show quote ≠ backslash by decide] using member
      have earlier := spelt.quoted later
      rw [if_neg inside]
      split_ifs with early
      · have within := List.idxOf_lt_length_of_mem early
        omega
      · omega

theorem reads_string_spelt {text : List UInt8} (read : ReadsString text s rest) :
    ∃ raw, text = raw ++ quote :: rest ∧ Spelt s raw := by
  induction read with
  | close => exact ⟨[], rfl, .nil⟩
  | plain plain _ ih =>
      obtain ⟨raw, rfl, spelt⟩ := ih
      exact ⟨_, rfl, .plain plain spelt⟩
  | escape escaped _ ih =>
      obtain ⟨raw, rfl, spelt⟩ := ih
      exact ⟨_, by simp, .escape (escape_spec escaped) spelt⟩

theorem Spelt.no_quote_behind {raw back : List UInt8} (spelt : Spelt s raw) :
    raw ≠ s ++ quote :: back := by
  rintro rfl
  have earlier := spelt.quoted (by simp)
  rw [List.idxOf_append] at earlier
  split_ifs at earlier with inside
  · exact Nat.lt_irrefl _ earlier
  · rw [List.idxOf_of_notMem inside, List.idxOf_cons_self] at earlier
    omega

/-- Bytes between quotes read as themselves exactly when they are clean. -/
theorem reads_string_raw :
    ReadsString (s ++ quote :: tail) s rest ↔ Clean s ∧ rest = tail := by
  constructor
  · intro read
    obtain ⟨raw, whole, spelt⟩ := reads_string_spelt read
    obtain ⟨more, rfl⟩ : s <+: raw := by
      refine List.prefix_of_prefix_length_le ?_ (List.prefix_append raw (quote :: rest)) spelt.short
      exact whole ▸ List.prefix_append s (quote :: tail)
    rw [List.append_assoc, List.append_cancel_left_eq] at whole
    cases more with
    | nil => exact ⟨(spelt.clean (by rw [List.append_nil])).2, (List.cons.inj whole).2.symm⟩
    | cons byte more =>
        obtain ⟨rfl, -⟩ := List.cons.inj whole
        exact absurd rfl spelt.no_quote_behind
  · rintro ⟨clean, rfl⟩
    induction s with
    | nil => exact .close
    | cons byte s ih =>
        obtain ⟨plain, others⟩ := List.forall_mem_cons.mp clean
        exact .plain plain (ih others)

end Strings

section ControlBytes

variable {text after rest : List UInt8} {byte : UInt8}

/-- All but control bytes; tabs and the ends of lines are blanks. -/
def Shown (byte : UInt8) : Prop := 0x20 ≤ byte ∨ isSpace byte = true

/-- Reading as far as `rest` has passed no control byte. -/
def Leaves (text rest : List UInt8) : Prop := ∀ byte ∈ text, Shown byte ∨ byte ∈ rest

namespace Leaves

theorem refl : Leaves text text := fun _ member => .inr member

theorem trans (first : Leaves text after) (second : Leaves after rest) : Leaves text rest :=
  fun byte member => (first byte member).elim .inl (second byte)

theorem cons (visible : 0x20 ≤ byte) (leaves : Leaves text rest) : Leaves (byte :: text) rest :=
  List.forall_mem_cons.mpr ⟨.inl (.inl visible), leaves⟩

theorem append {front : List UInt8} (visible : Visible front) :
    Leaves (front ++ rest) rest :=
  List.forall_mem_append.mpr ⟨fun byte member => .inl (.inl (visible byte member)), refl⟩

theorem skip (text : List UInt8) : Leaves text (skip text) := by
  intro byte member
  rw [← List.takeWhile_append_dropWhile (p := isSpace) (l := text), List.mem_append] at member
  exact member.imp (fun blank => .inr (List.mem_takeWhile_imp blank)) id

/-- White space and one more byte are passed. -/
theorem skip_to (visible : 0x20 ≤ byte) (reached : Json.skip text = byte :: rest) :
    Leaves text rest :=
  (skip text).trans (reached ▸ cons visible refl)

theorem string {s : List UInt8} (read : ReadsString text s rest) : Leaves text rest := by
  obtain ⟨raw, rfl, spelt⟩ := reads_string_spelt read
  exact (append spelt.visible).trans (cons (by decide) refl)

end Leaves

theorem digits_visible {digits : List UInt8} (held : Digits digits) : Visible digits :=
  fun byte member => UInt8.le_trans (by decide) (digit_ge (held.digits byte member))

theorem number_visible {spelling : List UInt8} (number : Number spelling) :
    Visible spelling := by
  cases number with
  | @intro minus integer fraction exponent sign whole point power =>
      have front : Visible minus := by
        rcases sign with rfl | rfl <;> decide
      have middle : Visible fraction := by
        cases point with
        | none => exact fun _ member => absurd member List.not_mem_nil
        | point digits => exact List.forall_mem_cons.mpr ⟨by decide, digits_visible digits⟩
      have back : Visible exponent := by
        cases power with
        | none => exact fun _ member => absurd member List.not_mem_nil
        | @power e mark digits letter sign held =>
            have signed : Visible mark := by
              rcases sign with rfl | rfl | rfl <;> decide
            refine List.forall_mem_cons.mpr ⟨?_, List.forall_mem_append.mpr
              ⟨signed, digits_visible held⟩⟩
            rcases letter with rfl | rfl <;> decide
      simp only [Visible, List.forall_mem_append]
      exact ⟨⟨⟨front, digits_visible whole.toDigits⟩, middle⟩, back⟩

mutual

theorem Reads.leaves {text rest : List UInt8} {value : Value} :
    Reads text value rest → Leaves text rest
  | .null => Leaves.append (by decide)
  | .true => Leaves.append (by decide)
  | .false => Leaves.append (by decide)
  | .number number => Leaves.append (number_visible number)
  | .string read => Leaves.cons (by decide) (Leaves.string read)
  | .emptyArray close => Leaves.cons (by decide) (Leaves.skip_to (by decide) close)
  | .array read => Leaves.cons (by decide) ((Leaves.skip _).trans read.leaves)
  | .emptyObject close => Leaves.cons (by decide) (Leaves.skip_to (by decide) close)
  | .object read => Leaves.cons (by decide) ((Leaves.skip _).trans read.leaves)

theorem ReadsElements.leaves {text rest : List UInt8} {elements : List Value} :
    ReadsElements text elements rest → Leaves text rest
  | .last read close => read.leaves.trans (Leaves.skip_to (by decide) close)
  | .more read next more =>
      (read.leaves.trans (Leaves.skip_to (by decide) next)).trans
        ((Leaves.skip _).trans more.leaves)

theorem ReadsMembers.leaves {text rest : List UInt8} {members : List (List UInt8 × Value)} :
    ReadsMembers text members rest → Leaves text rest
  | .last name separator read close =>
      ((Leaves.cons (by decide) ((Leaves.string name).trans
        (Leaves.skip_to (by decide) separator))).trans
          ((Leaves.skip _).trans read.leaves)).trans (Leaves.skip_to (by decide) close)
  | .more name separator read next more =>
      (((Leaves.cons (by decide) ((Leaves.string name).trans
        (Leaves.skip_to (by decide) separator))).trans
          ((Leaves.skip _).trans read.leaves)).trans (Leaves.skip_to (by decide) next)).trans
            ((Leaves.skip _).trans more.leaves)

end

/-- A text with a control byte in it is no JSON. -/
theorem document_shown {value : Value} (document : Document text value) :
    ∀ byte ∈ text, Shown byte := by
  obtain ⟨rest, read, ends⟩ := document
  have leaves := ((Leaves.skip text).trans read.leaves).trans (Leaves.skip rest)
  rw [ends] at leaves
  exact fun byte member => (leaves byte member).resolve_right List.not_mem_nil

end ControlBytes

end Json
