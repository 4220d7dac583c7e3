import PcapAnalyzer.Protocols.HttpEncoding

/-!
# How a message is framed

The framing fields of a header against RFC 9112, section 6.3: a header with both kinds of
fields is rejected, a body is chunked if that is its last transfer coding, and a length has to
be one decimal numeral. The codings are a list over all the fields, split at their commas;
`parseFraming` takes each field for one coding.
-/

namespace PcapAnalyzer.Http

open MeasuredLoop

set_option autoImplicit false

/-- The transfer codings of all the fields as one list. -/
def codings (fields : List Field) : List (List UInt8) :=
  (fields.filter isTransferEncoding).flatMap fun field =>
    (field.value.splitOn (code ',')).map trimOws

def HasEncoding (fields : List Field) : Prop := ∃ field ∈ fields, isTransferEncoding field = true

def HasLength (fields : List Field) : Prop := ∃ field ∈ fields, isContentLength field = true

/-- All the lengths that are given are this numeral. -/
structure LengthIs (fields : List Field) (digits : List UInt8) : Prop where
  same : ∀ field ∈ fields, isContentLength field = true → field.value = digits
  decimal : digits ≠ [] ∧ ∀ byte ∈ digits, isdigit byte = true
  small : decimalValue digits < 2 ^ 64

/-- What section 6.3 makes of a header with these fields. -/
structure Resolved (fields : List Field) (outcome : Except ParseError (Header × List UInt8)) :
    Prop where
  both : HasEncoding fields → HasLength fields → outcome = .error .malformedHeader
  encoded : HasEncoding fields → ¬ HasLength fields →
    ((∃ header rest, outcome = .ok (header, rest) ∧ header.chunked = true) ↔
      ∃ coding ∈ (codings fields).getLast?, isEquals coding chunked = true)
  length : ¬ HasEncoding fields → HasLength fields →
    ((∃ header rest, outcome = .ok (header, rest)) ↔ ∃ digits, LengthIs fields digits) ∧
      ∀ digits header rest, LengthIs fields digits → outcome = .ok (header, rest) →
        header.hasContentLength = true ∧ header.contentLength = decimalValue digits
  plain : ¬ HasEncoding fields → ¬ HasLength fields → ∃ header rest,
    outcome = .ok (header, rest) ∧ header.chunked = false ∧ header.hasContentLength = false
  exclusive : ∀ header rest, outcome = .ok (header, rest) →
    ¬ (header.chunked = true ∧ header.hasContentLength = true)

/-- The last coding stands behind a comma of its field. -/
def ChunkedInList (fields : List Field) : Prop :=
  ¬ HasLength fields ∧ ∃ field ∈ (fields.filter isTransferEncoding).getLast?,
    code ',' ∈ field.value ∧
      ∃ coding ∈ (field.value.splitOn (code ',')).getLast?, isEquals (trimOws coding) chunked = true

section Fields

/-- A field is of one kind at most. -/
theorem not_both {field : Field} (encoding : isTransferEncoding field = true) :
    isContentLength field = false := by
  rw [isTransferEncoding, isEquals, decide_eq_true_eq] at encoding
  rw [isContentLength, isEquals, encoding]
  decide

theorem framing_field_error {before : Framing} {field : Field} {err : ParseError}
    (failed : framingField before field = .error err) : err = .malformedHeader := by
  unfold framingField at failed
  split_ifs at failed
  split at failed
  · cases failed
  · split_ifs at failed
    cases failed
    rfl

theorem framing_error {fields : List Field} {before : Framing} {err : ParseError}
    (failed : fields.foldlM framingField before = .error err) : err = .malformedHeader := by
  induction fields generalizing before with
  | nil => cases failed
  | cons field fields ih =>
      rw [List.foldlM_cons] at failed
      cases step : framingField before field with
      | error err' =>
          rw [step] at failed
          cases failed
          exact framing_field_error step
      | ok after =>
          rw [step] at failed
          exact ih failed

/-- What one field adds. -/
theorem framing_field_ok {before after : Framing} {field : Field}
    (added : framingField before field = .ok after) :
    (isTransferEncoding field = true ∧
      after = { before with encodings := before.encodings ++ [trimOws field.value] }) ∨
    (isTransferEncoding field = false ∧ isContentLength field = true ∧
      (before.contentLength = none ∨ before.contentLength = some field.value) ∧
      after = { before with contentLength := some field.value }) ∨
    (isTransferEncoding field = false ∧ isContentLength field = false ∧ after = before) := by
  unfold framingField at added
  split_ifs at added with encoding length
  · cases added
    exact .inl ⟨encoding, rfl⟩
  · rw [Bool.not_eq_true] at encoding
    split at added
    · next none =>
        cases added
        exact .inr (.inl ⟨encoding, length, .inl none, rfl⟩)
    · next value some =>
        split_ifs at added with same
        cases added
        rw [not_not] at same
        exact .inr (.inl ⟨encoding, length, .inr (by rw [some, same]), by rw [same, ← some]⟩)
  · rw [Bool.not_eq_true] at encoding length
    cases added
    exact .inr (.inr ⟨encoding, length, rfl⟩)

/-- What the fields leave: the codings in order, and the one length. -/
structure Gathered (fields : List Field) (before after : Framing) : Prop where
  encodings : after.encodings = before.encodings ++
    (fields.filter isTransferEncoding).map fun field => trimOws field.value
  given : after.contentLength =
    before.contentLength.or ((fields.find? isContentLength).map Field.value)
  same : ∀ field ∈ fields, isContentLength field = true → after.contentLength = some field.value

theorem framing_ok {fields : List Field} {before after : Framing}
    (added : fields.foldlM framingField before = .ok after) : Gathered fields before after := by
  induction fields generalizing before with
  | nil =>
      cases added
      exact ⟨by simp, by simp, by simp⟩
  | cons field fields ih =>
      rw [List.foldlM_cons] at added
      obtain ⟨middle, first, later⟩ := bind_ok added
      obtain ⟨encodings, given, same⟩ := ih later
      rcases framing_field_ok first with ⟨encoding, rfl⟩ | ⟨noEncoding, length, seen, rfl⟩ |
        ⟨noEncoding, noLength, rfl⟩
      · have noLength := not_both encoding
        refine ⟨?_, ?_, ?_⟩
        · rw [encodings, List.filter_cons_of_pos encoding, List.map_cons, List.append_assoc]
          rfl
        · rw [given, List.find?_cons_of_neg (by simp [noLength])]
        · intro other member isLength
          rcases List.mem_cons.mp member with rfl | member
          · rw [noLength] at isLength
            cases isLength
          · exact same other member isLength
      · have kept : after.contentLength = some field.value := by
          rw [given, Option.some_or]
        refine ⟨?_, ?_, ?_⟩
        · rw [encodings, List.filter_cons_of_neg (by simp [noEncoding])]
        · rw [kept, List.find?_cons_of_pos length]
          rcases seen with none | some
          · rw [none, Option.none_or, Option.map_some]
          · rw [some, Option.some_or]
        · intro other member isLength
          rcases List.mem_cons.mp member with rfl | member
          · exact kept
          · exact same other member isLength
      · refine ⟨?_, ?_, ?_⟩
        · rw [encodings, List.filter_cons_of_neg (by simp [noEncoding])]
        · rw [given, List.find?_cons_of_neg (by simp [noLength])]
        · intro other member isLength
          rcases List.mem_cons.mp member with rfl | member
          · rw [noLength] at isLength
            cases isLength
          · exact same other member isLength

end Fields

section Decimal

theorem decimal_digit_ok {value result : Nat} {c : UInt8} (read : decimalDigit value c = .ok result) :
    isdigit c = true ∧ result = value * 10 + (c - code '0').toNat ∧ result ≤ uint64Max := by
  unfold decimalDigit at read
  by_cases other : (!isdigit c) = true
  · rw [if_pos other] at read
    cases read
  by_cases large : value > (uint64Max - (c - code '0').toNat) / 10
  · rw [if_neg other, if_pos large] at read
    cases read
  rw [if_neg other, if_neg large] at read
  cases read
  have digit : isdigit c = true := by simpa using other
  have bound := digit_value digit
  refine ⟨digit, rfl, ?_⟩
  simp only [uint64Max] at large ⊢
  omega

theorem decimal_digits_ok {digits : List UInt8} {value result : Nat}
    (small : value ≤ uint64Max) (read : digits.foldlM decimalDigit value = .ok result) :
    (∀ byte ∈ digits, isdigit byte = true) ∧
      result = digits.foldl (fun value c => value * 10 + (c - code '0').toNat) value ∧
      result ≤ uint64Max := by
  induction digits generalizing value with
  | nil =>
      cases read
      exact ⟨by simp, rfl, small⟩
  | cons digit digits ih =>
      rw [List.foldlM_cons] at read
      obtain ⟨middle, first, later⟩ := bind_ok read
      obtain ⟨isDigit, rfl, within⟩ := decimal_digit_ok first
      obtain ⟨decimal, sum, bound⟩ := ih within later
      exact ⟨List.forall_mem_cons.mpr ⟨isDigit, decimal⟩, sum, bound⟩

/-- A string is read as a number exactly if it is a numeral that fits. -/
theorem parse_decimal_iff {digits : List UInt8} {value : Nat} : parseDecimal digits = .ok value ↔
    (digits ≠ [] ∧ ∀ byte ∈ digits, isdigit byte = true) ∧ decimalValue digits < 2 ^ 64 ∧
      value = decimalValue digits := by
  unfold parseDecimal
  constructor
  · intro read
    split_ifs at read with empty
    obtain ⟨decimal, sum, bound⟩ := decimal_digits_ok (Nat.zero_le _) read
    rw [sum] at bound
    refine ⟨⟨empty, decimal⟩, ?_, sum⟩
    simp only [decimalValue, uint64Max] at bound ⊢
    omega
  · rintro ⟨⟨present, decimal⟩, small, rfl⟩
    rw [if_neg present]
    apply parse_decimal_digits digits 0 decimal
    simp only [decimalValue, uint64Max] at small ⊢
    omega

end Decimal

section Codings

theorem mem_trim_ows {s : List UInt8} {byte : UInt8} (member : byte ∈ s)
    (visible : isOws byte = false) : byte ∈ trimOws s := by
  have kept : ∀ bytes : List UInt8, byte ∈ bytes → byte ∈ bytes.dropWhile isOws := by
    intro bytes present
    rw [← List.takeWhile_append_dropWhile (p := isOws) (l := bytes)] at present
    rcases List.mem_append.mp present with blank | rest
    · rw [List.mem_takeWhile_imp blank] at visible
      cases visible
    · exact rest
  rw [trimOws, trimRight, List.mem_reverse]
  exact kept _ (List.mem_reverse.mpr (kept s member))

theorem comma_not_chunked {value : List UInt8} (comma : code ',' ∈ value) :
    isEquals (trimOws value) chunked = false := by
  have inside : code ',' ∈ trimOws value := mem_trim_ows comma (by decide)
  have lower : code ',' ∈ (trimOws value).map tolower :=
    List.mem_map.mpr ⟨code ',', inside, by decide⟩
  rw [isEquals, decide_eq_false_iff_not]
  intro same
  rw [same] at lower
  exact absurd lower (by decide)

/-- The last coding is the last one of the last field. -/
theorem codings_last {fields : List Field} {field : Field}
    (last : (fields.filter isTransferEncoding).getLast? = some field) :
    (codings fields).getLast? = (field.value.splitOn (code ',')).getLast?.map trimOws := by
  have present : (field.value.splitOn (code ',')).map trimOws ≠ [] := by
    rw [ne_eq, List.map_eq_nil_iff]
    exact List.splitOn_ne_nil (code ',') field.value
  obtain ⟨front, split⟩ := List.getLast?_eq_some_iff.mp last
  rw [codings, split, List.flatMap_append, List.flatMap_singleton, List.getLast?_append,
    ← List.getLast?_map]
  rw [List.getLast?_eq_some_getLast present, Option.some_or]

end Codings

section Outcome

theorem parse_framing_error {header : Header} {err : ParseError}
    (failed : header.fields.foldlM framingField {} = .error err) :
    parseFraming header = .error .malformedHeader := by
  rw [parseFraming, failed, framing_error failed]
  rfl

theorem parse_framing_ok {header : Header} {after : Framing}
    (gathered : header.fields.foldlM framingField {} = .ok after) :
    parseFraming header = match after.encodings.getLast?, after.contentLength with
      | some _, some _ => .error .malformedHeader
      | some encoding, none =>
          if !isEquals encoding chunked then .error .malformedHeader else
          .ok { header with chunked := true }
      | none, some length => do
          let value ← parseDecimal length
          .ok { header with hasContentLength := true, contentLength := value }
      | none, none => .ok header := by
  rw [parseFraming, gathered]
  rfl

theorem gathered_encoding {fields : List Field} {after : Framing}
    (gathered : Gathered fields {} after) : after.encodings.getLast? =
      (fields.filter isTransferEncoding).getLast?.map fun field => trimOws field.value := by
  rw [gathered.encodings, List.nil_append, List.getLast?_map]

theorem gathered_length {fields : List Field} {after : Framing}
    (gathered : Gathered fields {} after) :
    after.contentLength = (fields.find? isContentLength).map Field.value := by
  rw [gathered.given, Option.none_or]

theorem last_encoding {fields : List Field} (encoded : HasEncoding fields) :
    ∃ field, (fields.filter isTransferEncoding).getLast? = some field := by
  obtain ⟨field, member, encoding⟩ := encoded
  have present : fields.filter isTransferEncoding ≠ [] :=
    List.ne_nil_of_mem (List.mem_filter.mpr ⟨member, encoding⟩)
  exact ⟨_, List.getLast?_eq_some_getLast present⟩

theorem no_encoding {fields : List Field} (absent : ¬ HasEncoding fields) :
    (fields.filter isTransferEncoding).getLast? = none := by
  have empty : fields.filter isTransferEncoding = [] :=
    List.filter_eq_nil_iff.mpr fun field member encoding => absent ⟨field, member, encoding⟩
  rw [empty, List.getLast?_nil]

theorem first_length {fields : List Field} (given : HasLength fields) :
    ∃ field, fields.find? isContentLength = some field := by
  obtain ⟨field, member, length⟩ := given
  exact Option.isSome_iff_exists.mp (List.find?_isSome.mpr ⟨field, member, length⟩)

theorem no_length {fields : List Field} (absent : ¬ HasLength fields) :
    fields.find? isContentLength = none :=
  List.find?_eq_none.mpr fun field member length => absent ⟨field, member, length⟩

variable {header : Header}

theorem framing_both (encoded : HasEncoding header.fields) (given : HasLength header.fields) :
    parseFraming header = .error .malformedHeader := by
  cases folded : header.fields.foldlM framingField {} with
  | error err => exact parse_framing_error folded
  | ok after =>
      have gathered := framing_ok folded
      obtain ⟨field, last⟩ := last_encoding encoded
      obtain ⟨length, first⟩ := first_length given
      rw [parse_framing_ok folded, gathered_encoding gathered, gathered_length gathered, last, first]
      rfl

/-- The last field has to be the coding. -/
theorem framing_encoded {field : Field} (absent : ¬ HasLength header.fields)
    (last : (header.fields.filter isTransferEncoding).getLast? = some field) :
    parseFraming header = if isEquals (trimOws field.value) chunked
      then .ok { header with chunked := true } else .error .malformedHeader := by
  have noLength : ∀ field ∈ header.fields, isContentLength field = false := by
    intro other member
    rw [← Bool.not_eq_true]
    exact fun length => absent ⟨other, member, length⟩
  have folded := framing_encodings header.fields {} noLength
  have gathered := framing_ok folded
  rw [parse_framing_ok folded, gathered_encoding gathered, gathered_length gathered, last,
    no_length absent]
  simp only [Option.map_some, Option.map_none]
  cases named : isEquals (trimOws field.value) chunked with
  | true => simp
  | false => simp

theorem framing_plain (noEncoding : ¬ HasEncoding header.fields)
    (noLength : ¬ HasLength header.fields) : parseFraming header = .ok header := by
  have folded := framing_encodings header.fields {} (by
    intro other member
    rw [← Bool.not_eq_true]
    exact fun length => noLength ⟨other, member, length⟩)
  have gathered := framing_ok folded
  rw [parse_framing_ok folded, gathered_encoding gathered, gathered_length gathered,
    no_encoding noEncoding, no_length noLength]
  rfl

theorem framing_given {digits : List UInt8} (noEncoding : ¬ HasEncoding header.fields)
    (given : HasLength header.fields) (length : LengthIs header.fields digits) :
    parseFraming header = .ok { header with
      hasContentLength := true, contentLength := decimalValue digits } := by
  have folded := framing_length header.fields {} digits (by
    intro other member
    rw [← Bool.not_eq_true]
    exact fun encoding => noEncoding ⟨other, member, encoding⟩) length.same (.inl rfl)
  have any : header.fields.any isContentLength = true := List.any_eq_true.mpr given
  rw [any] at folded
  have gathered := framing_ok folded
  have value := parse_decimal_iff.mpr ⟨length.decimal, length.small, rfl⟩
  rw [parse_framing_ok folded, gathered_encoding gathered, no_encoding noEncoding]
  simp only [if_true, Option.map_none, value]
  rfl

theorem length_of_framing {header' : Header} (noEncoding : ¬ HasEncoding header.fields)
    (given : HasLength header.fields) (framed : parseFraming header = .ok header') :
    ∃ digits, LengthIs header.fields digits := by
  cases folded : header.fields.foldlM framingField {} with
  | error err =>
      rw [parse_framing_error folded] at framed
      cases framed
  | ok after =>
      have gathered := framing_ok folded
      obtain ⟨field, first⟩ := first_length given
      rw [parse_framing_ok folded, gathered_encoding gathered, no_encoding noEncoding] at framed
      have length : after.contentLength = some field.value := by
        rw [gathered_length gathered, first, Option.map_some]
      rw [length] at framed
      obtain ⟨value, read, -⟩ := bind_ok framed
      obtain ⟨decimal, small, -⟩ := parse_decimal_iff.mp read
      refine ⟨field.value, ?_, decimal, small⟩
      intro other member isLength
      have same := gathered.same other member isLength
      rw [length] at same
      exact (Option.some.inj same).symm

theorem parse_framing_sets {header' : Header} (framed : parseFraming header = .ok header') :
    header' = { header with chunked := true } ∨
      (∃ value, header' = { header with hasContentLength := true, contentLength := value }) ∨
      header' = header := by
  cases folded : header.fields.foldlM framingField {} with
  | error err =>
      rw [parse_framing_error folded] at framed
      cases framed
  | ok after =>
      rw [parse_framing_ok folded] at framed
      split at framed
      · cases framed
      · split_ifs at framed
        cases framed
        exact .inl rfl
      · obtain ⟨value, -, set⟩ := bind_ok framed
        cases set
        exact .inr (.inl ⟨value, rfl⟩)
      · cases framed
        exact .inr (.inr rfl)

end Outcome

section Resolution

theorem status_line_unframed {first second third : List UInt8} {header : Header}
    (parsed : statusLine first second third = .ok header) :
    header.chunked = false ∧ header.hasContentLength = false := by
  unfold statusLine at parsed
  split at parsed
  · split_ifs at parsed
    cases parsed
    exact ⟨rfl, rfl⟩
  · cases parsed

theorem request_line_unframed {first second : List UInt8} {version : Option (List UInt8)}
    {header : Header} (parsed : requestLine first second version = .ok header) :
    header.chunked = false ∧ header.hasContentLength = false := by
  unfold requestLine at parsed
  split at parsed
  · cases parsed
  · split_ifs at parsed
    cases parsed
    exact ⟨rfl, rfl⟩

/-- What a start line is accepted as. -/
theorem start_line_cases {line : List UInt8} {header : Header}
    (started : startLine line = .ok header) :
    (header.version = http10 ∨ header.version = http11) ∧
      ((∃ first second third, statusLine first second third = .ok header) ∨
        ∃ first second version, requestLine first second version = .ok header) := by
  unfold startLine at started
  split_ifs at started
  split at started
  · cases started
  · next first rest _ =>
      cases cutAt (code ' ') rest
      all_goals
        simp only at started
        split_ifs at started
        · obtain ⟨before, parsed, kept⟩ := bind_ok started
          split_ifs at kept with other
          cases kept
          exact ⟨by tauto, .inl ⟨_, _, _, parsed⟩⟩
        · obtain ⟨before, parsed, kept⟩ := bind_ok started
          split_ifs at kept with other
          cases kept
          exact ⟨by tauto, .inr ⟨_, _, _, parsed⟩⟩

theorem start_line_unframed {line : List UInt8} {header : Header}
    (started : startLine line = .ok header) :
    header.chunked = false ∧ header.hasContentLength = false := by
  rcases (start_line_cases started).2 with ⟨_, _, _, parsed⟩ | ⟨_, _, _, parsed⟩
  · exact status_line_unframed parsed
  · exact request_line_unframed parsed

theorem parse_start_line_unframed {span rest : List UInt8} {header : Header}
    (started : parseStartLine span = .ok (header, rest)) :
    header.chunked = false ∧ header.hasContentLength = false := by
  unfold parseStartLine at started
  obtain ⟨⟨line, after⟩, -, later⟩ := bind_ok started
  obtain ⟨header', parsed, kept⟩ := bind_ok later
  cases kept
  exact start_line_unframed parsed

variable {span rest rest' : List UInt8} {header : Header} {fields : List Field}

theorem parse_framed (started : parseStartLine span = .ok (header, rest))
    (read : parseFields rest = .ok (fields, rest')) :
    parse span = (parseFraming { header with fields := fields }).map (·, rest') := by
  rw [parse, started]
  simp only [bind, Except.bind, read]
  cases parseFraming { header with fields := fields } <;> rfl

theorem framing_exclusive {header header' : Header} (framed : parseFraming header = .ok header')
    (unframed : header.chunked = false ∧ header.hasContentLength = false) :
    ¬ (header'.chunked = true ∧ header'.hasContentLength = true) := by
  rcases parse_framing_sets framed with rfl | ⟨value, rfl⟩ | rfl <;> simp [unframed]

/-- No header announces both a chunked body and a length. -/
theorem parse_exclusive {span rest : List UInt8} {header : Header}
    (parsed : parse span = .ok (header, rest)) :
    ¬ (header.chunked = true ∧ header.hasContentLength = true) := by
  unfold parse at parsed
  obtain ⟨⟨start, afterLine⟩, started, later⟩ := bind_ok parsed
  obtain ⟨⟨fields, afterFields⟩, -, later⟩ := bind_ok later
  obtain ⟨framed, framing, kept⟩ := bind_ok later
  cases kept
  have unframed := parse_start_line_unframed started
  exact framing_exclusive framing unframed

theorem parse_encoded (started : parseStartLine span = .ok (header, rest))
    (read : parseFields rest = .ok (fields, rest')) {field : Field}
    (absent : ¬ HasLength fields)
    (last : (fields.filter isTransferEncoding).getLast? = some field) :
    (∃ header rest, parse span = .ok (header, rest) ∧ header.chunked = true) ↔
      isEquals (trimOws field.value) chunked = true := by
  have framed := @framing_encoded { header with fields := fields } field absent last
  rw [parse_framed started read, framed]
  constructor
  · rintro ⟨header', rest', outcome, -⟩
    by_contra other
    rw [if_neg other] at outcome
    cases outcome
  · intro named
    rw [if_pos named]
    exact ⟨_, _, rfl, rfl⟩

theorem codings_agree_iff {field : Field} (absent : ¬ HasLength fields)
    (last : (fields.filter isTransferEncoding).getLast? = some field) :
    (isEquals (trimOws field.value) chunked = true ↔
      ∃ coding ∈ (codings fields).getLast?, isEquals coding chunked = true) ↔
        ¬ ChunkedInList fields := by
  rw [codings_last last]
  by_cases comma : code ',' ∈ field.value
  · rw [comma_not_chunked comma]
    constructor
    · rintro agree ⟨-, other, same, -, coding, final, named⟩
      cases last.symm.trans same
      exact absurd (agree.mpr ⟨trimOws coding, by rw [final]; rfl, named⟩) (by decide)
    · intro open_
      apply iff_of_false (by decide)
      rintro ⟨coding, final, named⟩
      obtain ⟨piece, behind, rfl⟩ := Option.map_eq_some_iff.mp final
      exact open_ ⟨absent, field, last, comma, piece, behind, named⟩
  · rw [List.splitOn_eq_singleton comma]
    constructor
    · rintro - ⟨-, other, same, listed, -⟩
      cases last.symm.trans same
      exact comma listed
    · intro _
      simp

/-- A message whose start line and fields can be read is resolved as section 6.3 asks, unless
its last coding stands behind a comma. -/
theorem parse_resolves_iff (started : parseStartLine span = .ok (header, rest))
    (read : parseFields rest = .ok (fields, rest')) :
    Resolved fields (parse span) ↔ ¬ ChunkedInList fields := by
  constructor
  · intro resolved hidden
    obtain ⟨absent, field, last, -⟩ := id hidden
    have member := List.mem_filter.mp (List.mem_of_getLast? last)
    have asked := resolved.encoded ⟨field, member⟩ absent
    rw [parse_encoded started read absent last] at asked
    exact (codings_agree_iff absent last).mp asked hidden
  · intro open_
    have unframed := parse_start_line_unframed started
    have outcome := parse_framed started read
    refine ⟨?_, ?_, ?_, ?_, ?_⟩
    · intro encoded given
      rw [outcome, @framing_both { header with fields := fields } encoded given]
      rfl
    · intro encoded absent
      obtain ⟨field, last⟩ := last_encoding encoded
      rw [parse_encoded started read absent last]
      exact (codings_agree_iff absent last).mpr open_
    · intro noEncoding given
      have kept := @framing_given { header with fields := fields }
      constructor
      · constructor
        · rintro ⟨header', rest', accepted⟩
          rw [outcome] at accepted
          cases framed : parseFraming { header with fields := fields } with
          | error err =>
              rw [framed] at accepted
              cases accepted
          | ok header' => exact length_of_framing noEncoding given framed
        · rintro ⟨digits, length⟩
          rw [outcome, kept noEncoding given length]
          exact ⟨_, _, rfl⟩
      · intro digits header' rest' length accepted
        rw [outcome, kept noEncoding given length] at accepted
        cases accepted
        exact ⟨rfl, rfl⟩
    · intro noEncoding noLength
      rw [outcome, @framing_plain { header with fields := fields } noEncoding noLength]
      exact ⟨_, _, rfl, unframed⟩
    · intro header' rest' accepted
      exact parse_exclusive accepted

/-- The fields of a message with one transfer encoding. -/
def codedFields (value : List UInt8) : List UInt8 :=
  transferEncoding ++ (code ':' :: (value ++ (crlf ++ crlf)))

def codedMessage (value : List UInt8) : List UInt8 :=
  http11 ++ (text [' ', '2', '0', '0', ' '] ++ (crlf ++ codedFields value))

def gzipChunked : List UInt8 := text ['g', 'z', 'i', 'p', ','] ++ chunked

theorem parse_resolves_chunked :
    Resolved [{ name := transferEncoding, value := chunked }] (parse (codedMessage chunked)) := by
  have started : parseStartLine (codedMessage chunked) =
      .ok ({ type := .response, version := http11, statusCode := 200 }, codedFields chunked) := by
    decide
  have read : parseFields (codedFields chunked) =
      .ok ([{ name := transferEncoding, value := chunked }], []) := by
    decide
  apply (parse_resolves_iff started read).mpr
  rintro ⟨-, field, last, comma, -⟩
  cases last
  revert comma
  decide

/-- The last coding is the chunked one, and the message is rejected. -/
theorem coding_list_is_rejected : ¬ ∀ (span rest rest' : List UInt8) (header : Header)
    (fields : List Field), parseStartLine span = .ok (header, rest) →
      parseFields rest = .ok (fields, rest') → Resolved fields (parse span) := by
  intro resolves
  have resolved := resolves (codedMessage gzipChunked) (codedFields gzipChunked) []
    { type := .response, version := http11, statusCode := 200 }
    [{ name := transferEncoding, value := gzipChunked }] (by decide) (by decide)
  have rejected : parse (codedMessage gzipChunked) = .error .malformedHeader := by decide
  have encoded : HasEncoding [{ name := transferEncoding, value := gzipChunked }] :=
    ⟨_, List.mem_singleton_self _, by decide⟩
  have noLength : ¬ HasLength [{ name := transferEncoding, value := gzipChunked }] := by
    rintro ⟨field, member, length⟩
    rw [List.mem_singleton.mp member] at length
    revert length
    decide
  obtain ⟨header, rest, accepted, -⟩ :=
    (resolved.encoded encoded noLength).mpr ⟨chunked, by decide, by decide⟩
  rw [rejected] at accepted
  cases accepted

end Resolution

end PcapAnalyzer.Http
