import PcapAnalyzer.Protocols.HttpStream

/-!
# Writing HTTP headers

A request or status line, fields with blanks around their values and an empty line, and
that the parser reads back what was written and leaves what follows.
-/

namespace PcapAnalyzer.Http

open MeasuredLoop

set_option autoImplicit false

def crlf : List UInt8 := [code '\r', code '\n']

/-- The character of a decimal digit. -/
def digitChar (digit : Nat) : UInt8 := UInt8.ofNat (48 + digit)

structure RequestLine where
  method : List UInt8
  target : List UInt8
  version : List UInt8
  token : isToken method = true
  present : target ≠ []
  clean : ∀ byte ∈ target, byte ≠ code ' ' ∧ byte ≠ code '\r' ∧ byte ≠ code '\n'
  supported : version = http10 ∨ version = http11

structure StatusLine where
  version : List UInt8
  status : Nat
  reason : List UInt8
  supported : version = http10 ∨ version = http11
  threeDigits : status < 1000
  clean : ∀ byte ∈ reason, byte ≠ code '\r' ∧ byte ≠ code '\n'

inductive StartLine where
  | request (line : RequestLine)
  | response (line : StatusLine)

namespace StartLine

def encode : StartLine → List UInt8
  | request line => line.method ++ code ' ' :: (line.target ++ code ' ' :: line.version)
  | response line =>
      line.version ++ code ' ' ::
        ([digitChar (line.status / 100), digitChar (line.status / 10 % 10),
          digitChar (line.status % 10)] ++ code ' ' :: line.reason)

def header : StartLine → Header
  | request line =>
      { type := .request, method := line.method, target := line.target, version := line.version }
  | response line =>
      { type := .response
        version := line.version
        statusCode := UInt16.ofNat line.status
        reasonPhrase := line.reason }

end StartLine

/-- A field as it stands on the wire: `left` and `right` are the blanks around its value. -/
structure WireField where
  name : List UInt8
  left : List UInt8
  value : List UInt8
  right : List UInt8
  token : isToken name = true
  blankLeft : ∀ byte ∈ left, isOws byte = true
  blankRight : ∀ byte ∈ right, isOws byte = true
  clean : ∀ byte ∈ value, byte ≠ code '\r' ∧ byte ≠ code '\n' ∧ byte ≠ 0
  noBlankFirst : ∀ byte, value.head? = some byte → isOws byte = false
  noBlankLast : ∀ byte, value.getLast? = some byte → isOws byte = false

namespace WireField

def encode (field : WireField) : List UInt8 :=
  field.name ++ code ':' :: (field.left ++ (field.value ++ field.right))

def parsed (field : WireField) : Field := { name := field.name, value := field.value }

end WireField

def encodeFields (fields : List WireField) : List UInt8 :=
  (fields.map fun field => field.encode ++ crlf).flatten

def encodeHeader (start : StartLine) (fields : List WireField) : List UInt8 :=
  start.encode ++ (crlf ++ (encodeFields fields ++ crlf))

section Lines

theorem read_line_encoded {line : List UInt8} (absent : code '\r' ∉ line) (rest : List UInt8) :
    readLineCrlf (line ++ (crlf ++ rest)) = .ok (line, rest) := by
  have found : cutAt (code '\r') (line ++ (crlf ++ rest)) = some (line, code '\n' :: rest) :=
    cut_at_iff.mpr ⟨rfl, absent⟩
  simp [readLineCrlf, found]

theorem token_absent {s : List UInt8} (token : isToken s = true) {byte : UInt8}
    (other : isTokenChar byte = false) : byte ∉ s := by
  intro member
  simp only [isToken, Bool.and_eq_true, List.all_eq_true] at token
  rw [token.2 byte member] at other
  cases other

theorem token_present {s : List UInt8} (token : isToken s = true) : s ≠ [] := by
  rintro rfl
  simp [isToken] at token

theorem supported_version {version : List UInt8} (supported : version = http10 ∨ version = http11) :
    code ' ' ∉ version ∧ code '\r' ∉ version ∧ code '\n' ∉ version ∧
      (text ['H', 'T', 'T', 'P', '/']).isPrefixOf version = true := by
  rcases supported with rfl | rfl <;> decide

theorem digit_char : ∀ digit < 10, isdigit (digitChar digit) = true ∧
    (digitChar digit - code '0').toNat = digit ∧ digitChar digit ≠ code ' ' ∧
      digitChar digit ≠ code '\r' ∧ digitChar digit ≠ code '\n' := by
  decide

theorem request_line_encoded (line : RequestLine) :
    startLine (StartLine.request line).encode = .ok (StartLine.request line).header := by
  have version := supported_version line.supported
  have first : cutAt (code ' ') (StartLine.request line).encode =
      some (line.method, line.target ++ code ' ' :: line.version) :=
    cut_at_iff.mpr ⟨rfl, token_absent line.token (by decide)⟩
  have second : cutAt (code ' ') (line.target ++ code ' ' :: line.version) =
      some (line.target, line.version) :=
    cut_at_iff.mpr ⟨rfl, fun member => (line.clean _ member).1 rfl⟩
  have oneLine : ¬ ((StartLine.request line).encode = [] ∨
      code '\n' ∈ (StartLine.request line).encode) := by
    have blank : code '\n' ≠ code ' ' := by decide
    have method : code '\n' ∉ line.method := token_absent line.token (by decide)
    have target : code '\n' ∉ line.target := fun member => (line.clean _ member).2.2 rfl
    simp [StartLine.encode, blank, method, target, version.2.2.1]
  have notStatus : (text ['H', 'T', 'T', 'P', '/']).isPrefixOf line.method = false := by
    rw [Bool.eq_false_iff, ne_eq, List.isPrefixOf_iff_prefix]
    intro starts
    have slash : code '/' ∈ line.method := starts.subset (by decide)
    exact token_absent line.token (by decide) slash
  have supported : ¬ (line.version ≠ http10 ∧ line.version ≠ http11) := by
    have known := line.supported
    tauto
  simp only [startLine, oneLine, if_false, first, second, notStatus, Bool.false_eq_true,
    requestLine, line.token, Bool.not_true, line.present, decide_false, Bool.or_self]
  simp only [bind, Except.bind, if_neg supported]
  rfl

theorem status_line_encoded (line : StatusLine) :
    startLine (StartLine.response line).encode = .ok (StartLine.response line).header := by
  have version := supported_version line.supported
  have small := line.threeDigits
  have hundreds := digit_char (line.status / 100) (by omega)
  have tens := digit_char (line.status / 10 % 10) (by omega)
  have ones := digit_char (line.status % 10) (by omega)
  have first : cutAt (code ' ') (StartLine.response line).encode =
      some (line.version, [digitChar (line.status / 100), digitChar (line.status / 10 % 10),
        digitChar (line.status % 10)] ++ code ' ' :: line.reason) :=
    cut_at_iff.mpr ⟨rfl, version.1⟩
  have second : cutAt (code ' ') ([digitChar (line.status / 100),
      digitChar (line.status / 10 % 10), digitChar (line.status % 10)] ++
        code ' ' :: line.reason) =
      some ([digitChar (line.status / 100), digitChar (line.status / 10 % 10),
        digitChar (line.status % 10)], line.reason) := by
    refine cut_at_iff.mpr ⟨rfl, ?_⟩
    simp only [List.mem_cons, List.not_mem_nil, or_false, not_or]
    exact ⟨hundreds.2.2.1.symm, tens.2.2.1.symm, ones.2.2.1.symm⟩
  have oneLine : ¬ ((StartLine.response line).encode = [] ∨
      code '\n' ∈ (StartLine.response line).encode) := by
    have blank : code '\n' ≠ code ' ' := by decide
    have reason : code '\n' ∉ line.reason := fun member => (line.clean _ member).2 rfl
    simp [StartLine.encode, blank, reason, version.2.2.1, hundreds.2.2.2.2.symm,
      tens.2.2.2.2.symm, ones.2.2.2.2.symm]
  have supported : ¬ (line.version ≠ http10 ∧ line.version ≠ http11) := by
    have known := line.supported
    tauto
  have value : line.status / 100 * 100 + line.status / 10 % 10 * 10 + line.status % 10 =
      line.status := by omega
  simp only [startLine, oneLine, if_false, first, second, version.2.2.2, if_true, statusLine,
    hundreds.1, tens.1, ones.1, hundreds.2.1, tens.2.1, ones.2.1, Bool.not_true, Bool.or_self,
    Bool.false_eq_true, value]
  simp only [bind, Except.bind, if_neg supported]
  rfl

theorem start_line_encoded (start : StartLine) : startLine start.encode = .ok start.header := by
  cases start with
  | request line => exact request_line_encoded line
  | response line => exact status_line_encoded line

theorem start_line_one_line (start : StartLine) : code '\r' ∉ start.encode := by
  have blank : code '\r' ≠ code ' ' := by decide
  cases start with
  | request line =>
      have version := supported_version line.supported
      have method : code '\r' ∉ line.method := token_absent line.token (by decide)
      have target : code '\r' ∉ line.target := fun member => (line.clean _ member).2.1 rfl
      simp [StartLine.encode, blank, method, target, version.2.1]
  | response line =>
      have version := supported_version line.supported
      have small := line.threeDigits
      have hundreds := (digit_char (line.status / 100) (by omega)).2.2.2.1
      have tens := (digit_char (line.status / 10 % 10) (by omega)).2.2.2.1
      have ones := (digit_char (line.status % 10) (by omega)).2.2.2.1
      have reason : code '\r' ∉ line.reason := fun member => (line.clean _ member).1 rfl
      simp [StartLine.encode, blank, reason, version.2.1, hundreds.symm, tens.symm, ones.symm]

end Lines

section Fields

theorem trim_right_blanks (s blanks : List UInt8) (blank : ∀ byte ∈ blanks, isOws byte = true)
    (last : ∀ byte, s.getLast? = some byte → isOws byte = false) :
    trimRight (s ++ blanks) = s := by
  have gone : (s ++ blanks).reverse.dropWhile isOws = s.reverse.dropWhile isOws := by
    rw [List.reverse_append]
    exact List.dropWhile_append_of_pos fun byte member => blank byte (List.mem_reverse.mp member)
  have kept : s.reverse.dropWhile isOws = s.reverse := by
    cases reversed : s.reverse with
    | nil => rfl
    | cons byte rest =>
        have end_ : s.getLast? = some byte := by
          rw [← List.head?_reverse, reversed, List.head?_cons]
        rw [List.dropWhile_cons_of_neg (by rw [last byte end_]; simp)]
  rw [trimRight, gone, kept, List.reverse_reverse]

theorem WireField.trimmed (field : WireField) :
    trimOws (field.left ++ (field.value ++ field.right)) = field.value := by
  rw [trimOws, List.dropWhile_append_of_pos field.blankLeft]
  cases value : field.value with
  | nil =>
      rw [List.nil_append]
      have gone : field.right.dropWhile isOws = [] := by
        rw [List.dropWhile_eq_nil_iff]
        exact field.blankRight
      rw [gone]
      rfl
  | cons byte rest =>
      have first := field.noBlankFirst byte (by rw [value, List.head?_cons])
      rw [List.cons_append, List.dropWhile_cons_of_neg (by rw [first]; simp), ← List.cons_append,
        ← value]
      exact trim_right_blanks field.value field.right field.blankRight field.noBlankLast

theorem WireField.trim_value (field : WireField) : trimOws field.value = field.value := by
  have trimmed := WireField.trimmed { field with
    left := []
    right := []
    blankLeft := by simp
    blankRight := by simp }
  simpa using trimmed

theorem blank_no_line_end {byte : UInt8} (blank : isOws byte = true) : byte ≠ code '\r' := by
  rintro rfl
  revert blank
  decide

theorem field_of_encoded (field : WireField) : fieldOf field.encode = .ok field.parsed := by
  have present := token_present field.token
  have noBlank : ∀ byte ∈ field.name, isOws byte = false := by
    intro byte member
    have tokens := field.token
    simp only [isToken, Bool.and_eq_true, List.all_eq_true] at tokens
    have character := tokens.2 byte member
    by_contra blank
    rw [Bool.not_eq_false, isOws, Bool.or_eq_true, decide_eq_true_eq, decide_eq_true_eq] at blank
    rcases blank with rfl | rfl <;> revert character <;> decide
  have first : field.encode.head?.any isOws = false := by
    obtain ⟨byte, rest, name⟩ := List.exists_cons_of_ne_nil present
    have notBlank := noBlank byte (by rw [name]; exact List.mem_cons_self)
    simp [WireField.encode, name, notBlank]
  have last : field.name.getLast?.any isOws = false := by
    rw [List.getLast?_eq_some_getLast present, Option.any_some]
    exact noBlank _ (List.getLast_mem present)
  have cut : cutAt (code ':') field.encode =
      some (field.name, field.left ++ (field.value ++ field.right)) :=
    cut_at_iff.mpr ⟨rfl, token_absent field.token (by decide)⟩
  have clean : ¬ (code '\n' ∈ field.value ∨ (0 : UInt8) ∈ field.value) := by
    rintro (member | member)
    · exact (field.clean _ member).2.1 rfl
    · exact (field.clean _ member).2.2 rfl
  simp only [fieldOf, first, cut, present, last, field.token, field.trimmed, clean, if_false,
    Bool.false_eq_true, Bool.not_true]
  rfl

theorem WireField.one_line (field : WireField) : code '\r' ∉ field.encode := by
  have colon : code '\r' ≠ code ':' := by decide
  have name : code '\r' ∉ field.name := token_absent field.token (by decide)
  have left : code '\r' ∉ field.left := fun member => blank_no_line_end (field.blankLeft _ member) rfl
  have value : code '\r' ∉ field.value := fun member => (field.clean _ member).1 rfl
  have right : code '\r' ∉ field.right :=
    fun member => blank_no_line_end (field.blankRight _ member) rfl
  simp [WireField.encode, colon, name, left, value, right]

theorem fields_loop_encoded (fields : List WireField) (before : List Field) (rest : List UInt8) :
    MeasuredLoop.run fieldsTurn (fun _ => .error .unexpectedEof)
        ((encodeFields fields ++ (crlf ++ rest)).length + 1)
        { span := encodeFields fields ++ (crlf ++ rest), fields := before } =
      .ok (before ++ fields.map WireField.parsed, rest) := by
  induction fields generalizing before with
  | nil =>
      have line : readLineCrlf ([] ++ (crlf ++ rest)) = .ok ([], rest) :=
        read_line_encoded List.not_mem_nil rest
      refine run_leave fields_turn_decreasing (Nat.lt_succ_self _) ?_
      simp only [encodeFields, List.map_nil, List.flatten_nil, List.append_nil]
      rw [List.nil_append] at line ⊢
      simp [fieldsTurn, line]
  | cons field fields ih =>
      have line := read_line_encoded field.one_line (encodeFields fields ++ (crlf ++ rest))
      have split : encodeFields (field :: fields) ++ (crlf ++ rest) =
          field.encode ++ (crlf ++ (encodeFields fields ++ (crlf ++ rest))) := by
        simp [encodeFields]
      have present : field.encode ≠ [] := by
        simp [WireField.encode, token_present field.token]
      have pass : fieldsTurn
          { span := encodeFields (field :: fields) ++ (crlf ++ rest), fields := before } =
          .again { span := encodeFields fields ++ (crlf ++ rest),
                   fields := before ++ [field.parsed] } := by
        simp only [fieldsTurn, split, line, if_neg present, field_of_encoded]
      rw [run_again fields_turn_decreasing (Nat.lt_succ_self _) pass]
      rw [ih, List.map_cons, List.append_assoc]
      rfl

theorem parse_fields_encoded (fields : List WireField) (rest : List UInt8) :
    parseFields (encodeFields fields ++ (crlf ++ rest)) =
      .ok (fields.map WireField.parsed, rest) := by
  have parsed := fields_loop_encoded fields [] rest
  rw [List.nil_append] at parsed
  exact parsed

end Fields

section Framing

def isTransferEncoding (field : Field) : Bool := isEquals field.name transferEncoding

def isContentLength (field : Field) : Bool := isEquals field.name contentLength

def decimalValue (digits : List UInt8) : Nat :=
  digits.foldl (fun value c => value * 10 + (c - code '0').toNat) 0

/-- What the fields of a header say about the body that follows: whether it is chunked, and its
length if they give one. -/
inductive FramedBy (fields : List Field) : Bool → Option Nat → Prop where
  | plain (noEncoding : ∀ field ∈ fields, isTransferEncoding field = false)
      (noLength : ∀ field ∈ fields, isContentLength field = false) : FramedBy fields false none
  | chunked {field : Field} (one : fields.filter isTransferEncoding = [field])
      (value : isEquals field.value Http.chunked = true)
      (noLength : ∀ field ∈ fields, isContentLength field = false) : FramedBy fields true none
  | length {digits : List UInt8} (noEncoding : ∀ field ∈ fields, isTransferEncoding field = false)
      (given : ∃ field ∈ fields, isContentLength field = true)
      (same : ∀ field ∈ fields, isContentLength field = true → field.value = digits)
      (decimal : digits ≠ [] ∧ ∀ byte ∈ digits, isdigit byte = true)
      (small : decimalValue digits < 2 ^ 64) : FramedBy fields false (some (decimalValue digits))

theorem framing_encodings (fields : List Field) (before : Http.Framing)
    (noLength : ∀ field ∈ fields, isContentLength field = false) :
    fields.foldlM framingField before = .ok { before with
      encodings := before.encodings ++
        (fields.filter isTransferEncoding).map fun field => trimOws field.value } := by
  induction fields generalizing before with
  | nil => simp [pure, Except.pure]
  | cons field fields ih =>
      have later := fun state => ih state fun other member =>
        noLength other (List.mem_cons_of_mem _ member)
      have here : isEquals field.name contentLength = false :=
        noLength field List.mem_cons_self
      rw [List.foldlM_cons]
      cases encoding : isTransferEncoding field with
      | true =>
          have name : isEquals field.name transferEncoding = true := encoding
          have step : framingField before field =
              .ok { before with encodings := before.encodings ++ [trimOws field.value] } := by
            simp [framingField, name]
          rw [step]
          simp only [bind, Except.bind, later, List.filter_cons_of_pos encoding]
          simp
      | false =>
          have name : isEquals field.name transferEncoding = false := encoding
          have step : framingField before field = .ok before := by
            simp [framingField, name, here]
          rw [step]
          simp only [bind, Except.bind, later]
          rw [List.filter_cons_of_neg (by rw [encoding]; simp)]

theorem framing_length (fields : List Field) (before : Http.Framing) (digits : List UInt8)
    (noEncoding : ∀ field ∈ fields, isTransferEncoding field = false)
    (same : ∀ field ∈ fields, isContentLength field = true → field.value = digits)
    (seen : before.contentLength = none ∨ before.contentLength = some digits) :
    fields.foldlM framingField before = .ok { before with
      contentLength := if fields.any isContentLength then some digits
        else before.contentLength } := by
  induction fields generalizing before with
  | nil => simp [pure, Except.pure]
  | cons field fields ih =>
      have name : isEquals field.name transferEncoding = false :=
        noEncoding field List.mem_cons_self
      have later := fun state => ih state
        (fun other member => noEncoding other (List.mem_cons_of_mem _ member))
        (fun other member => same other (List.mem_cons_of_mem _ member))
      rw [List.foldlM_cons, List.any_cons]
      cases length : isContentLength field with
      | true =>
          have given : isEquals field.name contentLength = true := length
          have value := same field List.mem_cons_self length
          have step : framingField before field =
              .ok { before with contentLength := some digits } := by
            rcases seen with none | some
            · simp [framingField, name, given, none, value]
            · simp only [framingField, name, given, some, value]
              simp [← some]
          have rest := later { before with contentLength := some digits } (Or.inr rfl)
          rw [step]
          simp only [bind, Except.bind, rest, Bool.true_or, if_true, ite_self]
      | false =>
          have other : isEquals field.name contentLength = false := length
          have step : framingField before field = .ok before := by
            simp [framingField, name, other]
          rw [step]
          simp only [bind, Except.bind, later _ seen, Bool.false_or]

theorem parse_decimal_digits (digits : List UInt8) (value : Nat)
    (decimal : ∀ byte ∈ digits, isdigit byte = true)
    (small : digits.foldl (fun value c => value * 10 + (c - code '0').toNat) value ≤ uint64Max) :
    digits.foldlM decimalDigit value =
      .ok (digits.foldl (fun value c => value * 10 + (c - code '0').toNat) value) := by
  induction digits generalizing value with
  | nil => rfl
  | cons digit digits ih =>
      have isDigit := decimal digit List.mem_cons_self
      have bound := digit_value isDigit
      simp only [List.foldl_cons] at small
      have reached := decimal_value_le digits (value * 10 + (digit - code '0').toNat)
      have fits : ¬ value > (uint64Max - (digit - code '0').toNat) / 10 := by
        simp only [uint64Max] at small ⊢
        omega
      have step : decimalDigit value digit = .ok (value * 10 + (digit - code '0').toNat) := by
        simp only [decimalDigit, isDigit, Bool.not_true, Bool.false_eq_true, if_false, if_neg fits]
      rw [List.foldlM_cons, step]
      exact ih _ (fun byte member => decimal byte (List.mem_cons_of_mem _ member)) small

theorem parse_framing_encoded (header : Header) (fields : List WireField) {isChunked : Bool}
    {length : Option Nat} (framed : FramedBy (fields.map WireField.parsed) isChunked length)
    (sameFields : header.fields = fields.map WireField.parsed) (fresh : header.chunked = false)
    (noLength : header.hasContentLength = false ∧ header.contentLength = 0) :
    parseFraming header = .ok { header with
      chunked := isChunked
      hasContentLength := length.isSome
      contentLength := length.getD 0 } := by
  rcases header with ⟨_, _, _, _, _, _, _, _, _, _⟩
  obtain ⟨rfl, rfl⟩ := noLength
  obtain rfl := fresh
  obtain rfl := sameFields
  unfold parseFraming
  cases framed with
  | plain noEncoding none =>
      rw [framing_encodings _ _ none]
      have empty : (fields.map WireField.parsed).filter isTransferEncoding = [] := by
        rw [List.filter_eq_nil_iff]
        intro field member
        rw [noEncoding field member]
        simp
      simp only [bind, Except.bind, empty, List.map_nil, List.append_nil, List.getLast?_nil]
      rfl
  | @chunked field one value none =>
      rw [framing_encodings _ _ none, one]
      have member : field ∈ fields.map WireField.parsed :=
        List.mem_of_mem_filter (by rw [one]; exact List.mem_singleton_self field)
      obtain ⟨wire, -, rfl⟩ := List.mem_map.mp member
      have trimmed : trimOws wire.parsed.value = wire.parsed.value := wire.trim_value
      simp only [bind, Except.bind, List.map_cons, List.map_nil, List.nil_append,
        List.getLast?_singleton, trimmed, value]
      rfl
  | @length digits noEncoding given same decimal small =>
      rw [framing_length _ _ digits noEncoding same (Or.inl rfl)]
      have any : (fields.map WireField.parsed).any isContentLength = true := by
        rw [List.any_eq_true]
        exact given
      have value : parseDecimal digits = .ok (decimalValue digits) := by
        rw [parseDecimal, if_neg decimal.1]
        refine parse_decimal_digits digits 0 decimal.2 ?_
        simp only [decimalValue] at small
        simp only [uint64Max]
        omega
      simp only [bind, Except.bind, any, if_true, List.getLast?_nil, value]
      rfl

end Framing

/-- The parser reads back the start line, the fields without the blanks around them and the
framing, and leaves what follows the empty line. -/
theorem parse_encoded_header (start : StartLine) (fields : List WireField) {isChunked : Bool}
    {length : Option Nat} (framed : FramedBy (fields.map WireField.parsed) isChunked length)
    (rest : List UInt8) :
    parse (encodeHeader start fields ++ rest) =
      .ok ({ start.header with
        fields := fields.map WireField.parsed
        chunked := isChunked
        hasContentLength := length.isSome
        contentLength := length.getD 0 }, rest) := by
  have line := read_line_encoded (start_line_one_line start) (encodeFields fields ++ (crlf ++ rest))
  have split : encodeHeader start fields ++ rest =
      start.encode ++ (crlf ++ (encodeFields fields ++ (crlf ++ rest))) := by
    simp [encodeHeader]
  have fresh : start.header.chunked = false ∧ start.header.hasContentLength = false ∧
      start.header.contentLength = 0 := by
    cases start <;> exact ⟨rfl, rfl, rfl⟩
  have framing := parse_framing_encoded
    { start.header with fields := fields.map WireField.parsed } fields framed rfl fresh.1 fresh.2
  rw [split]
  simp only [parse, parseStartLine, line, start_line_encoded, bind, Except.bind,
    parse_fields_encoded, framing]

/-- A response without a reason phrase. -/
def bareResponse : StartLine :=
  .response
    { version := http11
      status := 200
      reason := []
      supported := Or.inr rfl
      threeDigits := by decide
      clean := by simp }

def lengthField (left right : List UInt8) (blankLeft : left.all isOws = true)
    (blankRight : right.all isOws = true) : WireField :=
  { name := contentLength
    left := left
    value := [49, 50]
    right := right
    token := by decide
    blankLeft := List.all_eq_true.mp blankLeft
    blankRight := List.all_eq_true.mp blankRight
    clean := by
      simp only [List.mem_cons, List.not_mem_nil, or_false, forall_eq_or_imp, forall_eq]
      decide
    noBlankFirst := by
      rintro _ ⟨⟩
      decide
    noBlankLast := by
      rintro _ ⟨⟩
      decide }

def twoLengths : List WireField :=
  [lengthField [32, 9] [32] (by decide) (by decide), lengthField [] [] (by decide) (by decide)]

theorem parse_encoded_header_lengths :
    parse (encodeHeader bareResponse twoLengths ++ [code '\r']) =
      .ok ({
        type := .response
        version := http11
        statusCode := 200
        fields := [{ name := contentLength, value := [49, 50] },
          { name := contentLength, value := [49, 50] }]
        hasContentLength := true
        contentLength := 12 }, [code '\r']) := by
  have digits : ([49, 50] : List UInt8).all isdigit = true := by decide
  have framed : FramedBy (twoLengths.map WireField.parsed) false
      (some (decimalValue [49, 50])) :=
    .length (by decide) ⟨_, List.mem_cons_self, by decide⟩ (by decide)
      ⟨by decide, List.all_eq_true.mp digits⟩ (by decide)
  exact parse_encoded_header bareResponse twoLengths framed [code '\r']

end PcapAnalyzer.Http
