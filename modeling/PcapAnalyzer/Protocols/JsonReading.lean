import PcapAnalyzer.Protocols.HttpStream
import PcapAnalyzer.Protocols.JsonOutput

/-!
# Reading the JSON of application headers

Between braces the text of `toJson` reads as the header exactly when the strings that come from
the network as they are need no escape. What `jsonEscape` makes of a string always reads back.
-/

namespace PcapAnalyzer

set_option autoImplicit false

section Clean

theorem clean_of_test {s : List UInt8} (test : UInt8 → Bool) (quote : test Json.quote = false)
    (backslash : test Json.backslash = false)
    (control : ∀ n < 0x20, test (UInt8.ofNat n) = false)
    (passed : ∀ byte ∈ s, test byte = true) : Json.Clean s := by
  intro byte member
  have held := passed byte member
  by_contra other
  simp only [Json.isPlain, Bool.and_eq_true, decide_eq_true_eq, not_and, UInt8.not_le] at other
  by_cases first : byte = Json.quote
  · rw [first, quote] at held
    cases held
  · by_cases second : byte = Json.backslash
    · rw [second, backslash] at held
      cases held
    · have small := UInt8.lt_iff_toNat_lt.mp (other ⟨first, second⟩)
      have refused := control byte.toNat small
      rw [UInt8.ofNat_toNat, held] at refused
      cases refused

theorem token_clean {s : List UInt8} (token : Http.isToken s = true) : Json.Clean s := by
  simp only [Http.isToken, Bool.and_eq_true, List.all_eq_true] at token
  exact clean_of_test Http.isTokenChar rfl rfl (by decide) token.2

theorem hex_clean {s : List UInt8} (hex : ∀ c ∈ s, Ip.V6.hexVal c ≠ none ∨ c = code ':') :
    Json.Clean s := by
  refine clean_of_test (fun c => decide (Ip.V6.hexVal c ≠ none ∨ c = code ':')) rfl rfl
    (by decide) ?_
  exact fun c member => decide_eq_true (hex c member)

end Clean

open Json (Written)

namespace Http

/-- What an accepted header is known to have. -/
structure Header.Accepted (header : Header) : Prop where
  started : header.type ≠ .unknown
  version : header.version = http10 ∨ header.version = http11
  request : header.type = .request → isToken header.method = true ∧ header.reasonPhrase = []
  response : header.type = .response → header.target = []
  names : ∀ field ∈ header.fields, isToken field.name = true

theorem field_of_token {line : List UInt8} {field : Field} (parsed : fieldOf line = .ok field) :
    isToken field.name = true := by
  unfold fieldOf at parsed
  split_ifs at parsed
  split at parsed
  · cases parsed
  · dsimp only at parsed
    split_ifs at parsed with _ _ other
    cases parsed
    simpa using other

theorem parse_fields_tokens {span rest : List UInt8} {fields : List Field}
    (parsed : parseFields span = .ok (fields, rest)) :
    ∀ field ∈ fields, isToken field.name = true := by
  suffices tokens : ∀ fields rest, parseFields span = .ok (fields, rest) →
      ∀ field ∈ fields, isToken field.name = true from tokens fields rest parsed
  refine MeasuredLoop.run_invariant fields_turn_decreasing
    (fun cursor => ∀ field ∈ cursor.fields, isToken field.name = true)
    (fun result => ∀ fields rest, result = .ok (fields, rest) →
      ∀ field ∈ fields, isToken field.name = true) ?_ ?_ (span.length + 1) { span := span }
    (Nat.lt_succ_self _) (fun _ member => absurd member List.not_mem_nil)
  · intro cursor next tokens pass
    unfold fieldsTurn at pass
    split at pass
    · cases pass
    · split_ifs at pass
      split at pass
      · cases pass
      · next line rest _ _ field read =>
          cases pass
          exact List.forall_mem_append.mpr
            ⟨tokens, List.forall_mem_singleton.mpr (field_of_token read)⟩
  · intro cursor result tokens pass fields rest done
    unfold fieldsTurn at pass
    split at pass
    · cases pass
      cases done
    · split_ifs at pass
      · cases pass
        cases done
        exact tokens
      · split at pass
        · cases pass
          cases done
        · cases pass

theorem status_line_accepted {first second third : List UInt8} {header : Header}
    (parsed : statusLine first second third = .ok header) :
    header.type = .response ∧ header.target = [] := by
  unfold statusLine at parsed
  split at parsed
  · split_ifs at parsed
    cases parsed
    exact ⟨rfl, rfl⟩
  · cases parsed

theorem request_line_accepted {first second : List UInt8} {version : Option (List UInt8)}
    {header : Header} (parsed : requestLine first second version = .ok header) :
    header.type = .request ∧ isToken header.method = true ∧ header.reasonPhrase = [] := by
  unfold requestLine at parsed
  split at parsed
  · cases parsed
  · split_ifs at parsed with refused
    cases parsed
    simp only [Bool.or_eq_true, Bool.not_eq_true', decide_eq_true_eq, not_or,
      Bool.not_eq_false] at refused
    exact ⟨rfl, refused.1, rfl⟩

theorem parse_accepted {span rest : List UInt8} {header : Header}
    (parsed : parse span = .ok (header, rest)) : header.Accepted := by
  unfold parse at parsed
  obtain ⟨⟨start, afterLine⟩, started, later⟩ := bind_ok parsed
  obtain ⟨⟨fields, afterFields⟩, read, later⟩ := bind_ok later
  obtain ⟨framed, framing, kept⟩ := bind_ok later
  cases kept
  obtain ⟨⟨line, after⟩, -, later⟩ := bind_ok started
  obtain ⟨header', line, kept⟩ := bind_ok later
  cases kept
  have accepted : Header.Accepted { start with fields := fields } := by
    obtain ⟨version, ⟨_, _, _, line⟩ | ⟨_, _, _, line⟩⟩ := start_line_cases line
    · obtain ⟨type, target⟩ := status_line_accepted line
      exact ⟨by simp [type], version, by simp [type], fun _ => target, parse_fields_tokens read⟩
    · obtain ⟨type, method⟩ := request_line_accepted line
      exact ⟨by simp [type], version, fun _ => method, by simp [type], parse_fields_tokens read⟩
  rcases parse_framing_sets framing with rfl | ⟨value, rfl⟩ | rfl
  all_goals exact ⟨accepted.1, accepted.2, accepted.3, accepted.4, accepted.5⟩

/-- The object that the text of a header is to be read as. -/
def Header.json (header : Header) : Json.Value :=
  .object [(text "http".toList, .object ((match header.type with
    | .request => [
        (text "type".toList, .string (text "request".toList)),
        (text "method".toList, .string header.method),
        (text "target".toList, .string header.target),
        (text "version".toList, .string header.version)]
    | .response => [
        (text "type".toList, .string (text "response".toList)),
        (text "version".toList, .string header.version),
        (text "status_code".toList, .number (decimal header.statusCode.toNat)),
        (text "reason_phrase".toList, .string header.reasonPhrase)]
    | .unknown => []) ++
    [(text "fields".toList,
      .object (header.fields.map fun field => (field.name, .string field.value)))]))]

theorem written_value (header : Header) : header.written.value = header.json := by
  unfold Header.written Header.startMembers Header.json
  cases header.type
  all_goals
    simp only [Written.object, Written.member, List.map_cons, List.map_nil, List.map_append,
      List.map_map]
    rfl

/-- The strings of a header that hold any bytes. -/
def Header.freeTexts (header : Header) : List (List UInt8) :=
  header.target :: header.reasonPhrase :: header.fields.map Field.value

theorem fields_sound {fields : List Field}
    (names : ∀ field ∈ fields, isToken field.name = true) :
    (∀ printed ∈ fields.map fieldMember, printed.sound) ↔
      ∀ s ∈ fields.map Field.value, Json.Clean s := by
  simp only [List.forall_mem_map]
  exact forall₂_congr fun field member => and_iff_right (token_clean (names field member))

theorem written_sound {header : Header} (accepted : header.Accepted) :
    header.written.sound ↔ ∀ s ∈ header.freeTexts, Json.Clean s := by
  have names : Json.Clean (text "http".toList) ∧ Json.Clean (text "type".toList) ∧
      Json.Clean (text "version".toList) ∧ Json.Clean (text "fields".toList) := by decide
  have version : Json.Clean header.version := by
    rcases accepted.version with same | same
    all_goals
      rw [same]
      decide
  have empty : Json.Clean [] := by decide
  unfold Header.written Header.startMembers Header.freeTexts
  cases type : header.type
  case unknown => exact absurd type accepted.started
  case request =>
    obtain ⟨method, bare⟩ := accepted.request type
    have request : Json.Clean (text "request".toList) ∧ Json.Clean (text "method".toList) ∧
        Json.Clean (text "target".toList) := by decide
    simp only [Written.object_sound, Written.member_sound, Written.string_sound,
      List.forall_mem_cons, List.forall_mem_append, List.not_mem_nil, false_implies, implies_true,
      fields_sound accepted.names, names, version, request, bare, empty, token_clean method,
      true_and, and_true]
  case response =>
    have bare := accepted.response type
    have response : Json.Clean (text "response".toList) ∧
        Json.Clean (text "status_code".toList) ∧
        Json.Clean (text "reason_phrase".toList) := by decide
    simp only [Written.object_sound, Written.member_sound, Written.string_sound,
      Written.number_sound, List.forall_mem_cons, List.forall_mem_append, List.not_mem_nil,
      false_implies, implies_true, fields_sound accepted.names, names, version, response, bare,
      empty, true_and, and_true]

end Http

namespace Dns

theorem v4_printed_clean (ip : List UInt8) : Json.Clean (Ip.V4.printIp ip) := by
  refine clean_of_test (fun c => isdigit c || c = code '.') rfl rfl (by decide) ?_
  have digits (n : Nat) : ∀ c ∈ decimal n, (isdigit c || c = code '.') = true := fun c member =>
    Bool.or_eq_true_iff.mpr (.inl (decimal_digits n c member))
  simp only [Ip.V4.printIp, List.forall_mem_append, List.forall_mem_singleton]
  exact ⟨⟨⟨⟨⟨⟨digits _, rfl⟩, digits _⟩, rfl⟩, digits _⟩, rfl⟩, digits _⟩

theorem printed_clean (rr : ResourceRecord) : Json.Clean rr.printed := by
  unfold ResourceRecord.printed
  split_ifs
  · exact v4_printed_clean rr.rdata
  · obtain ⟨groups, denotes⟩ : ∃ groups, Ip.V6.Denotes (Ip.V6.printIp rr.rdata) groups :=
      ⟨_, Ip.V6.print_ip_denotes rr.rdata⟩
    exact hex_clean fun c member => Ip.V6.denotes_mem denotes member
  · refine hex_clean fun c member => ?_
    obtain ⟨byte, -, inside⟩ := List.mem_flatMap.mp member
    exact Or.inl (Ip.V6.hex_byte_hex byte c inside)

theorem type_name_clean (type : UInt16) : Json.Clean (typeName type) := by
  unfold typeName
  split_ifs <;> decide

/-- The objects that a question, a record and a message are to be read as. -/
def Question.json (question : Question) : Json.Value :=
  .object [
    (text "name".toList, .string question.name),
    (text "type".toList, .string (typeName question.qtype))]

def ResourceRecord.json (rr : ResourceRecord) : Json.Value :=
  .object [
    (text "type".toList, .string (typeName rr.type)),
    (text "name".toList, .string rr.name),
    (text "ttl".toList, .number (decimal rr.ttl.toNat)),
    (text "rdata".toList, .string rr.printed)]

def Header.json (header : Header) : Json.Value :=
  .object [(text "dns".toList, .object [
    (text "id".toList, .number (decimal header.id.toNat)),
    (text "flags".toList, .array (header.flagNames.map .string)),
    (text "rcode".toList, .number (decimal header.rcode.toNat)),
    (text "questions".toList, .array (header.questions.map Question.json)),
    (text "answers".toList, .array (header.answers.map ResourceRecord.json))])]

theorem written_value (header : Header) : header.written.value = header.json := by
  unfold Header.written Header.json listed
  simp only [Written.object, Written.member, Written.array, Written.number, List.map_cons,
    List.map_nil, List.map_map]
  rfl

/-- The names that are written of a message. -/
def Header.names (header : Header) : List (List UInt8) :=
  header.questions.map Question.name ++ header.answers.map ResourceRecord.name

theorem question_sound (question : Question) :
    question.written.sound ↔ Json.Clean question.name := by
  have keys : Json.Clean (text "name".toList) ∧ Json.Clean (text "type".toList) := by decide
  simp only [Question.written, Written.object_sound, Written.member_sound, Written.string_sound,
    List.forall_mem_cons, List.not_mem_nil, false_implies, implies_true, keys, type_name_clean,
    true_and, and_true]

theorem record_sound (rr : ResourceRecord) : rr.written.sound ↔ Json.Clean rr.name := by
  have keys : Json.Clean (text "name".toList) ∧ Json.Clean (text "type".toList) ∧
      Json.Clean (text "ttl".toList) ∧ Json.Clean (text "rdata".toList) := by decide
  simp only [ResourceRecord.written, Written.object_sound, Written.member_sound,
    Written.string_sound, Written.number_sound, List.forall_mem_cons, List.not_mem_nil,
    false_implies, implies_true, keys, type_name_clean, printed_clean, true_and, and_true]

theorem flag_names_clean (header : Header) : ∀ s ∈ header.flagNames, Json.Clean s := by
  unfold Header.flagNames
  cases header.isResponse <;> cases header.isAa <;> cases header.isTc <;> cases header.isRd <;>
    cases header.isRa <;> decide

theorem written_sound (header : Header) :
    header.written.sound ↔ ∀ s ∈ header.names, Json.Clean s := by
  have keys : Json.Clean (text "dns".toList) ∧ Json.Clean (text "id".toList) ∧
      Json.Clean (text "flags".toList) ∧ Json.Clean (text "rcode".toList) ∧
      Json.Clean (text "questions".toList) ∧ Json.Clean (text "answers".toList) := by decide
  simp only [Header.written, Header.names, listed, Written.object_sound, Written.array_sound,
    Written.member_sound, Written.number_sound, Written.string_sound, List.forall_mem_cons,
    List.forall_mem_append, List.forall_mem_map, List.not_mem_nil, false_implies, implies_true,
    keys, question_sound, record_sound, true_and, and_true]
  exact and_iff_right (flag_names_clean header)

end Dns

section Escaping

theorem control_escape : ∀ n < 0x20,
    Json.codeUnit (text "00".toList ++ hexByte (UInt8.ofNat n)) = some n ∧
      Json.utf8 n = [UInt8.ofNat n] := by
  decide

variable {c letter value : UInt8} {behind s rest : List UInt8}

theorem short_escape_reads (same : c = value) (short : Json.shortEscape letter = some value)
    (read : Json.ReadsString behind s rest) :
    Json.ReadsString (Json.backslash :: letter :: behind) (c :: s) rest := by
  rw [same]
  exact .escape (.short short) read

theorem escape_byte_reads (c : UInt8) (read : Json.ReadsString behind s rest) :
    Json.ReadsString (escapeByte c ++ behind) (c :: s) rest := by
  unfold escapeByte
  split_ifs with quote backslash newline carriage tab backspace feed control
  · exact short_escape_reads quote rfl read
  · exact short_escape_reads backslash rfl read
  · exact short_escape_reads newline rfl read
  · exact short_escape_reads carriage rfl read
  · exact short_escape_reads tab rfl read
  · exact short_escape_reads backspace rfl read
  · exact short_escape_reads feed rfl read
  · obtain ⟨unit, spelt⟩ := control_escape c.toNat (UInt8.lt_iff_toNat_lt.mp control)
    rw [UInt8.ofNat_toNat] at unit spelt
    have escaped := Json.ReadsString.escape (.unit unit) read
    rw [spelt] at escaped
    exact escaped
  · refine .plain ?_ read
    simp only [Json.isPlain, Bool.and_eq_true, decide_eq_true_eq]
    exact ⟨⟨quote, backslash⟩, UInt8.not_lt.mp control⟩

/-- What `jsonEscape` makes of a string reads as the string. -/
theorem json_escape_reads (s tail : List UInt8) :
    Json.ReadsString (jsonEscape s ++ Json.quote :: tail) s tail := by
  induction s with
  | nil => exact .close
  | cons c s ih =>
      rw [jsonEscape, List.flatMap_cons, List.append_assoc]
      exact escape_byte_reads c ih

end Escaping

/-- The text of a header is one JSON object whose strings are those of the header exactly when
none of those that come from the network as they are has a quote, a backslash or a control byte
in it. -/
theorem json_reads_iff {span rest : List UInt8} {header : Http.Header}
    (accepted : Http.parse span = .ok (header, rest)) (message : Dns.Header) :
    (Json.Document (braced header.toJson) header.json ↔
      ∀ s ∈ header.freeTexts, Json.Clean s) ∧
    (Json.Document (braced message.toJson) message.json ↔
      ∀ s ∈ message.names, Json.Clean s) := by
  have parsed := Http.parse_accepted accepted
  constructor
  · rw [← Http.written_text parsed.started, ← Http.written_value, Json.document_iff]
    exact Http.written_sound parsed
  · rw [← Dns.written_text, ← Dns.written_value, Json.document_iff]
    exact Dns.written_sound message

/-- A request whose strings need no escape. -/
def plainRequest : List UInt8 := text "GET /a HTTP/1.1\r\nHost: b\r\n\r\n".toList

def plainHeader : Http.Header where
  type := .request
  method := text "GET".toList
  target := text "/a".toList
  version := Http.http11
  fields := [{ name := text "Host".toList, value := text "b".toList }]

theorem json_reads_iff_plain :
    Json.Document (braced plainHeader.toJson) plainHeader.json ∧
      Json.Document (braced (Dns.Header.toJson {})) (Dns.Header.json {}) := by
  have accepted : Http.parse plainRequest = .ok (plainHeader, []) := by decide
  have reads := json_reads_iff accepted {}
  exact ⟨reads.1.mpr (by decide), reads.2.mpr (by decide)⟩

/-- A request with the byte 1 in the value of a field. -/
def controlRequest : List UInt8 := text "GET / HTTP/1.1\r\nX: \x01\r\n\r\n".toList

def controlHeader : Http.Header where
  type := .request
  method := text "GET".toList
  target := text "/".toList
  version := Http.http11
  fields := [{ name := text "X".toList, value := [1] }]

/-- A question for a name of the one byte 1. -/
def controlQuestion : List UInt8 :=
  [0, 1, 0, 0, 0, 1, 0, 0, 0, 0, 0, 0, 1, 1, 0, 0, 1, 0, 1]

def controlMessage : Dns.Header where
  id := 1
  qdcount := 1
  questions := [{ name := [1], qtype := 1, qclass := 1 }]

theorem control_byte_no_json :
    (Http.parse controlRequest = .ok (controlHeader, []) ∧
      ∀ value, ¬ Json.Document (braced controlHeader.toJson) value) ∧
    (Dns.parse controlQuestion .big = .ok (controlMessage, []) ∧
      ∀ value, ¬ Json.Document (braced controlMessage.toJson) value) := by
  have hidden : ¬ Json.Shown 1 := by
    unfold Json.Shown
    decide
  refine ⟨⟨by decide, fun value document => hidden ?_⟩,
    ⟨by decide, fun value document => hidden ?_⟩⟩
  · exact Json.document_shown document 1 (by decide)
  · exact Json.document_shown document 1 (by decide)

end PcapAnalyzer
