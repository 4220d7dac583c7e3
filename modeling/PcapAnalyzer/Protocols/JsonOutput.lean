import PcapAnalyzer.Library.JsonPrinting
import PcapAnalyzer.Protocols.AddressPrinting
import PcapAnalyzer.Protocols.Dns
import PcapAnalyzer.Protocols.HttpFraming

/-!
# JSON of application headers

`toJson` of HTTP and DNS headers. Both put the strings of a message between quotes as they are,
where `StatsEngine::toJson` sends them through `jsonEscape`.
-/

namespace PcapAnalyzer

set_option autoImplicit false

/-- A turn of `jsonEscape`. `%04x` of a control byte is two zeros and its two digits. -/
def escapeByte (c : UInt8) : List UInt8 :=
  if c = code '\x22' then text "\\\"".toList
  else if c = code '\x5C' then text "\\\\".toList
  else if c = code '\n' then text "\\n".toList
  else if c = code '\r' then text "\\r".toList
  else if c = code '\t' then text "\\t".toList
  else if c = 0x08 then text "\\b".toList
  else if c = 0x0C then text "\\f".toList
  else if c < 0x20 then text "\\u00".toList ++ hexByte c
  else [c]

def jsonEscape (s : List UInt8) : List UInt8 := s.flatMap escapeByte

namespace Http

/-- The loop over `fields`. -/
def fieldRows (fields : List Field) : List UInt8 :=
  fields.zipIdx.flatMap fun (field, i) =>
    text "    \"".toList ++ field.name ++ text "\": \"".toList ++ field.value ++
      text "\"".toList ++ (if i ≠ fields.length - 1 then text ",".toList else []) ++
      text "\n".toList

def Header.toJson (header : Header) : List UInt8 :=
  text "\"http\": \x7b\n".toList ++ text "  \"type\": ".toList ++
    (match header.type with
      | .request =>
          text "\"request\",\n".toList ++
          text "  \"method\": \"".toList ++ header.method ++ text "\",\n".toList ++
          text "  \"target\": \"".toList ++ header.target ++ text "\",\n".toList ++
          text "  \"version\": \"".toList ++ header.version ++ text "\",\n".toList
      | .response =>
          text "\"response\",\n".toList ++
          text "  \"version\": \"".toList ++ header.version ++ text "\",\n".toList ++
          text "  \"status_code\": ".toList ++ decimal header.statusCode.toNat ++
          text ",\n".toList ++
          text "  \"reason_phrase\": \"".toList ++ header.reasonPhrase ++ text "\",\n".toList
      | .unknown => []) ++
    text "  \"fields\": \x7b\n".toList ++ fieldRows header.fields ++
    text "  \x7d\n".toList ++ text "\x7d".toList

end Http

namespace Dns

def typeNs : UInt16 := 2
def typeCname : UInt16 := 5
def typeSoa : UInt16 := 6
def typePtr : UInt16 := 12
def typeMx : UInt16 := 15
def typeTxt : UInt16 := 16
def typeSrv : UInt16 := 33

def typeName (type : UInt16) : List UInt8 :=
  text <| String.toList <|
    if type = typeA then "A"
    else if type = typeNs then "NS"
    else if type = typeCname then "CNAME"
    else if type = typeSoa then "SOA"
    else if type = typePtr then "PTR"
    else if type = typeMx then "MX"
    else if type = typeTxt then "TXT"
    else if type = typeAaaa then "AAAA"
    else if type = typeSrv then "SRV"
    else "?"

namespace Header

def isAa (header : Header) : Bool := header.flags &&& (0x0400 : UInt16) ≠ 0
def isTc (header : Header) : Bool := header.flags &&& (0x0200 : UInt16) ≠ 0
def isRd (header : Header) : Bool := header.flags &&& (0x0100 : UInt16) ≠ 0
def isRa (header : Header) : Bool := header.flags &&& (0x0080 : UInt16) ≠ 0
def rcode (header : Header) : UInt8 := (header.flags &&& (0x000F : UInt16)).toUInt8

end Header

/-- A loop that puts a comma in front of each row but the first. -/
def rows (items : List (List UInt8)) : List UInt8 :=
  items.zipIdx.flatMap fun (row, i) => (if i ≠ 0 then text ",\n".toList else []) ++ row

def Question.toJson (question : Question) : List UInt8 :=
  text "    \x7b\n".toList ++
    text "      \"name\": \"".toList ++ question.name ++ text "\",\n".toList ++
    text "      \"type\": \"".toList ++ typeName question.qtype ++ text "\"\n".toList ++
    text "    \x7d".toList

/-- What is written of the data of a record. -/
def ResourceRecord.printed (rr : ResourceRecord) : List UInt8 :=
  if rr.type = typeA ∧ rr.rdata.length = 4 then Ip.V4.printIp rr.rdata
  else if rr.type = typeAaaa ∧ rr.rdata.length = 16 then Ip.V6.printIp rr.rdata
  else rr.rdata.flatMap hexByte

def ResourceRecord.toJson (rr : ResourceRecord) : List UInt8 :=
  text "    \x7b\n".toList ++
    text "      \"type\": \"".toList ++ typeName rr.type ++ text "\",\n".toList ++
    text "      \"name\": \"".toList ++ rr.name ++ text "\",\n".toList ++
    text "      \"ttl\": ".toList ++ decimal rr.ttl.toNat ++ text ",\n".toList ++
    text "      \"rdata\": \"".toList ++ rr.printed ++ text "\"\n    \x7d".toList

/-- What is written of the flags. -/
def Header.printedFlags (header : Header) : List UInt8 :=
  text "\"".toList ++
    (if header.isResponse then text "response".toList else text "query".toList) ++
    text "\"".toList ++
    (if header.isAa then text ", ".toList ++ text "\"AA\"".toList else []) ++
    (if header.isTc then text ", ".toList ++ text "\"TC\"".toList else []) ++
    (if header.isRd then text ", ".toList ++ text "\"RD\"".toList else []) ++
    (if header.isRa then text ", ".toList ++ text "\"RA\"".toList else [])

def Header.toJson (header : Header) : List UInt8 :=
  text "\"dns\": \x7b\n".toList ++
    text "  \"id\": ".toList ++ decimal header.id.toNat ++ text ",\n".toList ++
    text "  \"flags\": [".toList ++ header.printedFlags ++ text "],\n".toList ++
    text "  \"rcode\": ".toList ++ decimal header.rcode.toNat ++ text ",\n".toList ++
    (if header.questions = [] then text "  \"questions\": [],\n".toList
      else text "  \"questions\": [\n".toList ++ rows (header.questions.map Question.toJson) ++
        text "\n  ],\n".toList) ++
    (if header.answers = [] then text "  \"answers\": []\n".toList
      else text "  \"answers\": [\n".toList ++ rows (header.answers.map ResourceRecord.toJson) ++
        text "\n  ]\n".toList) ++
    text "\x7d".toList

end Dns

/-- A document is made of the text of a header by braces around it. -/
def braced (json : List UInt8) : List UInt8 := text "\x7b".toList ++ json ++ text "\x7d".toList

section Numbers

theorem decimal_leading (n : Nat) (zero : (decimal n).head? = code '0') :
    decimal n = [code '0'] := by
  induction n using Nat.strongRecOn with
  | ind n ih =>
      rw [decimal_eq] at zero ⊢
      by_cases small : n < 10
      · rw [if_pos small] at zero ⊢
        exact congrArg (fun digit => [digit]) (Option.some.inj zero)
      · rw [if_neg small] at zero
        rw [List.head?_append_of_ne_nil _ (decimal_ne_nil _)] at zero
        -- the digits in front would be a zero alone, and so no digits of this number
        have front := decimal_value (n / 10)
        rw [ih (n / 10) (by omega) zero] at front
        have none : n / 10 = 0 := front.symm
        omega

theorem decimal_number (n : Nat) : Json.Number (decimal n) := by
  have digits : Json.Digits (decimal n) := by
    refine ⟨decimal_ne_nil n, fun byte member => ?_⟩
    have digit := decimal_digits n byte member
    rw [isdigit, decide_eq_true_eq] at digit
    rw [Json.isDigit, Bool.and_eq_true, decide_eq_true_eq, decide_eq_true_eq]
    exact digit
  have number := Json.Number.intro (.inl rfl) ⟨digits, decimal_leading n⟩ .none .none
  rwa [List.nil_append, List.append_nil, List.append_nil] at number

end Numbers

open Json (Written)

section Rows

variable (indent : List UInt8)

/-- A row of a loop that knows which one is the last. -/
def commaRow (size : Nat) (row : List UInt8 × Nat) : List UInt8 :=
  indent ++ row.1 ++ (if row.2 ≠ size - 1 then text ",".toList else []) ++ text "\n".toList

theorem comma_rows_from (row : List UInt8) (rows : List (List UInt8)) {k size : Nat}
    (sized : size = k + rows.length + 1) (rest : List UInt8) :
    indent ++ (row ++ (rows.flatMap (fun row => Json.comma :: Json.newline :: (indent ++ row)) ++
      Json.newline :: rest)) =
        ((row :: rows).zipIdx k).flatMap (commaRow indent size) ++ rest := by
  induction rows generalizing row k with
  | nil =>
      have last : ¬ k ≠ size - 1 := by
        rw [sized]
        simp
      simp only [List.flatMap_nil, List.nil_append, List.zipIdx_cons, List.zipIdx_nil,
        List.flatMap_cons, commaRow, if_neg last, List.append_nil, List.append_assoc]
      rfl
  | cons next rows ih =>
      rw [List.length_cons] at sized
      have early : k ≠ size - 1 := by omega
      have more := ih next (k := k + 1) (by omega)
      change _ = commaRow indent size (row, k) ++
        ((next :: rows).zipIdx (k + 1)).flatMap (commaRow indent size) ++ rest
      rw [List.append_assoc, ← more]
      simp only [List.flatMap_cons, commaRow, if_pos early, List.append_assoc, List.cons_append]
      rfl

theorem comma_rows (inner outer : Nat) (rows : List (List UInt8)) (rest : List UInt8) :
    (Json.Layout.lines inner outer).rows rows ++ Json.newline :: rest =
      Json.newline :: (rows.zipIdx.flatMap
        (commaRow (List.replicate inner 0x20) rows.length) ++ rest) := by
  cases rows with
  | nil => rfl
  | cons row rows =>
      have sized : (row :: rows).length = 0 + rows.length + 1 := by simp
      rw [← comma_rows_from _ row rows sized rest, Json.Layout.rows_cons]
      simp only [Json.Layout.lines, List.append_assoc, List.cons_append]

end Rows

namespace Http

def fieldMember (field : Field) : Json.Member := Written.member field.name (.string field.value)

def Header.startMembers (header : Header) : List Json.Member :=
  match header.type with
  | .request => [
      Written.member (text "type".toList) (.string (text "request".toList)),
      Written.member (text "method".toList) (.string header.method),
      Written.member (text "target".toList) (.string header.target),
      Written.member (text "version".toList) (.string header.version)]
  | .response => [
      Written.member (text "type".toList) (.string (text "response".toList)),
      Written.member (text "version".toList) (.string header.version),
      Written.member (text "status_code".toList)
        (.number (decimal header.statusCode.toNat) (decimal_number _)),
      Written.member (text "reason_phrase".toList) (.string header.reasonPhrase)]
  | .unknown => []

def Header.written (header : Header) : Written :=
  .object .inline [Written.member (text "http".toList) (.object (.lines 2 0)
    (header.startMembers ++ [Written.member (text "fields".toList)
      (.object (.lines 4 2) (header.fields.map fieldMember))]))]

theorem field_rows (fields : List Field) (rest : List UInt8) :
    (Json.Layout.lines 4 2).rows ((fields.map fieldMember).map Json.Printed.text) ++
      ((Json.Layout.lines 4 2).trail ++ rest) =
        Json.newline :: (fieldRows fields ++ (0x20 :: 0x20 :: rest)) := by
  refine (comma_rows 4 2 _ (0x20 :: 0x20 :: rest)).trans (congrArg (Json.newline :: ·) ?_)
  rw [List.length_map, List.length_map, List.map_map, List.zipIdx_map, List.flatMap_map, fieldRows]
  refine congrArg (· ++ _) (List.flatMap_congr fun pair _ => ?_)
  obtain ⟨field, i⟩ := pair
  simp only [fieldMember, Function.comp_apply, Written.member, Written.string, Json.quoted,
    Prod.map_apply, id, commaRow, List.append_assoc, List.cons_append, List.nil_append]
  rfl

theorem written_text {header : Header} (started : header.type ≠ .unknown) :
    header.written.text = braced header.toJson := by
  cases type : header.type
  case unknown => exact absurd type started
  all_goals
    simp only [Header.written, Header.startMembers, type, Written.object, Written.member,
      Written.string, Written.number, Json.quoted, Json.Layout.print, Json.Layout.rows_cons,
      List.map_cons, List.map_nil, List.flatMap_cons, List.flatMap_nil, braced, Header.toJson,
      List.append_assoc, List.cons_append, List.nil_append, field_rows]
    rfl

end Http

namespace Dns

def Question.written (question : Question) : Written :=
  .object (.lines 6 4) [
    Written.member (text "name".toList) (.string question.name),
    Written.member (text "type".toList) (.string (typeName question.qtype))]

def ResourceRecord.written (rr : ResourceRecord) : Written :=
  .object (.lines 6 4) [
    Written.member (text "type".toList) (.string (typeName rr.type)),
    Written.member (text "name".toList) (.string rr.name),
    Written.member (text "ttl".toList) (.number (decimal rr.ttl.toNat) (decimal_number _)),
    Written.member (text "rdata".toList) (.string rr.printed)]

def Header.flagNames (header : Header) : List (List UInt8) :=
  (if header.isResponse then text "response".toList else text "query".toList) ::
    ((if header.isAa then [text "AA".toList] else []) ++
      (if header.isTc then [text "TC".toList] else []) ++
      (if header.isRd then [text "RD".toList] else []) ++
      (if header.isRa then [text "RA".toList] else []))

/-- An array without items takes no lines. -/
def listed (items : List Written) : Written :=
  .array (if items.length = 0 then .inline else .lines 4 2) items

def Header.written (header : Header) : Written :=
  .object .inline [Written.member (text "dns".toList) (.object (.lines 2 0) [
    Written.member (text "id".toList) (.number (decimal header.id.toNat) (decimal_number _)),
    Written.member (text "flags".toList) (.array .inline (header.flagNames.map .string)),
    Written.member (text "rcode".toList) (.number (decimal header.rcode.toNat) (decimal_number _)),
    Written.member (text "questions".toList) (listed (header.questions.map Question.written)),
    Written.member (text "answers".toList)
      (listed (header.answers.map ResourceRecord.written))])]

theorem question_text (question : Question) :
    question.toJson = List.replicate 4 0x20 ++ question.written.text := by
  simp only [Question.toJson, Question.written, Written.object, Written.member, Written.string,
    Json.quoted, Json.Layout.print, Json.Layout.rows_cons, List.map_cons, List.map_nil,
    List.flatMap_cons, List.flatMap_nil, List.append_assoc, List.cons_append, List.nil_append]
  rfl

theorem record_text (rr : ResourceRecord) :
    rr.toJson = List.replicate 4 0x20 ++ rr.written.text := by
  simp only [ResourceRecord.toJson, ResourceRecord.written, Written.object, Written.member,
    Written.string, Written.number,
    Json.quoted, Json.Layout.print, Json.Layout.rows_cons, List.map_cons, List.map_nil,
    List.flatMap_cons, List.flatMap_nil, List.append_assoc, List.cons_append, List.nil_append]
  rfl

theorem rows_behind (items : List (List UInt8)) {k : Nat} (behind : 0 < k) :
    ((items.zipIdx k).flatMap fun (row, i) => (if i ≠ 0 then text ",\n".toList else []) ++ row) =
      items.flatMap fun row => text ",\n".toList ++ row := by
  induction items generalizing k with
  | nil => rfl
  | cons row items ih =>
      rw [List.zipIdx_cons, List.flatMap_cons, List.flatMap_cons, ih (Nat.succ_pos k)]
      simp only [if_pos (Nat.ne_of_gt behind)]

theorem listed_text {Item : Type} (toJson : Item → List UInt8) (written : Item → Written)
    (same : ∀ item, toJson item = List.replicate 4 0x20 ++ (written item).text)
    (items : List Item) : (listed (items.map written)).text =
      if items = [] then text "[]".toList
      else text "[\n".toList ++ rows (items.map toJson) ++ text "\n  ]".toList := by
  match items with
  | [] => rfl
  | item :: items =>
      simp only [listed, Written.array, Json.Layout.print, List.map_cons, Json.Layout.rows_cons,
        List.length_cons, Nat.succ_ne_zero, List.cons_ne_nil, if_false, rows, List.zipIdx_cons,
        List.flatMap_cons, rows_behind _ (Nat.succ_pos 0), same, List.append_assoc,
        List.flatMap_map, List.map_map]
      rfl

theorem flags_text (header : Header) :
    (Written.array .inline (header.flagNames.map .string)).text =
      text "[".toList ++ header.printedFlags ++ text "]".toList := by
  unfold Header.flagNames Header.printedFlags
  cases header.isResponse <;> cases header.isAa <;> cases header.isTc <;> cases header.isRd <;>
    cases header.isRa <;> rfl

theorem written_text (header : Header) : header.written.text = braced header.toJson := by
  have questions := listed_text Question.toJson Question.written question_text header.questions
  have answers := listed_text ResourceRecord.toJson ResourceRecord.written record_text
    header.answers
  simp only [Header.written, Written.object, Written.member, Written.number, Json.quoted,
    Json.Layout.print, Json.Layout.rows_cons, List.map_cons, List.map_nil, List.flatMap_cons,
    List.flatMap_nil]
  rw [flags_text, questions, answers]
  simp only [braced, Header.toJson, List.append_assoc, List.cons_append, List.nil_append]
  by_cases noQuestions : header.questions = []
  all_goals by_cases noAnswers : header.answers = []
  all_goals
    simp only [noQuestions, noAnswers, if_true, if_false, List.append_assoc]
    rfl

end Dns

end PcapAnalyzer
