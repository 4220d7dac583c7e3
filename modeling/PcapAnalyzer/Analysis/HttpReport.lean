import PcapAnalyzer.Analysis.FlowsJson
import PcapAnalyzer.Analysis.Reporting

/-!
# The report of HTTP messages

`printHttp` walks over the flows, both directions of each and the messages of each direction, and
leaves all three loops at once when the limit is reached.
-/

namespace PcapAnalyzer

open Cli (Totals printSummary)

set_option autoImplicit false

namespace FlowKey

/-- An address of IPv6 stands between brackets. -/
def printHost (key : FlowKey) (ip : Address) : List UInt8 :=
  if key.isIpv4 then Ip.V4.printIp ip.val
  else text "[".toList ++ Ip.V6.printIp ip.val ++ text "]".toList

def toString (key : FlowKey) : List UInt8 :=
  key.printHost key.srcIp ++ text ":".toList ++ decimal key.srcPort.toNat ++ text " -> ".toList ++
    key.printHost key.dstIp ++ text ":".toList ++ decimal key.dstPort.toNat ++ text " (".toList ++
    Ip.protocolName key.protocol ++ text ")".toList

end FlowKey

/-- The value of the first field with the name; `none` is the null pointer of the source. -/
def Http.Header.fieldValue (header : Http.Header) (name : String) : Option (List UInt8) :=
  (header.fields.find? fun field => isEquals field.name (text name.toList)).map Http.Field.value

namespace StatsEngine

/-- A message with the flow and the direction it was sent in. -/
structure HttpRow where
  key : FlowKey
  reverse : Bool
  msg : Http.Header

def HttpRow.print (row : HttpRow) : List UInt8 :=
  text "  ".toList ++ row.key.toString ++
    text (if row.reverse then "  <-  " else "  ->  ").toList ++
    (if row.msg.isRequest then
      row.msg.method ++ text " ".toList ++ row.msg.target ++ text " ".toList ++ row.msg.version ++
        match row.msg.fieldValue "Host" with
        | some host => text "  Host: ".toList ++ host
        | none => []
    else
      row.msg.version ++ text " ".toList ++ decimal row.msg.statusCode.toNat ++
        (if row.msg.reasonPhrase ≠ [] then text " ".toList ++ row.msg.reasonPhrase else []) ++
        match row.msg.fieldValue "Content-Type" with
        | some type => text "  ".toList ++ type
        | none => []) ++
    (if row.msg.chunked then text "  [chunked]".toList
    else if row.msg.hasContentLength then
      text "  [".toList ++ decimal row.msg.contentLength ++ text "B]".toList
    else []) ++
    text "\n".toList

/-- `os` and `printed`. -/
structure Lines where
  os : List UInt8 := []
  printed : Nat := 0

def Lines.add (lines : Lines) (row : HttpRow) : Lines :=
  { os := lines.os ++ row.print, printed := lines.printed + 1 }

section Report

variable (printLimit : Nat) (appDecoder : AppDecoder)

/-- A pass of the innermost loop, which may set `truncated` and break. -/
def messagePass (key : FlowKey) (reverse : Bool) (state : Lines × Bool) (msg : Http.Header) :
    Lines × Bool :=
  Limits.truncating Lines.add Lines.printed printLimit state
    { key := key, reverse := reverse, msg := msg }

def directionPass (key : FlowKey) (state : Lines × Bool) (reverse : Bool) : Lines × Bool :=
  match appDecoder.getApplications key reverse with
  | none => state
  | some apps =>
      if apps.httpMessages = [] then state
      else Limits.breaking (messagePass printLimit key reverse) Prod.snd apps.httpMessages state

def flowPass (state : Lines × Bool) (entry : FlowKey × Flow) : Lines × Bool :=
  Limits.breaking (directionPass printLimit appDecoder entry.1) Prod.snd [false, true] state

/-- `printHttp`, with the order in which the flows are sorted. -/
def printHttp (sortedFlow : List (FlowKey × Flow)) : List UInt8 :=
  let (lines, truncated) :=
    Limits.breaking (flowPass printLimit appDecoder) Prod.snd sortedFlow ({}, false)
  lines.os ++ (if lines.printed = 0 then text "  (none)\n".toList else []) ++
    (if truncated then text "  ... limit reached\n".toList else []) ++ text "\n".toList

/-- The messages of one direction of a flow. -/
def directionRows (key : FlowKey) (reverse : Bool) : List HttpRow :=
  ((appDecoder.getApplications key reverse).map Applications.httpMessages).getD [] |>.map
    fun msg => { key := key, reverse := reverse, msg := msg }

def httpRows (sortedFlow : List (FlowKey × Flow)) : List HttpRow :=
  sortedFlow.flatMap fun entry => [false, true].flatMap (directionRows appDecoder entry.1)

theorem direction_pass_rows (key : FlowKey) (state : Lines × Bool) (reverse : Bool) :
    directionPass printLimit appDecoder key state reverse =
      Limits.breaking (Limits.truncating Lines.add Lines.printed printLimit) Prod.snd
        (directionRows appDecoder key reverse) state := by
  unfold directionPass directionRows
  cases appDecoder.getApplications key reverse with
  | none => rfl
  | some apps =>
      simp only [Option.map_some, Option.getD_some]
      split_ifs with empty
      · rw [empty]
        rfl
      · exact Limits.breaking_map (Limits.truncating Lines.add Lines.printed printLimit) _
          (fun msg => ({ key := key, reverse := reverse, msg := msg } : HttpRow)) _ _

/-- The three loops are one over all messages. -/
theorem flow_loop_rows (sortedFlow : List (FlowKey × Flow)) :
    Limits.breaking (flowPass printLimit appDecoder) Prod.snd sortedFlow ({}, false) =
      Limits.breaking (Limits.truncating Lines.add Lines.printed printLimit) Prod.snd
        (httpRows appDecoder sortedFlow) ({}, false) := by
  have directions : ∀ (state : Lines × Bool) (entry : FlowKey × Flow), state.2 = false →
      flowPass printLimit appDecoder state entry =
        Limits.breaking (Limits.truncating Lines.add Lines.printed printLimit) Prod.snd
          ([false, true].flatMap (directionRows appDecoder entry.1)) state := by
    intro state entry going
    rw [← Limits.breaking_nested _ _ _ _ _ going, flowPass]
    exact Limits.breaking_congr _ _
      (fun state reverse _ => direction_pass_rows printLimit appDecoder entry.1 state reverse)
      _ _ going
  rw [httpRows, ← Limits.breaking_nested _ _ _ _ _ rfl]
  exact Limits.breaking_congr _ _ directions _ _ rfl

theorem lines_add (rows : List HttpRow) (lines : Lines) :
    rows.foldl Lines.add lines =
      { os := lines.os ++ rows.flatMap HttpRow.print, printed := lines.printed + rows.length } := by
  induction rows generalizing lines with
  | nil => simp
  | cons row rows ih =>
      rw [List.foldl_cons, ih]
      simp only [Lines.add, List.flatMap_cons, List.append_assoc, List.length_cons]
      congr 1
      omega

theorem print_http_rows (sortedFlow : List (FlowKey × Flow)) :
    printHttp printLimit appDecoder sortedFlow =
      (Limits.limited printLimit (httpRows appDecoder sortedFlow)).flatMap HttpRow.print ++
        (if httpRows appDecoder sortedFlow = [] then text "  (none)\n".toList else []) ++
        (if printLimit ≠ 0 ∧ printLimit < (httpRows appDecoder sortedFlow).length then
          text "  ... limit reached\n".toList else []) ++ text "\n".toList := by
  have loop := Limits.breaking_remaining Lines.add Lines.printed (fun _ _ => rfl) printLimit
    (httpRows appDecoder sortedFlow) {} (fun _ => Nat.zero_le _)
  rw [Limits.remaining_start, lines_add] at loop
  have none : (Limits.limited printLimit (httpRows appDecoder sortedFlow)).length = 0 ↔
      httpRows appDecoder sortedFlow = [] := by
    unfold Limits.limited
    split_ifs with unlimited
    · exact List.length_eq_zero_iff
    · rw [List.length_eq_zero_iff, List.take_eq_nil_iff]
      simp [unlimited]
  simp only [printHttp, flow_loop_rows, loop, Nat.zero_add, none, List.nil_append,
    decide_eq_true_eq]

/-- Both walk over the same messages: as many rows as the summary counts. -/
theorem http_rows_counted {table : FlowTable} {sortedFlow : List (FlowKey × Flow)}
    (listed : table.ListedAs sortedFlow) :
    (httpRows appDecoder sortedFlow).length = (printSummary table appDecoder).httpMessages := by
  have direction : ∀ key : FlowKey, ([false, true].flatMap (directionRows appDecoder key)).length =
      (appDecoder.flowTotals key).httpMessages := by
    intro key
    unfold directionRows AppDecoder.flowTotals AppDecoder.getApplications
    cases appDecoder.flows.lookup key with
    | none => rfl
    | some node => simp [AppDecoder.nodeTotals, Totals.of, Totals.add_eq]
  have sum : ∀ totals : List Totals,
      totals.sum.httpMessages = (totals.map Totals.httpMessages).sum := by
    intro totals
    induction totals with
    | nil => rfl
    | cons first totals ih =>
        rw [List.sum_cons, Totals.add_eq, List.map_cons, List.sum_cons, ← ih]
  have entries := ((FlowTable.listed_as_iff table sortedFlow).mp listed).entries
  rw [Decoder.print_summary_eq, sum, List.map_map, ← (entries.map _).sum_eq, httpRows,
    List.length_flatMap]
  simp only [direction, Function.comp_def]

/-- However the flows are sorted, the section prints the messages flow by flow, direction by
direction, in the order in which they were read, up to the limit; it says that there are none or
that there are more exactly by the count of the summary. -/
theorem http_report_lists_messages (table : FlowTable) (sortedFlow : List (FlowKey × Flow))
    (listed : table.ListedAs sortedFlow) :
    let rows := httpRows appDecoder sortedFlow
    let count := (printSummary table appDecoder).httpMessages
    rows.length = count ∧
      printHttp printLimit appDecoder sortedFlow =
        (Limits.limited printLimit rows).flatMap HttpRow.print ++
          (if count = 0 then text "  (none)\n".toList else []) ++
          (if printLimit ≠ 0 ∧ printLimit < count then text "  ... limit reached\n".toList
          else []) ++ text "\n".toList := by
  intro rows count
  have counted : rows.length = count := http_rows_counted appDecoder listed
  refine ⟨counted, ?_⟩
  rw [print_http_rows, ← counted]
  simp only [rows, List.length_eq_zero_iff]

end Report

/-- Two requests on one connection, of which one is printed. -/
theorem http_report_lists_messages_two :
    let key : FlowKey := { isIpv4 := true, srcPort := 5000, dstPort := 80, protocol := 6 }
    let request : Http.Header :=
      { type := .request, method := text "GET".toList, target := text "/".toList,
        version := text "HTTP/1.1".toList }
    let appDecoder : AppDecoder :=
      { flows := (∅ : KeyMap FlowApplications).insert key
          { fwd := { httpMessages := [request, request] } } }
    (httpRows appDecoder [(key, {})]).length = 2 ∧
      printHttp 1 appDecoder [(key, {})] =
        text "  0.0.0.0:5000 -> 0.0.0.0:80 (TCP)  ->  GET / HTTP/1.1\n".toList ++
          text "  ... limit reached\n\n".toList := by
  intro key request appDecoder
  let table : FlowTable := { flows := (∅ : KeyMap Flow).insert key {} }
  have listed : table.ListedAs [(key, {})] :=
    ⟨⟨[(key, {})], .refl _, .refl _⟩, List.pairwise_singleton _ _⟩
  have report := http_report_lists_messages 1 appDecoder table [(key, {})] listed
  refine ⟨by decide +kernel, ?_⟩
  rw [report.2, ← report.1]
  decide +kernel

end StatsEngine

end PcapAnalyzer
