import PcapAnalyzer.Analysis.DnsTable
import PcapAnalyzer.Analysis.ProtocolBytes
import PcapAnalyzer.Flow.Timestamps
import PcapAnalyzer.Library.Limits
import PcapAnalyzer.Protocols.LayerJson
import PcapAnalyzer.Util.Indent

/-!
# JSON of the flow report

`StatsEngine::toJson`: the protocols and the flows of the table, the latter up to the limit, each
with the first name of either address where one is known. The two quotients that the source
computes in floating point are printed by parameters.
-/

namespace PcapAnalyzer

open Json (Written)

set_option autoImplicit false

/-- How a stream prints the quotients; either way a finite double is printed as a number. -/
structure Quotients where
  percent (bytes totalBytes : Nat) : List UInt8
  bitRate (bytes : Nat) (durationUs : UInt64) : List UInt8
  percent_number (bytes totalBytes : Nat) : Json.Number (percent bytes totalBytes)
  bit_rate_number (bytes : Nat) (durationUs : UInt64) : Json.Number (bitRate bytes durationUs)

namespace TcpState

def toString : TcpState → String
  | unknown => "Unknown"
  | closed => "Closed"
  | listen => "Listen"
  | synSent => "SynSent"
  | synReceived => "SynReceived"
  | established => "Established"
  | finWait1 => "FinWait1"
  | finWait2 => "FinWait2"
  | closeWait => "CloseWait"
  | closing => "Closing"
  | lastAck => "LastAck"
  | timeWait => "TimeWait"

theorem to_string_clean (state : TcpState) : Json.Clean (text state.toString.toList) := by
  cases state <;> decide

end TcpState

namespace FlowKey

/-- `printIp` of the version of the key. -/
def printIp (key : FlowKey) (ip : Address) : List UInt8 :=
  if key.isIpv4 then Ip.V4.printIp ip.val else Ip.V6.printIp ip.val

def toJson (key : FlowKey) : List UInt8 :=
  text "\"flow_key\": \x7b\n".toList ++
    text "  \"src_ip\": \"".toList ++ key.printIp key.srcIp ++ text "\",\n".toList ++
    text "  \"dst_ip\": \"".toList ++ key.printIp key.dstIp ++ text "\",\n".toList ++
    text "  \"src_port\": ".toList ++ decimal key.srcPort.toNat ++ text ",\n".toList ++
    text "  \"dst_port\": ".toList ++ decimal key.dstPort.toNat ++ text ",\n".toList ++
    text "  \"protocol\": \"".toList ++ Ip.protocolName key.protocol ++ text "\"\n".toList ++
    text "\x7d".toList

def view (key : FlowKey) : View where
  name := "flow_key"
  fields := [
    ("src_ip", .string (key.printIp key.srcIp)),
    ("dst_ip", .string (key.printIp key.dstIp)),
    ("src_port", .number key.srcPort.toNat),
    ("dst_port", .number key.dstPort.toNat),
    ("protocol", .string (Ip.protocolName key.protocol))]

theorem to_json_view (key : FlowKey) : key.toJson = key.view.member.text := by
  unfold toJson
  simp only [view, View.member_text, View.printFields, View.printField, Content.opening,
    Content.body, Content.closing, String.reduceAppend, List.append_assoc]

theorem print_ip_clean (key : FlowKey) (ip : Address) : Json.Clean (key.printIp ip) := by
  have digits (n : Nat) : Json.Clean (decimal n) :=
    clean_of_test isdigit rfl rfl (by decide) (decimal_digits n)
  have point : Json.Clean [code '.'] := by decide
  unfold printIp
  split_ifs
  · unfold Ip.V4.printIp
    exact clean_append (clean_append (clean_append (clean_append (clean_append (clean_append
      (digits _) point) (digits _)) point) (digits _)) point) (digits _)
  · exact v6_printed_clean _

theorem view_clean (key : FlowKey) : key.view.Clean := by
  have keys : Json.Clean (text "flow_key".toList) ∧ Json.Clean (text "src_ip".toList) ∧
      Json.Clean (text "dst_ip".toList) ∧ Json.Clean (text "src_port".toList) ∧
      Json.Clean (text "dst_port".toList) ∧ Json.Clean (text "protocol".toList) := by
    decide +kernel
  refine ⟨keys.1, ?_⟩
  simp only [view, Content.Clean, List.forall_mem_cons, List.not_mem_nil, false_implies,
    implies_true, and_true, keys, print_ip_clean, Ip.protocol_name_clean]

end FlowKey

/-- The first of the names of an address, if any are known. -/
def DnsTable.domain (table : DnsTable) (ip : Address) (isIpv4 : Bool) : Option (List UInt8) :=
  (table.domainsFor ip isIpv4).bind List.head?

namespace StatsEngine

variable (quotients : Quotients) (flowTable : FlowTable) (dnsTable : DnsTable)

/-- A row of `protocols`. -/
def protocolRow (row : UInt8 × Nat) : List UInt8 :=
  text "    \x7b\n".toList ++
    text "      \"protocol\": \"".toList ++ Ip.protocolName row.1 ++ text "\",\n".toList ++
    text "      \"bytes\": ".toList ++ decimal row.2 ++ text ",\n".toList ++
    text "      \"percent\": ".toList ++ quotients.percent row.2 flowTable.totalBytes ++
    text "\n    \x7d".toList

def jsonStats (label : String) (stats : FlowStats) : List UInt8 :=
  text "\"".toList ++ text label.toList ++ text "\": \x7b \"packets\": ".toList ++
    decimal stats.packets ++ text ", \"bytes\": ".toList ++ decimal stats.bytes ++
    text " \x7d".toList

/-- A name of an address, if there is one. -/
def jsonDomain (label : String) (domain : Option (List UInt8)) : List UInt8 :=
  match domain with
  | none => []
  | some name => text "      \"".toList ++ text label.toList ++ text "\": \"".toList ++
      jsonEscape name ++ text "\",\n".toList

/-- A row of `flows`. -/
def flowRow (key : FlowKey) (flow : Flow) : List UInt8 :=
  text "    \x7b\n".toList ++
    text "      \"percent\": ".toList ++ quotients.percent flow.totalBytes flowTable.totalBytes ++
    text ",\n".toList ++
    indent key.toJson (text "      ".toList) ++ text ",\n".toList ++
    jsonDomain "src_domain" (dnsTable.domain key.srcIp key.isIpv4) ++
    jsonDomain "dst_domain" (dnsTable.domain key.dstIp key.isIpv4) ++
    text "      ".toList ++ jsonStats "fwd" flow.fwdStats ++ text ",\n".toList ++
    text "      ".toList ++ jsonStats "rev" flow.revStats ++
    (if key.protocol = Ip.protocolTcp then
      text ",\n      \"tcp\": \x7b \"fwd_state\": \"".toList ++
        text flow.fwdTcp.state.toString.toList ++ text "\", \"rev_state\": \"".toList ++
        text flow.revTcp.state.toString.toList ++ text "\" \x7d".toList
    else []) ++
    text ",\n      \"duration_us\": ".toList ++ decimal flow.durationUs.toNat ++
    (if flow.durationUs ≠ 0 ∧ flow.totalPackets > 1 then
      text ",\n      \"rate_bps\": ".toList ++ quotients.bitRate flow.totalBytes flow.durationUs
    else []) ++
    text "\n    \x7d".toList

/-- The stream of a list of rows and the number of them. -/
structure Rows where
  oss : List UInt8 := []
  printed : Nat := 0

def Rows.print (stream : Rows) (row : List UInt8) : Rows :=
  { oss := stream.oss ++ (if stream.printed ≠ 0 then text ",\n".toList else []) ++ row
    printed := stream.printed + 1 }

/-- `toJson`, with the order in which the flows and the protocols are sorted. -/
def toJsonOf (printLimit : Nat) (sortedFlow : List (FlowKey × Flow))
    (sortedProtocols : List (UInt8 × Nat)) : List UInt8 :=
  let protocols := sortedProtocols.foldl (fun stream row =>
    stream.print (protocolRow quotients flowTable row)) ({} : Rows)
  let (flows, limitReached) := Limits.stopping (fun stream entry =>
    stream.print (flowRow quotients flowTable dnsTable entry.1 entry.2)) printLimit 0 sortedFlow
      ({} : Rows)
  text "\"stats_engine\": \x7b\n".toList ++
    text "  \"flow_count\": ".toList ++ decimal sortedFlow.length ++ text ",\n".toList ++
    text "  \"total_bytes\": ".toList ++ decimal flowTable.totalBytes ++ text ",\n".toList ++
    text "  \"protocols\": [\n".toList ++ protocols.oss ++ text "\n  ],\n".toList ++
    text "  \"flows\": [\n".toList ++ flows.oss ++ text "\n  ]".toList ++
    (if limitReached then text ",\n  \"limit_reached\": true".toList else []) ++
    text "\n\x7d".toList

def toJson (printLimit : Nat) : List UInt8 :=
  let sortedFlow := flowTable.allFlows
  toJsonOf quotients flowTable dnsTable printLimit sortedFlow (sortedProtocolsByBytes sortedFlow)

section Values

/-- What a row of `protocols` is to be read as. -/
def protocolJson (row : UInt8 × Nat) : Json.Value :=
  .object [
    (text "protocol".toList, .string (Ip.protocolName row.1)),
    (text "bytes".toList, .number (decimal row.2)),
    (text "percent".toList, .number (quotients.percent row.2 flowTable.totalBytes))]

def statsJson (stats : FlowStats) : Json.Value :=
  .object [
    (text "packets".toList, .number (decimal stats.packets)),
    (text "bytes".toList, .number (decimal stats.bytes))]

/-- What a row of `flows` is to be read as. -/
def flowJson (key : FlowKey) (flow : Flow) : Json.Value :=
  .object (
    [(text "percent".toList, .number (quotients.percent flow.totalBytes flowTable.totalBytes)),
      (text "flow_key".toList, key.view.json)] ++
    ((dnsTable.domain key.srcIp key.isIpv4).map fun name =>
      (text "src_domain".toList, .string name)).toList ++
    ((dnsTable.domain key.dstIp key.isIpv4).map fun name =>
      (text "dst_domain".toList, .string name)).toList ++
    [(text "fwd".toList, statsJson flow.fwdStats), (text "rev".toList, statsJson flow.revStats)] ++
    (if key.protocol = Ip.protocolTcp then
      [(text "tcp".toList, .object [
        (text "fwd_state".toList, .string (text flow.fwdTcp.state.toString.toList)),
        (text "rev_state".toList, .string (text flow.revTcp.state.toString.toList))])]
    else []) ++
    [(text "duration_us".toList, .number (decimal flow.durationUs.toNat))] ++
    (if flow.durationUs ≠ 0 ∧ flow.totalPackets > 1 then
      [(text "rate_bps".toList, .number (quotients.bitRate flow.totalBytes flow.durationUs))]
    else []))

/-- The whole report: as many flows as the limit admits, and whether there are more. -/
def reportJson (printLimit : Nat) (sortedFlow : List (FlowKey × Flow))
    (sortedProtocols : List (UInt8 × Nat)) : Json.Value :=
  .object (
    [(text "flow_count".toList, .number (decimal sortedFlow.length)),
      (text "total_bytes".toList, .number (decimal flowTable.totalBytes)),
      (text "protocols".toList, .array (sortedProtocols.map (protocolJson quotients flowTable))),
      (text "flows".toList, .array ((Limits.limited printLimit sortedFlow).map fun entry =>
        flowJson quotients flowTable dnsTable entry.1 entry.2))] ++
    (if printLimit ≠ 0 ∧ printLimit < sortedFlow.length then
      [(text "limit_reached".toList, .bool true)]
    else []))

end Values

section Pieces

/-- Rows behind each other, with a comma and a line end in front of each but the first. -/
def joined : List (List UInt8) → List UInt8
  | [] => []
  | row :: rows => row ++ rows.flatMap (text ",\n".toList ++ ·)

theorem rows_print (rows : List (List UInt8)) :
    (rows.foldl Rows.print ({} : Rows)).oss = joined rows := by
  have more : ∀ (rows : List (List UInt8)) (stream : Rows), stream.printed ≠ 0 →
      (rows.foldl Rows.print stream).oss =
        stream.oss ++ rows.flatMap (text ",\n".toList ++ ·) := by
    intro rows
    induction rows with
    | nil => simp
    | cons row rows ih =>
        intro stream started
        rw [List.foldl_cons, ih _ (Nat.succ_ne_zero _), List.flatMap_cons, Rows.print, if_pos started]
        simp only [List.append_assoc]
  cases rows with
  | nil => rfl
  | cons row rows =>
      rw [List.foldl_cons, more _ _ (Nat.succ_ne_zero _)]
      rfl

/-- The layout of `protocols` and `flows`; an empty list has an empty line in it. -/
def listLayout (empty : Bool) : Json.Layout where
  lead := Json.newline :: List.replicate 4 0x20
  between := Json.newline :: List.replicate 4 0x20
  trail := (if empty then [Json.newline] else []) ++ Json.newline :: List.replicate 2 0x20
  blank := by
    simp only [← List.all_eq_true]
    cases empty <;> decide

theorem list_text (items : List Written) :
    text "[\n".toList ++ (joined (items.map fun item => text "    ".toList ++ item.text) ++
      text "\n  ]".toList) = (Written.array (listLayout items.isEmpty) items).text := by
  cases items with
  | nil => rfl
  | cons item items =>
      simp only [joined, List.map_cons, List.flatMap_map, Written.array, Json.Layout.print,
        Json.Layout.rows_cons, List.append_assoc]
      rfl

/-- A name between quotes, escaped. -/
def escaped (s : List UInt8) : Written :=
  .known (Json.quoted (jsonEscape s)) (.string s) (Json.quoted_front _) fun tail => by
    rw [Json.quoted, List.cons_append, List.append_assoc]
    exact .string (json_escape_reads s tail)

def protocolWritten (row : UInt8 × Nat) : Written :=
  .object (.lines 6 4) [
    Written.member (text "protocol".toList) (.string (Ip.protocolName row.1)),
    Written.member (text "bytes".toList) (.number (decimal row.2) (decimal_number _)),
    Written.member (text "percent".toList)
      (.number (quotients.percent row.2 flowTable.totalBytes) (quotients.percent_number _ _))]

theorem protocol_row_text (row : UInt8 × Nat) : protocolRow quotients flowTable row =
    text "    ".toList ++ (protocolWritten quotients flowTable row).text := by
  simp only [protocolRow, protocolWritten, Written.object, Written.member, Written.string,
    Written.number, Json.quoted, Json.Layout.print, Json.Layout.rows_cons, List.map_cons,
    List.map_nil, List.flatMap_cons, List.flatMap_nil, List.append_assoc, List.cons_append]
  rfl

theorem protocol_written_sound (row : UInt8 × Nat) :
    (protocolWritten quotients flowTable row).sound := by
  have keys : Json.Clean (text "protocol".toList) ∧ Json.Clean (text "bytes".toList) ∧
      Json.Clean (text "percent".toList) := by decide +kernel
  simp only [protocolWritten, Written.object_sound, Written.member_sound, Written.number_sound,
    Written.string_sound, List.forall_mem_cons, List.not_mem_nil, false_implies, implies_true,
    and_true, keys, Ip.protocol_name_clean]

/-- Counters on one line, with a blank inside of the braces. -/
def spaced : Json.Layout where
  lead := [0x20]
  between := [0x20]
  trail := [0x20]
  blank := by
    simp only [← List.all_eq_true]
    decide

def statsWritten (stats : FlowStats) : Written :=
  .object spaced [
    Written.member (text "packets".toList) (.number (decimal stats.packets) (decimal_number _)),
    Written.member (text "bytes".toList) (.number (decimal stats.bytes) (decimal_number _))]

theorem json_stats_text (label : String) (stats : FlowStats) : jsonStats label stats =
    (Written.member (text label.toList) (statsWritten stats)).text := by
  simp only [jsonStats, statsWritten, Written.object, Written.member, Written.number, Json.quoted,
    Json.Layout.print, Json.Layout.rows_cons, List.map_cons, List.map_nil, List.flatMap_cons,
    List.flatMap_nil, List.append_assoc, List.cons_append]
  rfl

theorem six_blank : ∀ byte ∈ text "      ".toList, Json.isSpace byte = true := by
  simp only [← List.all_eq_true]
  decide

/-- The key, indented by six blanks. -/
def keyMember (key : FlowKey) : Json.Member :=
  Json.Member.moved key.view.member (View.member_sound key.view_clean) (text "      ".toList)
    six_blank

theorem key_text (key : FlowKey) : indent key.toJson (text "      ".toList) =
    text "      ".toList ++ (keyMember key).text := by
  rw [FlowKey.to_json_view]
  apply indent_spread
  rw [View.member_text, View.text_append, View.text_append]
  exact List.cons_ne_nil _ _

def domainMember (label : String) (domain : Option (List UInt8)) : List Json.Member :=
  (domain.map fun name => Written.member (text label.toList) (escaped name)).toList

def stateMember (key : FlowKey) (flow : Flow) : List Json.Member :=
  if key.protocol = Ip.protocolTcp then
    [Written.member (text "tcp".toList) (.object spaced [
      Written.member (text "fwd_state".toList) (.string (text flow.fwdTcp.state.toString.toList)),
      Written.member (text "rev_state".toList) (.string (text flow.revTcp.state.toString.toList))])]
  else []

def rateMember (flow : Flow) : List Json.Member :=
  if flow.durationUs ≠ 0 ∧ flow.totalPackets > 1 then
    [Written.member (text "rate_bps".toList)
      (.number (quotients.bitRate flow.totalBytes flow.durationUs) (quotients.bit_rate_number _ _))]
  else []

/-- The members of a flow behind the first. -/
def flowMembers (key : FlowKey) (flow : Flow) : List Json.Member :=
  [keyMember key] ++
    domainMember "src_domain" (dnsTable.domain key.srcIp key.isIpv4) ++
    domainMember "dst_domain" (dnsTable.domain key.dstIp key.isIpv4) ++
    [Written.member (text "fwd".toList) (statsWritten flow.fwdStats)] ++
    [Written.member (text "rev".toList) (statsWritten flow.revStats)] ++
    stateMember key flow ++
    [Written.member (text "duration_us".toList)
      (.number (decimal flow.durationUs.toNat) (decimal_number _))] ++
    rateMember quotients flow

def flowWritten (key : FlowKey) (flow : Flow) : Written :=
  .object (.lines 6 4) (
    Written.member (text "percent".toList)
      (.number (quotients.percent flow.totalBytes flowTable.totalBytes)
        (quotients.percent_number _ _)) ::
    flowMembers quotients dnsTable key flow)

/-- Members behind a first one, a line each. -/
def further (members : List Json.Member) : List UInt8 :=
  (members.map Json.Printed.text).flatMap fun row =>
    Json.comma :: ((Json.Layout.lines 6 4).between ++ row)

/-- A domain ends its line itself where the members behind it expect to. -/
theorem domain_further (label : String) (domain : Option (List UInt8)) (rest : List UInt8) :
    text ",\n".toList ++ (jsonDomain label domain ++ rest) =
      further (domainMember label domain) ++ (text ",\n".toList ++ rest) := by
  cases domain with
  | none => rfl
  | some name =>
      simp only [jsonDomain, further, domainMember, Option.map_some, Option.toList_some,
        List.map_cons, List.map_nil, List.flatMap_cons, List.flatMap_nil, Written.member,
        escaped, Written.known, Json.quoted, List.append_assoc, List.cons_append]
      rfl

theorem state_further (key : FlowKey) (flow : Flow) :
    (if key.protocol = Ip.protocolTcp then
      text ",\n      \"tcp\": \x7b \"fwd_state\": \"".toList ++
        text flow.fwdTcp.state.toString.toList ++ text "\", \"rev_state\": \"".toList ++
        text flow.revTcp.state.toString.toList ++ text "\" \x7d".toList
    else []) = further (stateMember key flow) := by
  unfold stateMember
  split_ifs
  · simp only [further, Written.member, Written.object, Written.string, Json.quoted,
      Json.Layout.print, Json.Layout.rows_cons, List.map_cons, List.map_nil, List.flatMap_cons,
      List.flatMap_nil, List.append_assoc, List.cons_append]
    rfl
  · rfl

theorem rate_further (flow : Flow) :
    (if flow.durationUs ≠ 0 ∧ flow.totalPackets > 1 then
      text ",\n      \"rate_bps\": ".toList ++ quotients.bitRate flow.totalBytes flow.durationUs
    else []) = further (rateMember quotients flow) := by
  unfold rateMember
  split_ifs
  · simp only [further, Written.member, Written.number, Json.quoted, List.map_cons, List.map_nil,
      List.flatMap_cons, List.flatMap_nil, List.append_assoc, List.cons_append, List.append_nil]
    rfl
  · rfl

theorem further_append (front back : List Json.Member) :
    further (front ++ back) = further front ++ further back := by
  simp only [further, List.map_append, List.flatMap_append]

theorem object_text (first : Json.Member) (members : List Json.Member) :
    (Written.object (.lines 6 4) (first :: members)).text =
      text "\x7b\n      ".toList ++ (first.text ++ (further members ++
        text "\n    \x7d".toList)) := by
  simp only [Written.object, Json.Layout.print, List.map_cons, Json.Layout.rows_cons,
    List.append_assoc, further]
  rfl

theorem further_one (member : Json.Member) :
    further [member] = text ",\n      ".toList ++ member.text := by
  simp only [further, List.map_cons, List.map_nil, List.flatMap_cons, List.flatMap_nil,
    List.append_nil]
  rfl

theorem line_text (rest : List UInt8) : text ",\n".toList ++ (text "      ".toList ++ rest) =
    text ",\n      ".toList ++ rest := rfl

theorem flow_row_text (key : FlowKey) (flow : Flow) :
    flowRow quotients flowTable dnsTable key flow =
      text "    ".toList ++ (flowWritten quotients flowTable dnsTable key flow).text := by
  have percent (rest : List UInt8) : text "    \x7b\n".toList ++
      (text "      \"percent\": ".toList ++
        (quotients.percent flow.totalBytes flowTable.totalBytes ++ rest)) =
      text "    ".toList ++ (text "\x7b\n      ".toList ++ ((Written.member (text "percent".toList)
        (.number (quotients.percent flow.totalBytes flowTable.totalBytes)
          (quotients.percent_number _ _))).text ++ rest)) := rfl
  have duration (rest : List UInt8) : text ",\n      \"duration_us\": ".toList ++
      (decimal flow.durationUs.toNat ++ rest) =
      text ",\n      ".toList ++ ((Written.member (text "duration_us".toList)
        (.number (decimal flow.durationUs.toNat) (decimal_number _))).text ++ rest) := rfl
  rw [flowWritten, object_text, flowMembers]
  simp only [further_append, further_one, ← state_further, ← rate_further]
  rw [flowRow, key_text, json_stats_text, json_stats_text]
  simp only [List.append_assoc, domain_further, line_text, percent, duration]

theorem domain_member_value (label : String) (domain : Option (List UInt8)) :
    (domainMember label domain).map Json.Printed.value =
      (domain.map fun name => (text label.toList, Json.Value.string name)).toList := by
  cases domain <;> rfl

theorem flow_written_value (key : FlowKey) (flow : Flow) :
    (flowWritten quotients flowTable dnsTable key flow).value =
      flowJson quotients flowTable dnsTable key flow := by
  have keyed : (keyMember key).value = (text "flow_key".toList, key.view.json) :=
    View.member_value _
  have state : (stateMember key flow).map Json.Printed.value =
      if key.protocol = Ip.protocolTcp then
        [(text "tcp".toList, Json.Value.object [
          (text "fwd_state".toList, .string (text flow.fwdTcp.state.toString.toList)),
          (text "rev_state".toList, .string (text flow.revTcp.state.toString.toList))])]
      else [] := by
    unfold stateMember
    split_ifs <;> rfl
  have rate : (rateMember quotients flow).map Json.Printed.value =
      if flow.durationUs ≠ 0 ∧ flow.totalPackets > 1 then
        [(text "rate_bps".toList,
          Json.Value.number (quotients.bitRate flow.totalBytes flow.durationUs))]
      else [] := by
    unfold rateMember
    split_ifs <;> rfl
  simp only [flowWritten, flowMembers, Written.object, flowJson, List.map_append, List.map_cons,
    keyed, domain_member_value, state, rate, List.append_assoc, List.cons_append,
    List.nil_append]
  rfl

theorem domain_member_sound {label : String} (clean : Json.Clean (text label.toList))
    (domain : Option (List UInt8)) : ∀ member ∈ domainMember label domain, member.sound := by
  cases domain with
  | none => exact List.forall_mem_nil _
  | some name => exact List.forall_mem_singleton.mpr ⟨clean, trivial⟩

theorem stats_written_sound (stats : FlowStats) : (statsWritten stats).sound := by
  have keys : Json.Clean (text "packets".toList) ∧ Json.Clean (text "bytes".toList) := by
    decide +kernel
  simp only [statsWritten, Written.object_sound, Written.member_sound, Written.number_sound,
    List.forall_mem_cons, List.not_mem_nil, false_implies, implies_true, and_true, keys]

theorem state_member_sound (key : FlowKey) (flow : Flow) :
    ∀ member ∈ stateMember key flow, member.sound := by
  have keys : Json.Clean (text "tcp".toList) ∧ Json.Clean (text "fwd_state".toList) ∧
      Json.Clean (text "rev_state".toList) := by decide +kernel
  unfold stateMember
  split_ifs
  · simp only [Written.object_sound, Written.member_sound, Written.string_sound,
      List.forall_mem_cons, List.not_mem_nil, false_implies, implies_true, and_true, keys,
      TcpState.to_string_clean]
  · exact List.forall_mem_nil _

theorem rate_member_sound (flow : Flow) : ∀ member ∈ rateMember quotients flow, member.sound := by
  unfold rateMember
  split_ifs
  · exact List.forall_mem_singleton.mpr ⟨by decide, trivial⟩
  · exact List.forall_mem_nil _

theorem flow_written_sound (key : FlowKey) (flow : Flow) :
    (flowWritten quotients flowTable dnsTable key flow).sound := by
  have keys : Json.Clean (text "percent".toList) ∧ Json.Clean (text "src_domain".toList) ∧
      Json.Clean (text "dst_domain".toList) ∧ Json.Clean (text "fwd".toList) ∧
      Json.Clean (text "rev".toList) ∧ Json.Clean (text "duration_us".toList) := by
    decide +kernel
  have moved : (keyMember key).sound := trivial
  simp only [flowWritten, flowMembers, Written.object_sound, List.forall_mem_cons,
    List.forall_mem_append, Written.member_sound, Written.number_sound, List.not_mem_nil,
    false_implies, implies_true, and_true, keys, moved, stats_written_sound, true_and]
  exact ⟨⟨⟨domain_member_sound keys.2.1 _, domain_member_sound keys.2.2.1 _⟩,
    state_member_sound key flow⟩, rate_member_sound quotients flow⟩

end Pieces

section Report

variable (printLimit : Nat) (sortedFlow : List (FlowKey × Flow))
  (sortedProtocols : List (UInt8 × Nat))

def protocolsWritten : List Written := sortedProtocols.map (protocolWritten quotients flowTable)

def flowsWritten : List Written := (Limits.limited printLimit sortedFlow).map fun entry =>
  flowWritten quotients flowTable dnsTable entry.1 entry.2

def limitMember : List Json.Member :=
  if printLimit ≠ 0 ∧ printLimit < sortedFlow.length then
    [Written.member (text "limit_reached".toList) (.bool true)]
  else []

/-- The report as a piece of JSON. -/
def reportWritten : Written :=
  .object (.lines 2 0) (
    Written.member (text "flow_count".toList) (.number (decimal sortedFlow.length)
      (decimal_number _)) ::
    Written.member (text "total_bytes".toList) (.number (decimal flowTable.totalBytes)
      (decimal_number _)) ::
    Written.member (text "protocols".toList) (.array
      (listLayout (protocolsWritten quotients flowTable sortedProtocols).isEmpty)
      (protocolsWritten quotients flowTable sortedProtocols)) ::
    Written.member (text "flows".toList) (.array
      (listLayout (flowsWritten quotients flowTable dnsTable printLimit sortedFlow).isEmpty)
      (flowsWritten quotients flowTable dnsTable printLimit sortedFlow)) ::
    limitMember printLimit sortedFlow)

theorem list_text_around (name : String) (items : List Written) (rest : List UInt8) :
    text (name ++ "[\n").toList ++ (joined (items.map fun item => text "    ".toList ++ item.text) ++
      (text "\n  ]".toList ++ rest)) =
        text name.toList ++ ((Written.array (listLayout items.isEmpty) items).text ++ rest) := by
  rw [← list_text, View.text_append]
  simp only [List.append_assoc]

theorem to_json_text : toJsonOf quotients flowTable dnsTable printLimit sortedFlow
    sortedProtocols = (Written.member (text "stats_engine".toList)
      (reportWritten quotients flowTable dnsTable printLimit sortedFlow sortedProtocols)).text := by
  have protocols : (sortedProtocols.foldl (fun stream row =>
      stream.print (protocolRow quotients flowTable row)) ({} : Rows)).oss =
        joined ((protocolsWritten quotients flowTable sortedProtocols).map fun item =>
          text "    ".toList ++ item.text) := by
    rw [← rows_print, protocolsWritten, List.map_map, List.foldl_map]
    simp only [protocol_row_text, Function.comp_apply]
  have stops := Limits.stopping_remaining (fun (stream : Rows) (entry : FlowKey × Flow) =>
    stream.print (flowRow quotients flowTable dnsTable entry.1 entry.2)) printLimit 0 sortedFlow {}
      (fun _ => Nat.zero_le _)
  rw [Limits.remaining_start, Nat.zero_add] at stops
  have flows : ((Limits.limited printLimit sortedFlow).foldl (fun stream entry =>
      stream.print (flowRow quotients flowTable dnsTable entry.1 entry.2)) ({} : Rows)).oss =
        joined ((flowsWritten quotients flowTable dnsTable printLimit sortedFlow).map fun item =>
          text "    ".toList ++ item.text) := by
    rw [← rows_print, flowsWritten, List.map_map, List.foldl_map]
    simp only [flow_row_text, Function.comp_apply]
  have limit : (if decide (printLimit ≠ 0 ∧ printLimit < sortedFlow.length) = true then
      text ",\n  \"limit_reached\": true".toList else []) =
        ((limitMember printLimit sortedFlow).map Json.Printed.text).flatMap fun row =>
          Json.comma :: ((Json.Layout.lines 2 0).between ++ row) := by
    unfold limitMember
    simp only [decide_eq_true_eq]
    split_ifs <;> rfl
  have protocolLines (rest : List UInt8) : text "  \"protocols\": [\n".toList ++
      (joined ((protocolsWritten quotients flowTable sortedProtocols).map fun item =>
        text "    ".toList ++ item.text) ++ (text "\n  ],\n".toList ++ rest)) = _ :=
    list_text_around "  \"protocols\": " _ (text ",\n".toList ++ rest)
  have flowLines (rest : List UInt8) : text "  \"flows\": [\n".toList ++
      (joined ((flowsWritten quotients flowTable dnsTable printLimit sortedFlow).map fun item =>
        text "    ".toList ++ item.text) ++ (text "\n  ]".toList ++ rest)) = _ :=
    list_text_around "  \"flows\": " _ rest
  unfold toJsonOf
  simp only [stops, protocols, flows, limit, List.append_assoc, protocolLines, flowLines]
  simp only [reportWritten, Written.member, Written.object, Written.number, Json.quoted,
    Json.Layout.print, Json.Layout.rows_cons, List.map_cons, List.flatMap_cons, List.append_assoc,
    List.cons_append]
  rfl

theorem report_written_value :
    (reportWritten quotients flowTable dnsTable printLimit sortedFlow sortedProtocols).value =
      reportJson quotients flowTable dnsTable printLimit sortedFlow sortedProtocols := by
  have protocols : (protocolsWritten quotients flowTable sortedProtocols).map Json.Printed.value =
      sortedProtocols.map (protocolJson quotients flowTable) := by
    rw [protocolsWritten, List.map_map]
    rfl
  have flows : (flowsWritten quotients flowTable dnsTable printLimit sortedFlow).map
      Json.Printed.value = (Limits.limited printLimit sortedFlow).map fun entry =>
        flowJson quotients flowTable dnsTable entry.1 entry.2 := by
    rw [flowsWritten, List.map_map]
    exact List.map_congr_left fun entry _ =>
      flow_written_value quotients flowTable dnsTable entry.1 entry.2
  have limit : (limitMember printLimit sortedFlow).map Json.Printed.value =
      if printLimit ≠ 0 ∧ printLimit < sortedFlow.length then
        [(text "limit_reached".toList, Json.Value.bool true)]
      else [] := by
    unfold limitMember
    split_ifs <;> rfl
  simp only [reportWritten, Written.object, Written.member, Written.array, Written.number,
    reportJson, List.map_cons, protocols, flows, limit, List.cons_append, List.nil_append]

theorem report_written_sound :
    (reportWritten quotients flowTable dnsTable printLimit sortedFlow sortedProtocols).sound := by
  have keys : Json.Clean (text "flow_count".toList) ∧ Json.Clean (text "total_bytes".toList) ∧
      Json.Clean (text "protocols".toList) ∧ Json.Clean (text "flows".toList) := by
    decide +kernel
  have protocols : ∀ item ∈ protocolsWritten quotients flowTable sortedProtocols, item.sound :=
    List.forall_mem_map.mpr fun row _ => protocol_written_sound quotients flowTable row
  have flows : ∀ item ∈ flowsWritten quotients flowTable dnsTable printLimit sortedFlow,
      item.sound :=
    List.forall_mem_map.mpr fun entry _ =>
      flow_written_sound quotients flowTable dnsTable entry.1 entry.2
  have limit : ∀ member ∈ limitMember printLimit sortedFlow, member.sound := by
    unfold limitMember
    split_ifs
    · exact List.forall_mem_singleton.mpr ⟨by decide, trivial⟩
    · exact List.forall_mem_nil _
  simp only [reportWritten, Written.object_sound, Written.member_sound, Written.number_sound,
    Written.array_sound, List.forall_mem_cons, and_true, keys, true_and]
  exact ⟨protocols, flows, limit⟩

/-- What `cli` makes a file of. -/
def flowsFile (json : List UInt8) : List UInt8 :=
  text "\x7b\n".toList ++ indent json (text "  ".toList) ++ text "\n\x7d\n".toList

theorem report_blank : ∀ byte ∈ text "  ".toList, Json.isSpace byte = true := by
  simp only [← List.all_eq_true]
  decide

/-- Whatever order the flows and the protocols are sorted in: the file is JSON for the report on
them, names from the network included. -/
theorem flows_json_reads :
    Json.Document (flowsFile (toJsonOf quotients flowTable dnsTable printLimit sortedFlow
        sortedProtocols))
      (.object [(text "stats_engine".toList,
        reportJson quotients flowTable dnsTable printLimit sortedFlow sortedProtocols)]) := by
  let report := reportWritten quotients flowTable dnsTable printLimit sortedFlow sortedProtocols
  have sound : (Written.member (text "stats_engine".toList) report).sound :=
    ⟨by decide +kernel, report_written_sound quotients flowTable dnsTable printLimit sortedFlow
      sortedProtocols⟩
  let member := Json.Member.moved _ sound (text "  ".toList) report_blank
  have line : ∀ byte ∈ [Json.newline], Json.isSpace byte = true :=
    List.forall_mem_singleton.mpr rfl
  have document := Json.document_trailing (Written.object (.lines 2 0) [member])
    (List.forall_mem_singleton.mpr trivial) line
  have value : (Written.object (.lines 2 0) [member]).value = .object [(text "stats_engine".toList,
      reportJson quotients flowTable dnsTable printLimit sortedFlow sortedProtocols)] := by
    rw [← report_written_value]
    rfl
  rw [value] at document
  convert document using 1
  have present : (Written.member (text "stats_engine".toList) (reportWritten quotients flowTable
      dnsTable printLimit sortedFlow sortedProtocols)).text ≠ [] := List.cons_ne_nil _ _
  rw [flowsFile, to_json_text, indent_spread present]
  simp only [Written.object, Json.Layout.print, Json.Layout.rows_cons, List.map_cons,
    List.map_nil, List.flatMap_nil, List.append_assoc, List.cons_append]
  rfl

end Report

/-- Quotients rounded down, as they print where they come out even. -/
def wholeQuotients : Quotients where
  percent bytes totalBytes := decimal (100 * bytes / totalBytes)
  bitRate bytes durationUs := decimal (bytes * 8000000 / durationUs.toNat)
  percent_number _ _ := decimal_number _
  bit_rate_number _ _ := decimal_number _

/-- One flow with one packet, and a name with a quote in it for its destination. -/
theorem flows_json_reads_query :
    let key : FlowKey := { isIpv4 := true, srcPort := 5000, dstPort := 53, protocol := 17 }
    let table : FlowTable := { totalBytes := 60 }
    let names : DnsTable :=
      { domainsByIp := (∅ : AList fun _ : IpKey => List (List UInt8)).insert
          { isIpv4 := true } [text "a\"b".toList] }
    let flows := [(key, ({ fwdStats := { packets := 1, bytes := 60 } } : Flow))]
    Json.Document (flowsFile (toJsonOf wholeQuotients table names 0 flows [(17, 60)]))
        (.object [(text "stats_engine".toList,
          reportJson wholeQuotients table names 0 flows [(17, 60)])]) ∧
      names.domain key.dstIp key.isIpv4 = some (text "a\"b".toList) :=
  ⟨flows_json_reads _ _ _ _ _ _, by decide +kernel⟩

end StatsEngine

end PcapAnalyzer
