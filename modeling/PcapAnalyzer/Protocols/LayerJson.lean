import PcapAnalyzer.Library.JsonIndent
import PcapAnalyzer.Protocols.JsonReading
import PcapAnalyzer.Protocols.Link
import PcapAnalyzer.Protocols.Transport

/-!
# JSON of the layers

`toJson` of the headers of a packet. Each prints one member, an object named after the layer, with
numbers, strings and lists of strings in it. A view of a header says which.
-/

namespace PcapAnalyzer

open Json (Written)

set_option autoImplicit false

/-- `b ? "true" : "false"`. -/
def printBool (b : Bool) : List UInt8 := if b then text "true".toList else text "false".toList

/-- What stands behind the name of a field. -/
inductive Content where
  | number (n : Nat)
  | string (s : List UInt8)
  | hex (digits : List UInt8)
  | strings (names : List (List UInt8))
  | bool (b : Bool)

namespace Content

def json : Content → Json.Value
  | .number n => .number (decimal n)
  | .string s => .string s
  | .hex digits => .string (text "0x".toList ++ digits)
  | .strings names => .array (names.map .string)
  | .bool b => .bool b

def written : Content → Written
  | .number n => .number (decimal n) (decimal_number n)
  | .string s => .string s
  | .hex digits => .string (text "0x".toList ++ digits)
  | .strings names => .array .inline (names.map .string)
  | .bool b => .bool b

/-- The strings need no escape. -/
def Clean : Content → Prop
  | .string s => Json.Clean s
  | .hex digits => Json.Clean digits
  | .strings names => ∀ s ∈ names, Json.Clean s
  | .number _ | .bool _ => True

theorem written_value (content : Content) : content.written.value = content.json := by
  cases content with
  | strings names =>
      simp only [written, Written.array, json, List.map_map]
      rfl
  | _ => rfl

theorem written_sound {content : Content} (clean : content.Clean) : content.written.sound := by
  cases content with
  | number n => exact trivial
  | bool b => exact trivial
  | string s => exact clean
  | hex digits =>
      have sign : Json.Clean (text "0x".toList) := by decide
      exact List.forall_mem_append.mpr ⟨sign, clean⟩
  | strings names => exact List.forall_mem_map.mpr clean

/-- What is printed in front of the variable part, the part itself and what is behind it. -/
def opening : Content → String
  | .number _ | .bool _ => ""
  | .string _ => "\""
  | .hex _ => "\"0x"
  | .strings _ => "["

def body : Content → List UInt8
  | .number n => decimal n
  | .string s => s
  | .hex digits => digits
  | .strings names => Json.Layout.inline.rows (names.map Json.quoted)
  | .bool b => printBool b

def closing : Content → String
  | .number _ | .bool _ => ""
  | .string _ | .hex _ => "\""
  | .strings _ => "]"

theorem written_text (content : Content) : content.written.text =
    text content.opening.toList ++ (content.body ++ text content.closing.toList) := by
  cases content with
  | number n => exact (List.append_nil _).symm
  | string s =>
      simp only [written, Written.string, Json.quoted, opening, body, closing]
      rfl
  | hex digits =>
      simp only [written, Written.string, Json.quoted, opening, body, closing, List.append_assoc]
      rfl
  | strings names =>
      simp only [written, Written.array, Json.Layout.print, opening, body, closing, List.map_map]
      rfl
  | bool b => cases b <;> rfl

end Content

/-- A named object of fields. -/
structure View where
  name : String
  fields : List (String × Content)

namespace View

def fieldMember (field : String × Content) : Json.Member :=
  Written.member (text field.1.toList) field.2.written

/-- The object, a field a line. -/
def written (view : View) : Written := .object (.lines 2 0) (view.fields.map fieldMember)

def member (view : View) : Json.Member := Written.member (text view.name.toList) view.written

def json (view : View) : Json.Value :=
  .object (view.fields.map fun field => (text field.1.toList, field.2.json))

structure Clean (view : View) : Prop where
  name : Json.Clean (text view.name.toList)
  fields : ∀ field ∈ view.fields, Json.Clean (text field.1.toList) ∧ field.2.Clean

theorem written_value (view : View) : view.written.value = view.json := by
  simp only [written, Written.object, json, List.map_map]
  congr 1
  apply List.map_congr_left
  intro field _
  simp only [Function.comp_apply, fieldMember, Written.member, Content.written_value]

theorem written_sound {view : View} (clean : view.Clean) : view.written.sound := by
  change ∀ printed ∈ view.fields.map fieldMember, printed.sound
  refine List.forall_mem_map.mpr fun field inside => ?_
  have held := clean.fields field inside
  exact ⟨held.1, Content.written_sound held.2⟩

theorem member_sound {view : View} (clean : view.Clean) : view.member.sound :=
  ⟨clean.name, written_sound clean⟩

/-- A field on its line. -/
def printField (field : String × Content) (ending : String) : List UInt8 :=
  text ("  \"" ++ field.1 ++ "\": " ++ field.2.opening).toList ++
    (field.2.body ++ text (field.2.closing ++ ending).toList)

def printFields : List (String × Content) → List UInt8
  | [] => []
  | [field] => printField field "\n"
  | field :: next :: fields => printField field ",\n" ++ printFields (next :: fields)

theorem print_fields_append (front : List (String × Content)) (field : String × Content)
    (fields : List (String × Content)) : printFields (front ++ field :: fields) =
      front.flatMap (printField · ",\n") ++ printFields (field :: fields) := by
  induction front with
  | nil => rfl
  | cons first front ih =>
      rw [List.flatMap_cons, List.append_assoc, ← ih]
      cases front <;> rfl

theorem text_append (left right : String) :
    text (left ++ right).toList = text left.toList ++ text right.toList := by
  rw [String.toList_append]
  exact List.map_append

theorem print_field (field : String × Content) (ending : String) : printField field ending =
    text "  ".toList ++ ((fieldMember field).text ++ text ending.toList) := by
  simp only [printField, fieldMember, Written.member, Json.quoted, Content.written_text,
    text_append, List.append_assoc, List.cons_append]
  rfl

theorem fields_print (field : String × Content) (fields : List (String × Content))
    (rest : List UInt8) : text "  ".toList ++ ((fieldMember field).text ++
      (((fields.map fieldMember).map Json.Printed.text).flatMap (fun row =>
        Json.comma :: ((Json.Layout.lines 2 0).between ++ row)) ++ Json.newline :: rest)) =
      printFields (field :: fields) ++ rest := by
  induction fields generalizing field with
  | nil =>
      simp only [printFields, print_field, List.map_nil, List.flatMap_nil, List.append_assoc]
      rfl
  | cons next fields ih =>
      rw [printFields, List.append_assoc, ← ih next, print_field]
      simp only [List.map_cons, List.flatMap_cons, List.append_assoc, List.cons_append]
      rfl

theorem member_text (view : View) : view.member.text =
    text ("\"" ++ view.name ++ "\": \x7b\n").toList ++
      (printFields view.fields ++ text "\x7d".toList) := by
  have rows : (Json.Layout.lines 2 0).rows ((view.fields.map fieldMember).map Json.Printed.text) ++
      [Json.newline, Json.closeObject] =
        Json.newline :: (printFields view.fields ++ [Json.closeObject]) := by
    cases view.fields with
    | nil => rfl
    | cons field fields =>
        rw [List.map_cons, List.map_cons, Json.Layout.rows_cons, ← fields_print]
        simp only [List.append_assoc]
        rfl
  have printed : view.written.text = text "\x7b\n".toList ++
      (printFields view.fields ++ text "\x7d".toList) :=
    congrArg (Json.openObject :: ·) rows
  simp only [member, Written.member, Json.quoted, printed, text_append, List.append_assoc,
    List.cons_append]
  rfl

theorem member_value (view : View) : view.member.value = (text view.name.toList, view.json) :=
  congrArg (Prod.mk _) view.written_value

end View

section Texts

theorem hexadecimal_clean (n : Nat) : Json.Clean (hexadecimal n) := by
  have digits : ∀ d : Fin 16, Json.isPlain (code (Nat.digitChar d)) = true := by decide
  intro byte inside
  obtain ⟨d, small, rfl⟩ := hexadecimal_digits n byte inside
  exact digits ⟨d, small⟩

theorem hex_byte_clean (byte : UInt8) : Json.Clean (hexByte byte) :=
  hex_clean fun c inside => Or.inl (Ip.V6.hex_byte_hex byte c inside)

theorem clean_append {left right : List UInt8} (first : Json.Clean left)
    (second : Json.Clean right) : Json.Clean (left ++ right) :=
  List.forall_mem_append.mpr ⟨first, second⟩

theorem clean_flat_map {Item : Type} {items : List Item} {print : Item → List UInt8}
    (each : ∀ item ∈ items, Json.Clean (print item)) : Json.Clean (items.flatMap print) := by
  intro byte inside
  obtain ⟨item, listed, printed⟩ := List.mem_flatMap.mp inside
  exact each item listed byte printed

theorem hex_padded_clean (width n : Nat) : Json.Clean (hexPadded width n) := by
  refine clean_append ?_ (hexadecimal_clean n)
  intro byte inside
  rw [List.eq_of_mem_replicate inside]
  decide

theorem clean_either {condition : Prop} [Decidable condition] {left right : String}
    (first : Json.Clean (text left.toList)) (second : Json.Clean (text right.toList)) :
    Json.Clean (text (if condition then left else right).toList) := by
  split_ifs
  · exact first
  · exact second

theorem v6_printed_clean (ip : List UInt8) : Json.Clean (Ip.V6.printIp ip) := by
  obtain ⟨groups, denotes⟩ : ∃ groups, Ip.V6.Denotes (Ip.V6.printIp ip) groups :=
    ⟨_, Ip.V6.print_ip_denotes ip⟩
  exact hex_clean fun c inside => Ip.V6.denotes_mem denotes inside

theorem v4_word_clean (ip : UInt32) : Json.Clean (Ip.V4.printIpWord ip) := by
  have digits (n : Nat) : Json.Clean (decimal n) := by
    refine clean_of_test isdigit rfl rfl (by decide) ?_
    exact decimal_digits n
  have point : Json.Clean [code '.'] := by decide
  unfold Ip.V4.printIpWord
  exact clean_append (clean_append (clean_append (clean_append (clean_append (clean_append
    (digits _) point) (digits _)) point) (digits _)) point) (digits _)

end Texts

namespace Ethernet

def printMac (mac : List UInt8) : List UInt8 :=
  (List.range 6).flatMap fun i =>
    (if i ≠ 0 then text ":".toList else []) ++ hexByte (byteAt mac i)

def Header.toJson (header : Header) : List UInt8 :=
  text "\"ethernet\": \x7b\n".toList ++
    text "  \"dst_mac\": \"".toList ++ printMac header.dstMac ++ text "\",\n".toList ++
    text "  \"src_mac\": \"".toList ++ printMac header.srcMac ++ text "\",\n".toList ++
    text "  \"ethertype\": \"0x".toList ++ hexPadded 4 header.ethertype.toNat ++
    text "\"\n".toList ++ text "\x7d".toList

def Header.view (header : Header) : View where
  name := "ethernet"
  fields := [
    ("dst_mac", .string (printMac header.dstMac)),
    ("src_mac", .string (printMac header.srcMac)),
    ("ethertype", .hex (hexPadded 4 header.ethertype.toNat))]

theorem to_json_view (header : Header) : header.toJson = header.view.member.text := by
  unfold Header.toJson
  simp only [Header.view, View.member_text, View.printFields, View.printField, Content.opening,
    Content.body, Content.closing, String.reduceAppend, List.append_assoc]

theorem mac_clean (mac : List UInt8) : Json.Clean (printMac mac) := by
  apply clean_flat_map
  intro i _
  apply clean_append _ (hex_byte_clean _)
  split_ifs <;> decide

theorem view_clean (header : Header) : header.view.Clean := by
  have keys : Json.Clean (text "ethernet".toList) ∧ Json.Clean (text "dst_mac".toList) ∧
      Json.Clean (text "src_mac".toList) ∧ Json.Clean (text "ethertype".toList) := by decide +kernel
  refine ⟨keys.1, ?_⟩
  simp only [Header.view, Content.Clean, List.forall_mem_cons, List.not_mem_nil, false_implies,
    implies_true, and_true, keys, mac_clean, hex_padded_clean]

end Ethernet

namespace Vlan

def Header.pcp (header : Header) : UInt8 := (header.tci >>> 13).toUInt8
def Header.dei (header : Header) : UInt8 := ((header.tci >>> 12) &&& 0x1).toUInt8

def Header.toJson (header : Header) : List UInt8 :=
  text "\"vlan\": \x7b\n".toList ++
    text "  \"pcp\": ".toList ++ decimal header.pcp.toNat ++ text ",\n".toList ++
    text "  \"dei\": ".toList ++ decimal header.dei.toNat ++ text ",\n".toList ++
    text "  \"vid\": ".toList ++ decimal header.vid.toNat ++ text ",\n".toList ++
    text "  \"ethertype\": \"0x".toList ++ hexPadded 4 header.ethertype.toNat ++
    text "\"\n".toList ++ text "\x7d".toList

def Header.view (header : Header) : View where
  name := "vlan"
  fields := [
    ("pcp", .number header.pcp.toNat),
    ("dei", .number header.dei.toNat),
    ("vid", .number header.vid.toNat),
    ("ethertype", .hex (hexPadded 4 header.ethertype.toNat))]

theorem to_json_view (header : Header) : header.toJson = header.view.member.text := by
  unfold Header.toJson
  simp only [Header.view, View.member_text, View.printFields, View.printField, Content.opening,
    Content.body, Content.closing, String.reduceAppend, List.append_assoc]

theorem view_clean (header : Header) : header.view.Clean := by
  have keys : Json.Clean (text "vlan".toList) ∧ Json.Clean (text "pcp".toList) ∧
      Json.Clean (text "dei".toList) ∧ Json.Clean (text "vid".toList) ∧
      Json.Clean (text "ethertype".toList) := by decide +kernel
  refine ⟨keys.1, ?_⟩
  simp only [Header.view, Content.Clean, List.forall_mem_cons, List.not_mem_nil, false_implies,
    implies_true, and_true, keys, hex_padded_clean]

end Vlan

namespace Arp

def htypeEthernet : UInt16 := 1

/-- `printHex` of the bytes an address pointer points at. -/
def printHex (p : List UInt8) (len : UInt8) : List UInt8 :=
  (List.range len.toNat).flatMap fun i =>
    (if i ≠ 0 then text "-".toList else []) ++ hexByte (byteAt p i)

def Header.printHw (header : Header) (p : List UInt8) : List UInt8 :=
  if header.htype = htypeEthernet ∧ header.hlen = 6 then Ethernet.printMac p
  else printHex p header.hlen

def Header.printProto (header : Header) (p : List UInt8) : List UInt8 :=
  if header.ptype = Ethernet.ethertypeIpv4 ∧ header.plen = 4 then Ip.V4.printIp p
  else printHex p header.plen

def Header.toJson (header : Header) : List UInt8 :=
  text "\"arp\": \x7b\n".toList ++
    text "  \"htype\": ".toList ++ decimal header.htype.toNat ++ text ",\n".toList ++
    text "  \"ptype\": \"0x".toList ++ hexPadded 4 header.ptype.toNat ++ text "\",\n".toList ++
    text "  \"oper\": ".toList ++ decimal header.oper.toNat ++ text ",\n".toList ++
    text "  \"sha\": \"".toList ++ header.printHw header.sha ++ text "\",\n".toList ++
    text "  \"spa\": \"".toList ++ header.printProto header.spa ++ text "\",\n".toList ++
    text "  \"tha\": \"".toList ++ header.printHw header.tha ++ text "\",\n".toList ++
    text "  \"tpa\": \"".toList ++ header.printProto header.tpa ++ text "\"\n".toList ++
    text "\x7d".toList

def Header.view (header : Header) : View where
  name := "arp"
  fields := [
    ("htype", .number header.htype.toNat),
    ("ptype", .hex (hexPadded 4 header.ptype.toNat)),
    ("oper", .number header.oper.toNat),
    ("sha", .string (header.printHw header.sha)),
    ("spa", .string (header.printProto header.spa)),
    ("tha", .string (header.printHw header.tha)),
    ("tpa", .string (header.printProto header.tpa))]

theorem to_json_view (header : Header) : header.toJson = header.view.member.text := by
  unfold Header.toJson
  simp only [Header.view, View.member_text, View.printFields, View.printField, Content.opening,
    Content.body, Content.closing, String.reduceAppend, List.append_assoc]

theorem hex_clean (p : List UInt8) (len : UInt8) : Json.Clean (printHex p len) := by
  apply clean_flat_map
  intro i _
  apply clean_append _ (hex_byte_clean _)
  split_ifs <;> decide

theorem hw_clean (header : Header) (p : List UInt8) : Json.Clean (header.printHw p) := by
  unfold Header.printHw
  split_ifs
  · exact Ethernet.mac_clean p
  · exact hex_clean p header.hlen

theorem proto_clean (header : Header) (p : List UInt8) : Json.Clean (header.printProto p) := by
  unfold Header.printProto
  split_ifs
  · exact Dns.v4_printed_clean p
  · exact hex_clean p header.plen

theorem view_clean (header : Header) : header.view.Clean := by
  have keys : Json.Clean (text "arp".toList) ∧ Json.Clean (text "htype".toList) ∧
      Json.Clean (text "ptype".toList) ∧ Json.Clean (text "oper".toList) ∧
      Json.Clean (text "sha".toList) ∧ Json.Clean (text "spa".toList) ∧
      Json.Clean (text "tha".toList) ∧ Json.Clean (text "tpa".toList) := by decide +kernel
  refine ⟨keys.1, ?_⟩
  simp only [Header.view, Content.Clean, List.forall_mem_cons, List.not_mem_nil, false_implies,
    implies_true, and_true, keys, hw_clean, proto_clean, hex_padded_clean]

end Arp

namespace Ip

def protocolEsp : UInt8 := 50
def protocolIpv6Nonxt : UInt8 := 59

def protocolName (protocol : UInt8) : List UInt8 :=
  text <| String.toList <|
    if protocol = protocolTcp then "TCP"
    else if protocol = protocolUdp then "UDP"
    else if protocol = protocolIcmp then "ICMP"
    else if protocol = protocolIcmpv6 then "ICMPV6"
    else if protocol = protocolHopopt then "HOPOPT"
    else if protocol = protocolIpv6Route then "IPv6-Route"
    else if protocol = protocolIpv6Frag then "IPv6-Frag"
    else if protocol = protocolEsp then "ESP"
    else if protocol = protocolAh then "AH"
    else if protocol = protocolIpv6Nonxt then "IPv6-NoNxt"
    else if protocol = protocolIpv6Opts then "IPv6-Opts"
    else if protocol = protocolMobility then "Mobility"
    else if protocol = protocolHip then "HIP"
    else if protocol = protocolShim6 then "Shim6"
    else "?"

theorem protocol_name_clean (protocol : UInt8) : Json.Clean (protocolName protocol) := by
  unfold protocolName
  iterate 14 refine clean_either (by decide) ?_
  decide

namespace V4

def Header.flags (header : Header) : UInt8 := (header.flagsFragment >>> 13).toUInt8
def Header.dontFragment (header : Header) : Bool := header.flags &&& 0x2 ≠ 0
def Header.moreFragments (header : Header) : Bool := header.flags &&& 0x1 ≠ 0

/-- The flags between brackets: `firstFlag` tells whether a comma is due. -/
def Header.printFlags (header : Header) : List UInt8 :=
  let (out, firstFlag) :=
    if header.dontFragment then (text "\"DF\"".toList, false) else ([], true)
  if header.moreFragments then
    out ++ (if !firstFlag then text ", ".toList else []) ++ text "\"MF\"".toList
  else out

def Header.toJson (header : Header) : List UInt8 :=
  text "\"ipv4\": \x7b\n".toList ++
    text "  \"version\": ".toList ++ decimal header.version.toNat ++ text ",\n".toList ++
    text "  \"ihl\": ".toList ++ decimal header.ihl.toNat ++ text ",\n".toList ++
    text "  \"tos\": \"0x".toList ++ hexByte header.tos ++ text "\",\n".toList ++
    text "  \"total_length\": ".toList ++ decimal header.totalLength.toNat ++ text ",\n".toList ++
    text "  \"identification\": ".toList ++ decimal header.identification.toNat ++
    text ",\n".toList ++ text "  \"flags\": [".toList ++ header.printFlags ++ text "],\n".toList ++
    text "  \"fragment\": \"0x".toList ++ hexPadded 4 header.fragment.toNat ++
    text "\",\n".toList ++
    text "  \"ttl\": ".toList ++ decimal header.ttl.toNat ++ text ",\n".toList ++
    text "  \"protocol\": ".toList ++ decimal header.protocol.toNat ++ text ",\n".toList ++
    text "  \"checksum\": \"0x".toList ++ hexadecimal header.checksum.toNat ++
    text "\",\n".toList ++
    text "  \"src_ip\": \"".toList ++ printIpWord header.srcIp ++ text "\",\n".toList ++
    text "  \"dst_ip\": \"".toList ++ printIpWord header.dstIp ++ text "\"\n".toList ++
    text "\x7d".toList

def Header.flagNames (header : Header) : List (List UInt8) :=
  (if header.dontFragment then [text "DF".toList] else []) ++
    (if header.moreFragments then [text "MF".toList] else [])

def Header.view (header : Header) : View where
  name := "ipv4"
  fields := [
    ("version", .number header.version.toNat),
    ("ihl", .number header.ihl.toNat),
    ("tos", .hex (hexByte header.tos)),
    ("total_length", .number header.totalLength.toNat),
    ("identification", .number header.identification.toNat),
    ("flags", .strings header.flagNames),
    ("fragment", .hex (hexPadded 4 header.fragment.toNat)),
    ("ttl", .number header.ttl.toNat),
    ("protocol", .number header.protocol.toNat),
    ("checksum", .hex (hexadecimal header.checksum.toNat)),
    ("src_ip", .string (printIpWord header.srcIp)),
    ("dst_ip", .string (printIpWord header.dstIp))]

theorem flags_text (header : Header) :
    (Content.strings header.flagNames).body = header.printFlags := by
  unfold Header.flagNames Header.printFlags
  cases header.dontFragment <;> cases header.moreFragments <;> rfl

theorem flag_names_clean (header : Header) : ∀ s ∈ header.flagNames, Json.Clean s := by
  unfold Header.flagNames
  cases header.dontFragment <;> cases header.moreFragments <;> decide

theorem to_json_view (header : Header) : header.toJson = header.view.member.text := by
  unfold Header.toJson
  simp only [Header.view, View.member_text, View.printFields, View.printField, Content.opening,
    flags_text, Content.closing, String.reduceAppend, List.append_assoc]
  simp only [Content.body]

theorem view_clean (header : Header) : header.view.Clean := by
  have keys : Json.Clean (text "ipv4".toList) ∧ Json.Clean (text "version".toList) ∧
      Json.Clean (text "ihl".toList) ∧ Json.Clean (text "tos".toList) ∧
      Json.Clean (text "total_length".toList) ∧ Json.Clean (text "identification".toList) ∧
      Json.Clean (text "flags".toList) ∧ Json.Clean (text "fragment".toList) ∧
      Json.Clean (text "ttl".toList) ∧ Json.Clean (text "protocol".toList) ∧
      Json.Clean (text "checksum".toList) ∧ Json.Clean (text "src_ip".toList) ∧
      Json.Clean (text "dst_ip".toList) := by decide +kernel
  refine ⟨keys.1, ?_⟩
  simp only [Header.view, Content.Clean, List.forall_mem_cons, List.not_mem_nil, false_implies,
    implies_true, and_true, true_and, keys, v4_word_clean, hex_byte_clean,
    hex_padded_clean, hexadecimal_clean]
  exact flag_names_clean header

end V4

namespace V6

def Header.tc (header : Header) : UInt8 := ((header.versionTcFl >>> 20) &&& 0xFF).toUInt8
def Header.fl (header : Header) : UInt32 := header.versionTcFl &&& 0x000FFFFF

def Header.toJson (header : Header) : List UInt8 :=
  text "\"ipv6\": \x7b\n".toList ++
    text "  \"version\": ".toList ++ decimal header.version.toNat ++ text ",\n".toList ++
    text "  \"traffic_class\": ".toList ++ decimal header.tc.toNat ++ text ",\n".toList ++
    text "  \"flow_label\": \"0x".toList ++ hexPadded 5 header.fl.toNat ++ text "\",\n".toList ++
    text "  \"payload_length\": ".toList ++ decimal header.payloadLength.toNat ++
    text ",\n".toList ++
    text "  \"next_header\": ".toList ++ decimal header.nextHeader.toNat ++ text ",\n".toList ++
    text "  \"hop_limit\": ".toList ++ decimal header.hopLimit.toNat ++ text ",\n".toList ++
    text "  \"src_ip\": \"".toList ++ printIp header.srcIp ++ text "\",\n".toList ++
    text "  \"dst_ip\": \"".toList ++ printIp header.dstIp ++ text "\"\n".toList ++
    text "\x7d".toList

def Header.view (header : Header) : View where
  name := "ipv6"
  fields := [
    ("version", .number header.version.toNat),
    ("traffic_class", .number header.tc.toNat),
    ("flow_label", .hex (hexPadded 5 header.fl.toNat)),
    ("payload_length", .number header.payloadLength.toNat),
    ("next_header", .number header.nextHeader.toNat),
    ("hop_limit", .number header.hopLimit.toNat),
    ("src_ip", .string (printIp header.srcIp)),
    ("dst_ip", .string (printIp header.dstIp))]

theorem to_json_view (header : Header) : header.toJson = header.view.member.text := by
  unfold Header.toJson
  simp only [Header.view, View.member_text, View.printFields, View.printField, Content.opening,
    Content.body, Content.closing, String.reduceAppend, List.append_assoc]

theorem view_clean (header : Header) : header.view.Clean := by
  have keys : Json.Clean (text "ipv6".toList) ∧ Json.Clean (text "version".toList) ∧
      Json.Clean (text "traffic_class".toList) ∧ Json.Clean (text "flow_label".toList) ∧
      Json.Clean (text "payload_length".toList) ∧ Json.Clean (text "next_header".toList) ∧
      Json.Clean (text "hop_limit".toList) ∧ Json.Clean (text "src_ip".toList) ∧
      Json.Clean (text "dst_ip".toList) := by decide +kernel
  refine ⟨keys.1, ?_⟩
  simp only [Header.view, Content.Clean, List.forall_mem_cons, List.not_mem_nil, false_implies,
    implies_true, and_true, keys, v6_printed_clean, hex_padded_clean]

namespace Ext

/-- What is printed behind the length. -/
def Header.printRest (header : Header) : List UInt8 :=
  if header.type = protocolIpv6Route then
    text ",\n".toList ++
      text "  \"routing_type\": ".toList ++ decimal header.routingType.toNat ++
      text ",\n".toList ++
      text "  \"segments_left\": ".toList ++ decimal header.segmentsLeft.toNat ++
      (if header.hasFinalDst then
        text ",\n  \"final_dst\": \"".toList ++ printIp header.finalDst ++ text "\"".toList
      else [])
  else if header.type = protocolIpv6Frag then
    text ",\n".toList ++
      text "  \"fragment_offset\": ".toList ++ decimal header.fragmentOffset.toNat ++
      text ",\n".toList ++
      text "  \"more_fragments\": ".toList ++
      printBool header.moreFragments ++ text ",\n".toList ++
      text "  \"identification\": \"0x".toList ++ hexPadded 8 header.identification.toNat ++
      text "\"".toList
  else if header.type = protocolAh then
    text ",\n".toList ++
      text "  \"spi\": \"0x".toList ++ hexPadded 8 header.spi.toNat ++ text "\"".toList
  else []

def Header.toJson (header : Header) : List UInt8 :=
  text "\"ipv6_ext\": \x7b\n".toList ++
    text "  \"type\": ".toList ++ decimal header.type.toNat ++ text ",\n".toList ++
    text "  \"name\": \"".toList ++ protocolName header.type ++ text "\",\n".toList ++
    text "  \"next_header\": ".toList ++ decimal header.nextHeader.toNat ++ text ",\n".toList ++
    text "  \"length\": ".toList ++ decimal header.length.toNat ++ header.printRest ++
    text "\n\x7d".toList

/-- The fields of the types that have any. -/
def Header.ownFields (header : Header) : List (String × Content) :=
  if header.type = protocolIpv6Route then
    [("routing_type", .number header.routingType.toNat),
      ("segments_left", .number header.segmentsLeft.toNat)] ++
    (if header.hasFinalDst then [("final_dst", .string (printIp header.finalDst))] else [])
  else if header.type = protocolIpv6Frag then
    [("fragment_offset", .number header.fragmentOffset.toNat),
      ("more_fragments", .bool header.moreFragments),
      ("identification", .hex (hexPadded 8 header.identification.toNat))]
  else if header.type = protocolAh then
    [("spi", .hex (hexPadded 8 header.spi.toNat))]
  else []

def Header.view (header : Header) : View where
  name := "ipv6_ext"
  fields := [
    ("type", .number header.type.toNat),
    ("name", .string (protocolName header.type)),
    ("next_header", .number header.nextHeader.toNat),
    ("length", .number header.length.toNat)] ++ header.ownFields

theorem to_json_view (header : Header) : header.toJson = header.view.member.text := by
  unfold Header.toJson Header.printRest
  simp only [Header.view, Header.ownFields, View.member_text]
  split_ifs
  all_goals
    simp only [View.printFields, View.printField, Content.opening, Content.body, Content.closing,
      String.reduceAppend, List.append_assoc, List.cons_append, List.nil_append, List.append_nil]
    rfl

theorem own_fields_clean (header : Header) :
    ∀ field ∈ header.ownFields, Json.Clean (text field.1.toList) ∧ field.2.Clean := by
  have route : Json.Clean (text "routing_type".toList) ∧
      Json.Clean (text "segments_left".toList) ∧ Json.Clean (text "final_dst".toList) := by decide +kernel
  have others : Json.Clean (text "fragment_offset".toList) ∧
      Json.Clean (text "more_fragments".toList) ∧ Json.Clean (text "identification".toList) ∧
      Json.Clean (text "spi".toList) := by decide +kernel
  unfold Header.ownFields
  split_ifs
  all_goals
    simp only [Content.Clean, List.forall_mem_cons, List.forall_mem_append, List.not_mem_nil,
      false_implies, implies_true, and_true, route, others, v6_printed_clean,
      hex_padded_clean]

theorem view_clean (header : Header) : header.view.Clean := by
  have keys : Json.Clean (text "ipv6_ext".toList) ∧ Json.Clean (text "type".toList) ∧
      Json.Clean (text "name".toList) ∧ Json.Clean (text "next_header".toList) ∧
      Json.Clean (text "length".toList) := by decide +kernel
  refine ⟨keys.1, ?_⟩
  simp only [Header.view, Content.Clean, List.forall_mem_cons, List.forall_mem_append,
    List.not_mem_nil, false_implies, implies_true, and_true, true_and, keys, protocol_name_clean]
  exact own_fields_clean header

end Ext

end V6

end Ip

namespace Udp

def Header.toJson (header : Header) : List UInt8 :=
  text "\"udp\": \x7b\n".toList ++
    text "  \"src_port\": ".toList ++ decimal header.srcPort.toNat ++ text ",\n".toList ++
    text "  \"dst_port\": ".toList ++ decimal header.dstPort.toNat ++ text ",\n".toList ++
    text "  \"length\": ".toList ++ decimal header.length.toNat ++ text ",\n".toList ++
    text "  \"checksum\": \"0x".toList ++ hexPadded 4 header.checksum.toNat ++
    text "\"\n".toList ++ text "\x7d".toList

def Header.view (header : Header) : View where
  name := "udp"
  fields := [
    ("src_port", .number header.srcPort.toNat),
    ("dst_port", .number header.dstPort.toNat),
    ("length", .number header.length.toNat),
    ("checksum", .hex (hexPadded 4 header.checksum.toNat))]

theorem to_json_view (header : Header) : header.toJson = header.view.member.text := by
  unfold Header.toJson
  simp only [Header.view, View.member_text, View.printFields, View.printField, Content.opening,
    Content.body, Content.closing, String.reduceAppend, List.append_assoc]

theorem view_clean (header : Header) : header.view.Clean := by
  have keys : Json.Clean (text "udp".toList) ∧ Json.Clean (text "src_port".toList) ∧
      Json.Clean (text "dst_port".toList) ∧ Json.Clean (text "length".toList) ∧
      Json.Clean (text "checksum".toList) := by decide +kernel
  refine ⟨keys.1, ?_⟩
  simp only [Header.view, Content.Clean, List.forall_mem_cons, List.not_mem_nil, false_implies,
    implies_true, and_true, keys, hex_padded_clean]

end Udp

namespace Tcp

def Header.toJson (header : Header) : List UInt8 :=
  text "\"tcp\": \x7b\n".toList ++
    text "  \"src_port\": ".toList ++ decimal header.srcPort.toNat ++ text ",\n".toList ++
    text "  \"dst_port\": ".toList ++ decimal header.dstPort.toNat ++ text ",\n".toList ++
    text "  \"seq_number\": ".toList ++ decimal header.seqNumber.toNat ++ text ",\n".toList ++
    text "  \"ack_number\": ".toList ++ decimal header.ackNumber.toNat ++ text ",\n".toList ++
    text "  \"data_offset\": ".toList ++ decimal header.dataOffset.toNat ++ text ",\n".toList ++
    text "  \"flags\": \"0x".toList ++ hexByte header.flags ++ text "\",\n".toList ++
    text "  \"window_size\": ".toList ++ decimal header.windowSize.toNat ++ text ",\n".toList ++
    text "  \"checksum\": \"0x".toList ++ hexPadded 4 header.checksum.toNat ++
    text "\",\n".toList ++
    text "  \"urgent_pointer\": ".toList ++ decimal header.urgentPointer.toNat ++
    text "\n".toList ++ text "\x7d".toList

def Header.view (header : Header) : View where
  name := "tcp"
  fields := [
    ("src_port", .number header.srcPort.toNat),
    ("dst_port", .number header.dstPort.toNat),
    ("seq_number", .number header.seqNumber.toNat),
    ("ack_number", .number header.ackNumber.toNat),
    ("data_offset", .number header.dataOffset.toNat),
    ("flags", .hex (hexByte header.flags)),
    ("window_size", .number header.windowSize.toNat),
    ("checksum", .hex (hexPadded 4 header.checksum.toNat)),
    ("urgent_pointer", .number header.urgentPointer.toNat)]

theorem to_json_view (header : Header) : header.toJson = header.view.member.text := by
  unfold Header.toJson
  simp only [Header.view, View.member_text, View.printFields, View.printField, Content.opening,
    Content.body, Content.closing, String.reduceAppend, List.append_assoc]

theorem view_clean (header : Header) : header.view.Clean := by
  have keys : Json.Clean (text "tcp".toList) ∧ Json.Clean (text "src_port".toList) ∧
      Json.Clean (text "dst_port".toList) ∧ Json.Clean (text "seq_number".toList) ∧
      Json.Clean (text "ack_number".toList) ∧ Json.Clean (text "data_offset".toList) ∧
      Json.Clean (text "flags".toList) ∧ Json.Clean (text "window_size".toList) ∧
      Json.Clean (text "checksum".toList) ∧ Json.Clean (text "urgent_pointer".toList) := by decide +kernel
  refine ⟨keys.1, ?_⟩
  simp only [Header.view, Content.Clean, List.forall_mem_cons, List.not_mem_nil, false_implies,
    implies_true, and_true, keys, hex_byte_clean,
    hex_padded_clean]

end Tcp

namespace Icmp

/-- What is printed between the code and the checksum. -/
def Header.printRest (header : Header) : List UInt8 :=
  if header.type = typeRedirect then
    text "  \"gateway\": \"".toList ++ Ip.V4.printIpWord header.gateway ++ text "\",\n".toList
  else if header.type = typeParamProblem then
    text "  \"pointer\": ".toList ++ decimal header.pointer.toNat ++ text ",\n".toList
  else if isEcho header.type then
    text "  \"id\": ".toList ++ decimal header.echoId.toNat ++ text ",\n".toList ++
      text "  \"seq\": ".toList ++ decimal header.echoSeq.toNat ++ text ",\n".toList
  else []

def Header.toJson (header : Header) : List UInt8 :=
  text "\"icmp\": \x7b\n".toList ++
    text "  \"type\": ".toList ++ decimal header.type.toNat ++ text ",\n".toList ++
    text "  \"code\": ".toList ++ decimal header.code.toNat ++ text ",\n".toList ++
    header.printRest ++
    text "  \"checksum\": \"0x".toList ++ hexPadded 4 header.checksum.toNat ++
    text "\"\n".toList ++ text "\x7d".toList

def Header.ownFields (header : Header) : List (String × Content) :=
  if header.type = typeRedirect then
    [("gateway", .string (Ip.V4.printIpWord header.gateway))]
  else if header.type = typeParamProblem then [("pointer", .number header.pointer.toNat)]
  else if isEcho header.type then
    [("id", .number header.echoId.toNat), ("seq", .number header.echoSeq.toNat)]
  else []

def Header.view (header : Header) : View where
  name := "icmp"
  fields := [("type", .number header.type.toNat), ("code", .number header.code.toNat)] ++
    header.ownFields ++
    [("checksum", .hex (hexPadded 4 header.checksum.toNat))]

theorem own_fields_text (header : Header) :
    header.printRest = header.ownFields.flatMap (View.printField · ",\n") := by
  unfold Header.printRest Header.ownFields
  split_ifs
  all_goals
    simp only [View.printField, Content.opening, Content.body, Content.closing,
      String.reduceAppend, List.flatMap_cons, List.flatMap_nil, List.append_assoc, List.append_nil]

theorem to_json_view (header : Header) : header.toJson = header.view.member.text := by
  unfold Header.toJson Header.view
  rw [View.member_text, View.print_fields_append, List.flatMap_append, ← own_fields_text]
  simp only [List.flatMap_cons, List.flatMap_nil, View.printFields, View.printField,
    Content.opening, Content.body, Content.closing, String.reduceAppend, List.append_assoc,
    List.nil_append]

theorem own_fields_clean (header : Header) :
    ∀ field ∈ header.ownFields, Json.Clean (text field.1.toList) ∧ field.2.Clean := by
  have keys : Json.Clean (text "gateway".toList) ∧ Json.Clean (text "pointer".toList) ∧
      Json.Clean (text "id".toList) ∧ Json.Clean (text "seq".toList) := by decide +kernel
  unfold Header.ownFields
  split_ifs
  all_goals
    simp only [Content.Clean, List.forall_mem_cons, List.not_mem_nil, false_implies,
      implies_true, and_true, keys, v4_word_clean]

theorem view_clean (header : Header) : header.view.Clean := by
  have keys : Json.Clean (text "icmp".toList) ∧ Json.Clean (text "type".toList) ∧
      Json.Clean (text "code".toList) ∧ Json.Clean (text "checksum".toList) := by decide +kernel
  refine ⟨keys.1, ?_⟩
  simp only [Header.view, Content.Clean, List.forall_mem_cons, List.forall_mem_append,
    List.not_mem_nil, false_implies, implies_true, and_true, true_and, keys,
    hex_padded_clean]
  exact own_fields_clean header

end Icmp

namespace Icmpv6

/-- What is printed between the code and the checksum. -/
def Header.printRest (header : Header) : List UInt8 :=
  if header.type = typePacketTooBig then
    text "  \"mtu\": ".toList ++ decimal header.mtu.toNat ++ text ",\n".toList
  else if header.type = typeParamProblem then
    text "  \"pointer\": ".toList ++ decimal header.pointer.toNat ++ text ",\n".toList
  else if isEcho header.type then
    text "  \"id\": ".toList ++ decimal header.echoId.toNat ++ text ",\n".toList ++
      text "  \"seq\": ".toList ++ decimal header.echoSeq.toNat ++ text ",\n".toList
  else []

def Header.toJson (header : Header) : List UInt8 :=
  text "\"icmpv6\": \x7b\n".toList ++
    text "  \"type\": ".toList ++ decimal header.type.toNat ++ text ",\n".toList ++
    text "  \"code\": ".toList ++ decimal header.code.toNat ++ text ",\n".toList ++
    header.printRest ++
    text "  \"checksum\": \"0x".toList ++ hexPadded 4 header.checksum.toNat ++
    text "\"\n".toList ++ text "\x7d".toList

def Header.ownFields (header : Header) : List (String × Content) :=
  if header.type = typePacketTooBig then [("mtu", .number header.mtu.toNat)]
  else if header.type = typeParamProblem then [("pointer", .number header.pointer.toNat)]
  else if isEcho header.type then
    [("id", .number header.echoId.toNat), ("seq", .number header.echoSeq.toNat)]
  else []

def Header.view (header : Header) : View where
  name := "icmpv6"
  fields := [("type", .number header.type.toNat), ("code", .number header.code.toNat)] ++
    header.ownFields ++
    [("checksum", .hex (hexPadded 4 header.checksum.toNat))]

theorem own_fields_text (header : Header) :
    header.printRest = header.ownFields.flatMap (View.printField · ",\n") := by
  unfold Header.printRest Header.ownFields
  split_ifs
  all_goals
    simp only [View.printField, Content.opening, Content.body, Content.closing,
      String.reduceAppend, List.flatMap_cons, List.flatMap_nil, List.append_assoc, List.append_nil]

theorem to_json_view (header : Header) : header.toJson = header.view.member.text := by
  unfold Header.toJson Header.view
  rw [View.member_text, View.print_fields_append, List.flatMap_append, ← own_fields_text]
  simp only [List.flatMap_cons, List.flatMap_nil, View.printFields, View.printField,
    Content.opening, Content.body, Content.closing, String.reduceAppend, List.append_assoc,
    List.nil_append]

theorem own_fields_clean (header : Header) :
    ∀ field ∈ header.ownFields, Json.Clean (text field.1.toList) ∧ field.2.Clean := by
  have keys : Json.Clean (text "mtu".toList) ∧ Json.Clean (text "pointer".toList) ∧
      Json.Clean (text "id".toList) ∧ Json.Clean (text "seq".toList) := by decide +kernel
  unfold Header.ownFields
  split_ifs
  all_goals
    simp only [Content.Clean, List.forall_mem_cons, List.not_mem_nil, false_implies,
      implies_true, and_true, keys]

theorem view_clean (header : Header) : header.view.Clean := by
  have keys : Json.Clean (text "icmpv6".toList) ∧ Json.Clean (text "type".toList) ∧
      Json.Clean (text "code".toList) ∧ Json.Clean (text "checksum".toList) := by decide +kernel
  refine ⟨keys.1, ?_⟩
  simp only [Header.view, Content.Clean, List.forall_mem_cons, List.forall_mem_append,
    List.not_mem_nil, false_implies, implies_true, and_true, true_and, keys,
    hex_padded_clean]
  exact own_fields_clean header

end Icmpv6

end PcapAnalyzer
