import PcapAnalyzer.Decode.Packet
import PcapAnalyzer.Capture.Pcap
import PcapAnalyzer.Protocols.LayerJson
import PcapAnalyzer.Util.Indent

/-!
# JSON of a packet

`Packet::toJson` prints the layers that are there, each indented, with the VLAN tags and the
extension headers in arrays whose objects have lost their names. Around it `Reader::print` puts
the index and the record header.
-/

namespace PcapAnalyzer

open Json (Written)

set_option autoImplicit false

namespace Packet

def ethernet (pkt : Packet) : Option Ethernet.Header :=
  match pkt.datalink with
  | .ethernet header => some header
  | .monostate => none

def ipv4 (pkt : Packet) : Option Ip.V4.Header :=
  match pkt.network with
  | .v4 header => some header
  | _ => none

def ipv6 (pkt : Packet) : Option Ip.V6.Header :=
  match pkt.network with
  | .v6 header => some header
  | _ => none

def arp (pkt : Packet) : Option Arp.Header :=
  match pkt.network with
  | .arp header => some header
  | _ => none

def udp (pkt : Packet) : Option Udp.Header :=
  match pkt.transport with
  | .udp header => some header
  | _ => none

def icmp (pkt : Packet) : Option Icmp.Header :=
  match pkt.transport with
  | .icmp header => some header
  | _ => none

def icmpv6 (pkt : Packet) : Option Icmpv6.Header :=
  match pkt.transport with
  | .icmpv6 header => some header
  | _ => none

/-- The stream of `toJson` and its flag. -/
structure Stream where
  oss : List UInt8
  first : Bool := true

/-- `printProtocol`, of what `toJson` of the layer returns if there is the layer. -/
def Stream.printProtocol (stream : Stream) : Option (List UInt8) → Stream
  | none => stream
  | some json =>
      { oss := stream.oss ++ (if !stream.first then text ",\n".toList else []) ++
          indent json (text "  ".toList)
        first := false }

/-- The block that prints `vlan_tags` or `ipv6_ext`. -/
def Stream.printList (stream : Stream) (opening : String) (rows : List (List UInt8)) : Stream :=
  if rows = [] then stream else
  { oss := stream.oss ++ (if !stream.first then text ",\n".toList else []) ++
      text opening.toList ++
      Dns.rows (rows.map fun row => indent row (text "    ".toList)) ++ text "\n  ]".toList
    first := false }

def toJson (pkt : Packet) : List UInt8 :=
  let stream : Stream := { oss := text "\"packet\": \x7b\n".toList }
  let stream := stream.printProtocol (pkt.ethernet.map Ethernet.Header.toJson)
  let stream := stream.printList "  \"vlan\": [\n"
    (pkt.vlanTags.map fun vlan => vlan.toJson.drop 8)
  let stream := stream.printProtocol (pkt.ipv4.map Ip.V4.Header.toJson)
  let stream := stream.printProtocol (pkt.ipv6.map Ip.V6.Header.toJson)
  let stream := stream.printList "  \"ipv6_ext\": [\n"
    (pkt.ipv6Ext.map fun ext => ext.toJson.drop 12)
  let stream := stream.printProtocol (pkt.arp.map Arp.Header.toJson)
  let stream := stream.printProtocol (pkt.udp.map Udp.Header.toJson)
  let stream := stream.printProtocol (pkt.tcp.map Tcp.Header.toJson)
  let stream := stream.printProtocol (pkt.icmp.map Icmp.Header.toJson)
  let stream := stream.printProtocol (pkt.icmpv6.map Icmpv6.Header.toJson)
  stream.oss ++ (if !stream.first then text "\n".toList else []) ++ text "\x7d\n".toList

/-- The layers of a packet as named values: tags and extension headers only if there are any. -/
def layers (pkt : Packet) : List (List UInt8 × Json.Value) :=
  (pkt.ethernet.map fun header => (text "ethernet".toList, header.view.json)).toList ++
    (if pkt.vlanTags = [] then []
      else [(text "vlan".toList, .array (pkt.vlanTags.map fun vlan => vlan.view.json))]) ++
    (pkt.ipv4.map fun header => (text "ipv4".toList, header.view.json)).toList ++
    (pkt.ipv6.map fun header => (text "ipv6".toList, header.view.json)).toList ++
    (if pkt.ipv6Ext = [] then []
      else [(text "ipv6_ext".toList, .array (pkt.ipv6Ext.map fun ext => ext.view.json))]) ++
    (pkt.arp.map fun header => (text "arp".toList, header.view.json)).toList ++
    (pkt.udp.map fun header => (text "udp".toList, header.view.json)).toList ++
    (pkt.tcp.map fun header => (text "tcp".toList, header.view.json)).toList ++
    (pkt.icmp.map fun header => (text "icmp".toList, header.view.json)).toList ++
    (pkt.icmpv6.map fun header => (text "icmpv6".toList, header.view.json)).toList

def json (pkt : Packet) : Json.Value := .object pkt.layers

section Margins

theorem two_blank : ∀ byte ∈ text "  ".toList, Json.isSpace byte = true := by
  simp only [← List.all_eq_true]
  decide

theorem four_blank : ∀ byte ∈ text "    ".toList, Json.isSpace byte = true := by
  simp only [← List.all_eq_true]
  decide

/-- The layer of a view, indented by two blanks. -/
def layerMember (view : View) (clean : view.Clean) : Json.Member :=
  Json.Member.moved view.member (View.member_sound clean) (text "  ".toList) two_blank

theorem layer_text {view : View} (clean : view.Clean) : indent view.member.text (text "  ".toList) =
    text "  ".toList ++ (layerMember view clean).text := by
  apply indent_spread
  rw [View.member_text, View.text_append, View.text_append]
  exact List.cons_ne_nil _ _

/-- The object of a view, indented by four blanks. -/
def listedObject (view : View) (clean : view.Clean) : Written :=
  view.written.moved (View.written_sound clean) (text "    ".toList) four_blank

theorem object_text {view : View} (clean : view.Clean) :
    indent view.written.text (text "    ".toList) =
      List.replicate 4 0x20 ++ (listedObject view clean).text :=
  indent_spread (List.cons_ne_nil _ _) _

end Margins

/-- The members printed so far stand for these values. -/
structure Stream.Shows (stream : Stream) (values : List (List UInt8 × Json.Value))
    (members : List Json.Member) : Prop where
  sound : ∀ member ∈ members, member.sound
  values : members.map Json.Printed.value = values
  first : stream.first = members.isEmpty
  oss : stream.oss = text "\"packet\": \x7b".toList ++
    if members = [] then [Json.newline]
    else (Json.Layout.lines 2 0).rows (members.map Json.Printed.text)

section Streams

variable {stream : Stream} {values : List (List UInt8 × Json.Value)}

theorem rows_snoc (layout : Json.Layout) {rows : List (List UInt8)} (row : List UInt8)
    (present : rows ≠ []) : layout.rows (rows ++ [row]) =
      layout.rows rows ++ Json.comma :: (layout.between ++ row) := by
  cases rows with
  | nil => exact absurd rfl present
  | cons first rows =>
      rw [List.cons_append, Json.Layout.rows_cons, Json.Layout.rows_cons, List.flatMap_append]
      simp only [List.flatMap_cons, List.flatMap_nil, List.append_nil, List.append_assoc]

/-- One more member behind the others. -/
theorem shows_snoc {members : List Json.Member} (shows_ : stream.Shows values members)
    {member : Json.Member} (sound : member.sound) :
    Stream.Shows { oss := stream.oss ++ (if !stream.first then text ",\n".toList else []) ++
        (text "  ".toList ++ member.text), first := false } (values ++ [member.value])
      (members ++ [member]) where
  sound := List.forall_mem_append.mpr ⟨shows_.sound, List.forall_mem_singleton.mpr sound⟩
  values := by rw [List.map_append, shows_.values, List.map_singleton]
  first := by simp
  oss := by
    simp only [shows_.oss, shows_.first]
    cases members with
    | nil =>
        simp only [if_true, List.isEmpty_nil, Bool.not_true, Bool.false_eq_true, if_false,
          List.nil_append, List.cons_ne_nil, List.append_nil, List.append_assoc, List.map_cons,
          List.map_nil, Json.Layout.rows_cons, List.flatMap_nil]
        rfl
    | cons head members =>
        have present : ((head :: members).map Json.Printed.text) ≠ [] := List.cons_ne_nil _ _
        rw [List.map_append, List.map_singleton, rows_snoc _ _ present]
        simp only [List.cons_ne_nil, if_false, List.cons_append, List.isEmpty_cons, Bool.not_false,
          if_true, List.append_assoc]
        rfl

theorem print_protocol_shows {Header : Type} {toJson : Header → List UInt8}
    {view : Header → View} (clean : ∀ header, (view header).Clean)
    (same : ∀ header, toJson header = (view header).member.text) (header : Option Header)
    (shows_ : ∃ members, stream.Shows values members) :
    ∃ members, (stream.printProtocol (header.map toJson)).Shows
      (values ++ (header.map fun header =>
        (text (view header).name.toList, (view header).json)).toList) members := by
  obtain ⟨members, shows_⟩ := shows_
  cases header with
  | none => exact ⟨members, by simpa [Stream.printProtocol] using shows_⟩
  | some header =>
      have sound : (layerMember (view header) (clean header)).sound := trivial
      have added := shows_snoc shows_ sound
      rw [← layer_text (clean header), ← same header] at added
      exact ⟨_, (View.member_value (view header)) ▸ added⟩

/-- What `erase` leaves of a member. -/
theorem drop_name (view : View) :
    view.member.text.drop (view.name.length + 4) = view.written.text := by
  have size : (text view.name.toList).length = view.name.length := by
    rw [text, List.length_map, String.length_toList]
  have front : view.member.text = (Json.quoted (text view.name.toList) ++ [Json.colon, 0x20]) ++
      view.written.text := by
    rw [List.append_assoc]
    rfl
  rw [front]
  apply List.drop_left'
  simp [Json.quoted, size]

theorem print_list_shows {Header : Type} (toJson : Header → List UInt8) {view : Header → View}
    (name : String) (named : Json.Clean (text name.toList))
    (clean : ∀ header, (view header).Clean)
    (same : ∀ header, (toJson header).drop (name.length + 4) = (view header).written.text)
    (headers : List Header) (shows_ : ∃ members, stream.Shows values members) :
    ∃ members, (stream.printList ("  \"" ++ name ++ "\": [\n")
      (headers.map fun header => (toJson header).drop (name.length + 4))).Shows
      (values ++ if headers = [] then [] else
        [(text name.toList, .array (headers.map fun header => (view header).json))]) members := by
  obtain ⟨members, shows_⟩ := shows_
  by_cases empty : headers = []
  · subst empty
    exact ⟨members, by simpa [Stream.printList] using shows_⟩
  · have items := Dns.listed_text
      (fun header => indent ((toJson header).drop (name.length + 4)) (text "    ".toList))
      (fun header => listedObject (view header) (clean header))
      (fun header => by rw [same]; exact object_text (clean header)) headers
    rw [if_neg empty] at items
    have sound : (Written.member (text name.toList) (Dns.listed (headers.map fun header =>
        listedObject (view header) (clean header)))).sound :=
      ⟨named, List.forall_mem_map.mpr fun header _ => trivial⟩
    have added := shows_snoc shows_ sound
    rw [Stream.printList, if_neg (by simpa using empty), if_neg empty]
    have value : (Written.member (text name.toList) (Dns.listed (headers.map fun header =>
        listedObject (view header) (clean header)))).value =
          (text name.toList, .array (headers.map fun header => (view header).json)) := by
      simp only [Written.member, Dns.listed, Written.array, List.map_map]
      congr 2
      apply List.map_congr_left
      intro header _
      exact View.written_value (view header)
    have printed : (Written.member (text name.toList) (Dns.listed (headers.map fun header =>
        listedObject (view header) (clean header)))).text =
          Json.quoted (text name.toList) ++ Json.colon :: 0x20 :: (text "[\n".toList ++
            Dns.rows (headers.map fun header => indent ((toJson header).drop (name.length + 4))
              (text "    ".toList)) ++ text "\n  ]".toList) := by
      rw [← items]
      rfl
    rw [value, printed] at added
    have texts : text ("  \"" ++ name ++ "\": [\n").toList = text "  ".toList ++
        (Json.quoted (text name.toList) ++ Json.colon :: 0x20 :: text "[\n".toList) := by
      simp only [View.text_append, Json.quoted, List.append_assoc, List.cons_append]
      rfl
    simp only [texts, List.map_map, List.append_assoc, List.cons_append] at added ⊢
    exact ⟨_, added⟩

end Streams

/-- What is printed up to the closing brace. -/
theorem shows_member {stream : Stream} {values : List (List UInt8 × Json.Value)}
    (shows_ : ∃ members, stream.Shows values members) : ∃ member : Json.Member,
      member.sound ∧ member.value = (text "packet".toList, .object values) ∧
        member.text = stream.oss ++ (if !stream.first then text "\n".toList else []) ++
          [Json.closeObject] := by
  obtain ⟨members, shows_⟩ := shows_
  refine ⟨Written.member (text "packet".toList) (.object (.lines 2 0) members),
    ⟨by decide, shows_.sound⟩, ?_, ?_⟩
  · rw [← shows_.values]
    rfl
  · simp only [Written.member, Written.object, Json.Layout.print, Json.quoted, shows_.oss,
      shows_.first]
    cases members with
    | nil => rfl
    | cons member members =>
        simp only [List.cons_ne_nil, if_false, List.isEmpty_cons, Bool.not_false, if_true,
          List.append_assoc]
        rfl

/-- The text of a packet is a member that stands for its layers, with a line end behind it. -/
theorem to_json_member (pkt : Packet) : ∃ member : Json.Member, member.sound ∧
    member.value = (text "packet".toList, pkt.json) ∧
      ∃ front, member.text = front ++ [Json.closeObject] ∧
        pkt.toJson = front ++ [Json.closeObject, Json.newline] := by
  have start : ∃ members, Stream.Shows { oss := text "\"packet\": \x7b\n".toList } [] members :=
    ⟨[], List.forall_mem_nil _, rfl, rfl, rfl⟩
  have ethernet := print_protocol_shows Ethernet.view_clean Ethernet.to_json_view pkt.ethernet start
  have vlan := print_list_shows Vlan.Header.toJson "vlan" (by decide) Vlan.view_clean
    (fun header => Vlan.to_json_view header ▸ drop_name header.view) pkt.vlanTags ethernet
  have ipv4 := print_protocol_shows Ip.V4.view_clean Ip.V4.to_json_view pkt.ipv4 vlan
  have ipv6 := print_protocol_shows Ip.V6.view_clean Ip.V6.to_json_view pkt.ipv6 ipv4
  have ext := print_list_shows Ip.V6.Ext.Header.toJson "ipv6_ext" (by decide) Ip.V6.Ext.view_clean
    (fun header => Ip.V6.Ext.to_json_view header ▸ drop_name header.view) pkt.ipv6Ext ipv6
  have arp := print_protocol_shows Arp.view_clean Arp.to_json_view pkt.arp ext
  have udp := print_protocol_shows Udp.view_clean Udp.to_json_view pkt.udp arp
  have tcp := print_protocol_shows Tcp.view_clean Tcp.to_json_view pkt.tcp udp
  have icmp := print_protocol_shows Icmp.view_clean Icmp.to_json_view pkt.icmp tcp
  have icmpv6 := print_protocol_shows Icmpv6.view_clean Icmpv6.to_json_view pkt.icmpv6 icmp
  obtain ⟨member, sound, value, printed⟩ := shows_member icmpv6
  refine ⟨member, sound, value, _, printed, ?_⟩
  rfl

end Packet

end PcapAnalyzer
