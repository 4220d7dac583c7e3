import PcapAnalyzer.Capture.DecodeCalls
import PcapAnalyzer.Decode.PacketJson

/-!
# JSON of captured packets

What `Reader::print` writes for one packet: its number, its record header and its layers.
-/

namespace PcapAnalyzer

open Json (Written)
open MeasuredLoop (Turn)

set_option autoImplicit false

namespace Pcap

def PacketHeader.toJson (header : PacketHeader) : List UInt8 :=
  text "\"packet_header\": \x7b\n".toList ++
    text "  \"ts_sec\": ".toList ++ decimal header.tsSec.toNat ++ text ",\n".toList ++
    text "  \"ts_usec\": ".toList ++ decimal header.tsUsec.toNat ++ text ",\n".toList ++
    text "  \"incl_len\": ".toList ++ decimal header.inclLen.toNat ++ text ",\n".toList ++
    text "  \"orig_len\": ".toList ++ decimal header.origLen.toNat ++ text "\n".toList ++
    text "\x7d".toList

def PacketHeader.view (header : PacketHeader) : View where
  name := "packet_header"
  fields := [
    ("ts_sec", .number header.tsSec.toNat),
    ("ts_usec", .number header.tsUsec.toNat),
    ("incl_len", .number header.inclLen.toNat),
    ("orig_len", .number header.origLen.toNat)]

theorem PacketHeader.to_json_view (header : PacketHeader) :
    header.toJson = header.view.member.text := by
  unfold PacketHeader.toJson
  simp only [PacketHeader.view, View.member_text, View.printFields, View.printField,
    Content.opening, Content.body, Content.closing, String.reduceAppend, List.append_assoc]

theorem PacketHeader.view_clean (header : PacketHeader) : header.view.Clean := by
  have keys : Json.Clean (text "packet_header".toList) ∧ Json.Clean (text "ts_sec".toList) ∧
      Json.Clean (text "ts_usec".toList) ∧ Json.Clean (text "incl_len".toList) ∧
      Json.Clean (text "orig_len".toList) := by decide +kernel
  refine ⟨keys.1, ?_⟩
  simp only [PacketHeader.view, Content.Clean, List.forall_mem_cons, List.not_mem_nil,
    false_implies, implies_true, and_true, keys]

namespace Reader

/-- `print` with `json_` set. -/
def printJson (reader : Reader) (out : Capture) : List UInt8 :=
  text "\x7b\n".toList ++
    text "  \"index\": ".toList ++ decimal reader.decoder.decoded ++ text ",\n".toList ++
    indent out.packetHeader.toJson (text "  ".toList) ++ text ",\n".toList ++
    indent out.pkt.toJson (text "  ".toList) ++ text "\x7d\n".toList

/-- The object that the text of a packet is to be read as. -/
def recordJson (index : Nat) (capture : Capture) : Json.Value :=
  .object [
    (text "index".toList, .number (decimal index)),
    (text "packet_header".toList, capture.packetHeader.view.json),
    (text "packet".toList, capture.pkt.json)]

/-- The text of a packet is a piece of JSON with a line end behind it. -/
theorem print_json_written (reader : Reader) (out : Capture) : ∃ written : Written,
    written.sound ∧ written.value = recordJson reader.decoder.decoded out ∧
      reader.printJson out = written.text ++ [Json.newline] := by
  obtain ⟨packet, sound, value, front, printed, whole⟩ := out.pkt.to_json_member
  have header := Packet.layer_text out.packetHeader.view_clean
  have body : indent out.pkt.toJson (text "  ".toList) = text "  ".toList ++
      (Json.Member.moved packet sound (text "  ".toList) Packet.two_blank).text ++
        [Json.newline] := by
    rw [whole, indent_spread (List.append_ne_nil_of_right_ne_nil _ (List.cons_ne_nil _ _)),
      Json.spread_last (by decide), ← printed, List.append_assoc]
    rfl
  refine ⟨.object (.lines 2 0) [
    Written.member (text "index".toList)
      (.number (decimal reader.decoder.decoded) (decimal_number _)),
    Packet.layerMember out.packetHeader.view out.packetHeader.view_clean,
    Json.Member.moved packet sound (text "  ".toList) Packet.two_blank], ?_, ?_, ?_⟩
  · simp only [Written.object_sound, Written.member_sound, Written.number_sound,
      List.forall_mem_cons, List.not_mem_nil, false_implies, implies_true, and_true]
    exact ⟨by decide, trivial, trivial⟩
  · have layer : (Packet.layerMember out.packetHeader.view out.packetHeader.view_clean).value =
        (text "packet_header".toList, out.packetHeader.view.json) := View.member_value _
    have moved : (Json.Member.moved packet sound (text "  ".toList) Packet.two_blank).value =
        (text "packet".toList, out.pkt.json) := value
    simp only [Written.object, List.map_cons, List.map_nil, layer, moved]
    rfl
  · rw [printJson, body, PacketHeader.to_json_view, header]
    simp only [Written.object, Written.member, Written.number, Json.quoted, Json.Layout.print,
      Json.Layout.rows_cons, List.map_cons, List.map_nil, List.flatMap_cons, List.flatMap_nil,
      List.append_assoc, List.cons_append]
    rfl

theorem line_blank : ∀ byte ∈ [Json.newline], Json.isSpace byte = true :=
  List.forall_mem_singleton.mpr rfl

/-- The text of a packet is an object with the number, the record header and the layers. -/
theorem print_json_reads (reader : Reader) (out : Capture) :
    Json.Document (reader.printJson out) (recordJson reader.decoder.decoded out) := by
  obtain ⟨written, sound, value, printed⟩ := reader.print_json_written out
  rw [printed, ← value]
  exact Json.document_trailing written sound line_blank

end Reader

end Pcap

end PcapAnalyzer
