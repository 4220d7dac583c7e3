import PcapAnalyzer.Decode.Decoder
import PcapAnalyzer.Flow.Accounting

/-!
# What a decode reads of the reused capture

`reset` leaves the payload of the previous packet in place. No layer reads it, and a
decode that succeeds either replaces it or never looks at it, so what `decode` does
depends on the bytes of the packet, its header, its timestamp and the link type only.
An error leaves the decoder as it was.
-/

namespace PcapAnalyzer

open Pcap (Capture)

set_option autoImplicit false

def Packet.withPayload (pkt : Packet) (payload : List UInt8) : Packet :=
  { pkt with payload := payload }

/-- The same outcome for a packet with another payload. -/
def Parsed.withPayload (parsed : Parsed Packet) (payload : List UInt8) : Parsed Packet :=
  { parsed with header := parsed.header.withPayload payload }

section Layers

variable (payload : List UInt8)

theorem vlan_loop_payload (fuel : Nat) (span : List UInt8) (out : Packet) (ethertype : UInt16) :
    vlanLoop fuel span (out.withPayload payload) ethertype =
      let (err, span, out, ethertype) := vlanLoop fuel span out ethertype
      (err, span, out.withPayload payload, ethertype) := by
  induction fuel generalizing span out ethertype with
  | zero => rfl
  | succ fuel ih =>
      simp only [vlanLoop]
      by_cases tagged : ethertype = Ethernet.ethertypeVlan ∨ ethertype = Ethernet.ethertypeVlanQq
      · by_cases full : out.vlanTags.length ≥ Vlan.maxTags
        · simp [tagged, full, Packet.withPayload]
        · by_cases failed : (Vlan.parse span {} .big).err ≠ .none
          · simp [tagged, full, failed, Packet.withPayload]
          · have step := ih (Vlan.parse span {} .big).span
              { out with vlanTags := out.vlanTags ++ [(Vlan.parse span {} .big).header] }
              (Vlan.parse span {} .big).header.ethertype
            simp only [Packet.withPayload] at step
            simp [tagged, full, failed, Packet.withPayload, step]
      · simp [tagged]

theorem ext_loop_payload (fuel : Nat) (span : List UInt8) (out : Packet) (nextHeader : UInt8) :
    extLoop fuel span (out.withPayload payload) nextHeader =
      let (err, span, out, nextHeader, fragment) := extLoop fuel span out nextHeader
      (err, span, out.withPayload payload, nextHeader, fragment) := by
  induction fuel generalizing span out nextHeader with
  | zero => rfl
  | succ fuel ih =>
      simp only [extLoop]
      by_cases extension : Ip.V6.Ext.isExtension nextHeader
      · by_cases full : out.ipv6Ext.length ≥ Ip.V6.Ext.maxHeaders
        · simp [extension, full, Packet.withPayload]
        · by_cases late : nextHeader = Ip.protocolHopopt ∧ out.ipv6Ext ≠ []
          · have lateToo : nextHeader = Ip.protocolHopopt ∧
                (out.withPayload payload).ipv6Ext ≠ [] := late
            rw [if_pos extension, if_pos extension, if_neg full, if_pos late, if_pos lateToo]
            exact if_neg full
          · cases parsed : Ip.V6.Ext.parse span nextHeader .big with
            | error err => simp [extension, full, late, Packet.withPayload]
            | ok result =>
                rcases result with ⟨ext, rest⟩
                by_cases fragment : ext.isFragment
                · simp [extension, full, late, fragment, Packet.withPayload]
                · have step := ih rest { out with ipv6Ext := out.ipv6Ext ++ [ext] } ext.nextHeader
                  simp only [Packet.withPayload] at step
                  simp [extension, full, late, fragment, Packet.withPayload, step]
      · simp [extension]

theorem decode_layer2_payload (span : List UInt8) (out : Packet) :
    decodeLayer2 span (out.withPayload payload) =
      (decodeLayer2 span out).withPayload payload := by
  cases link : out.datalink with
  | monostate => simp [decodeLayer2, Packet.withPayload, link, Parsed.withPayload]
  | ethernet header =>
      by_cases failed : (Ethernet.parse span header .big).err ≠ .none
      · simp [decodeLayer2, Packet.withPayload, link, Parsed.withPayload, failed]
      · have tags := vlan_loop_payload payload (Vlan.maxTags + 1)
          (Ethernet.parse span header .big).span
          { out with datalink := .ethernet (Ethernet.parse span header .big).header }
          (Ethernet.parse span header .big).header.ethertype
        simp only [Packet.withPayload] at tags
        simp only [decodeLayer2, Packet.withPayload, link, failed, if_false, tags]
        split_ifs <;> rfl

theorem decode_layer3_payload (span : List UInt8) (out : Packet) (verify : Bool) :
    decodeLayer3 span (out.withPayload payload) verify =
      (decodeLayer3 span out verify).withPayload payload := by
  cases net : out.network with
  | monostate => simp [decodeLayer3, Packet.withPayload, net, Parsed.withPayload]
  | v4 header =>
      by_cases failed : (Ip.V4.parse span header .big verify).err ≠ .none
      · simp [decodeLayer3, Packet.withPayload, net, Parsed.withPayload, failed]
      · simp [decodeLayer3, Packet.withPayload, net, Parsed.withPayload, failed,
          Packet.setTransportFromProtocol]
  | v6 header =>
      by_cases failed : (Ip.V6.parse span header .big).err ≠ .none
      · simp [decodeLayer3, Packet.withPayload, net, Parsed.withPayload, failed]
      · have exts := ext_loop_payload payload (Ip.V6.Ext.maxHeaders + 1)
          (Ip.V6.parse span header .big).span
          { out with network := .v6 (Ip.V6.parse span header .big).header }
          (Ip.V6.parse span header .big).header.nextHeader
        simp only [Packet.withPayload] at exts
        simp only [decodeLayer3, Packet.withPayload, net, failed, if_false, exts]
        split_ifs <;> rfl
  | arp header => simp [decodeLayer3, Packet.withPayload, net, Parsed.withPayload]

theorem decode_layer4_payload (span : List UInt8) (out : Packet) (verify : Bool) :
    decodeLayer4 span (out.withPayload payload) verify =
      (decodeLayer4 span out verify).withPayload payload := by
  cases net : out.network with
  | monostate => simp [decodeLayer4, Packet.withPayload, net, Parsed.withPayload]
  | v4 ip =>
      cases transport : out.transport <;>
        simp [decodeLayer4, Packet.withPayload, net, transport, Parsed.withPayload]
  | v6 fixed =>
      cases transport : out.transport <;>
        simp [decodeLayer4, Packet.withPayload, net, transport, Parsed.withPayload]
  | arp header => simp [decodeLayer4, Packet.withPayload, net, Parsed.withPayload]

end Layers

/-- The payload that was there before is replaced, or it stays in a packet that failed to
decode or is an ARP packet. -/
theorem decode_packet_payload (payload : List UInt8) (span : List UInt8) (out : Packet)
    (verify : Bool) :
    let parsed := decodePacket span out verify
    decodePacket span (out.withPayload payload) verify = parsed ∨
      decodePacket span (out.withPayload payload) verify = parsed.withPayload payload ∧
        (parsed.err ≠ .none ∨ parsed.header.isArp = true) := by
  have layer2 := decode_layer2_payload payload span out
  unfold decodePacket
  generalize decodeLayer2 span out = l2 at layer2 ⊢
  by_cases failed2 : l2.err ≠ .none
  · right
    simp [layer2, failed2, Parsed.withPayload]
  have layer3 := decode_layer3_payload payload l2.span l2.header verify
  generalize third : decodeLayer3 l2.span l2.header verify = l3 at layer3
  by_cases failed3 : l3.err ≠ .none
  · right
    simp [layer2, failed2, third, failed3, Parsed.withPayload, layer3]
  have sameArp : (l3.header.withPayload payload).isArp = l3.header.isArp := rfl
  by_cases arp : l3.header.isArp = true
  · right
    simp [layer2, failed2, third, failed3, Parsed.withPayload, layer3, sameArp, arp]
  have layer4 := decode_layer4_payload payload l3.span l3.header verify
  generalize fourth : decodeLayer4 l3.span l3.header verify = l4 at layer4
  by_cases failed4 : l4.err ≠ .none
  · right
    simp [layer2, failed2, third, failed3, Parsed.withPayload, layer3, sameArp, arp, layer4,
      fourth, failed4]
  · left
    simp [layer2, failed2, third, failed3, Parsed.withPayload, layer3, sameArp, arp, layer4,
      fourth, failed4]
    simp [Packet.withPayload]

namespace Decoder

/-- What `decode` reads of the capture it is given. -/
structure SameRecord (left right : Capture) : Prop where
  tsUs : left.tsUs = right.tsUs
  packetHeader : left.packetHeader = right.packetHeader
  datalink : left.pkt.datalink = right.pkt.datalink

theorem reset_same_record {left right : Capture} (same : SameRecord left right) :
    left.pkt.reset = right.pkt.reset.withPayload left.pkt.payload := by
  simp [Packet.reset, Packet.withPayload, same.datalink]

/-- The payload of an ARP packet is never read. -/
theorem decode_capture_arp (decoder : Decoder) (capture : Capture) (payload : List UInt8)
    (arp : capture.pkt.isArp = true) :
    decoder.decodeCapture { capture with pkt := capture.pkt.withPayload payload } =
      decoder.decodeCapture capture := by
  have arpToo : (capture.pkt.withPayload payload).isArp = true := arp
  have sameFilter : filtered decoder.config.filter (capture.pkt.withPayload payload) =
      filtered decoder.config.filter capture.pkt := rfl
  simp [decodeCapture, FlowTable.addPacket, arp, arpToo, sameFilter]

/-- The outcome for a record does not depend on what the capture held before. -/
theorem decode_same_record (decoder : Decoder) (span : List UInt8) {left right : Capture}
    (same : SameRecord left right) :
    (decoder.decode span left).1 = (decoder.decode span right).1 ∧
      (decoder.decode span left).2.2 = (decoder.decode span right).2.2 := by
  have sameReset := reset_same_record same
  rcases left with ⟨tsUs, packetHeader, leftPkt⟩
  rcases right with ⟨_, _, rightPkt⟩
  obtain ⟨rfl, rfl, _⟩ := same
  have payloads := decode_packet_payload leftPkt.payload span rightPkt.reset
    decoder.config.verifyChecksum
  simp only [decode, sameReset]
  generalize decodePacket span rightPkt.reset decoder.config.verifyChecksum = parsed at payloads ⊢
  rcases payloads with replaced | ⟨kept, unread⟩
  · rw [replaced]
    exact ⟨rfl, rfl⟩
  · rw [kept]
    by_cases failed : parsed.err ≠ .none
    · simp [Parsed.withPayload, failed]
    · have arp := decode_capture_arp decoder
        { tsUs := tsUs, packetHeader := packetHeader, pkt := parsed.header } leftPkt.payload
        (unread.resolve_left failed)
      simp only [Parsed.withPayload, failed, if_false]
      rw [arp]
      exact ⟨rfl, rfl⟩

/-- An error, or the filter, leaves the decoder as it was. -/
theorem decode_capture_error (decoder : Decoder) (capture : Capture)
    (failed : (decoder.decodeCapture capture).1 ≠ .none) :
    (decoder.decodeCapture capture).2 = decoder := by
  unfold decodeCapture at failed ⊢
  by_cases refused : filtered decoder.config.filter capture.pkt = true
  · simp [refused]
  · by_cases rejected : (decoder.flowTable.addPacket capture).1.err ≠ .none
    · simp [refused, rejected, FlowTable.add_packet_error _ _ rejected]
    · simp [refused, rejected] at failed

theorem decode_error (decoder : Decoder) (span : List UInt8) (capture : Capture)
    (failed : (decoder.decode span capture).1 ≠ .none) :
    (decoder.decode span capture).2.2 = decoder := by
  simp only [decode] at failed ⊢
  by_cases undecoded :
      (decodePacket span capture.pkt.reset decoder.config.verifyChecksum).err ≠ .none
  · simp [undecoded]
  · simp only [undecoded, if_false] at failed ⊢
    exact decode_capture_error decoder _ failed

theorem decode_flow_decoded (decoder : Decoder) (capture : Capture) (key : FlowKey)
    (isNew : Bool) : (decoder.decodeFlow capture key isNew).decoded = decoder.decoded := by
  unfold decodeFlow
  split <;> rfl

theorem decode_capture_decoded (decoder : Decoder) (capture : Capture)
    (accepted : (decoder.decodeCapture capture).1 = .none) :
    (decoder.decodeCapture capture).2.decoded = decoder.decoded + 1 := by
  unfold decodeCapture at accepted ⊢
  by_cases refused : filtered decoder.config.filter capture.pkt = true
  · simp [refused] at accepted
  · by_cases rejected : (decoder.flowTable.addPacket capture).1.err ≠ .none
    · simp [refused, rejected] at accepted
    · by_cases inFlow : (decoder.flowTable.addPacket capture).1.flow = true
      · simp [refused, rejected, inFlow, decode_flow_decoded]
      · simp [refused, rejected, inFlow]

/-- A packet that decodes is counted once. -/
theorem decode_decoded (decoder : Decoder) (span : List UInt8) (capture : Capture)
    (accepted : (decoder.decode span capture).1 = .none) :
    (decoder.decode span capture).2.2.decoded = decoder.decoded + 1 := by
  simp only [decode] at accepted ⊢
  by_cases undecoded :
      (decodePacket span capture.pkt.reset decoder.config.verifyChecksum).err ≠ .none
  · simp only [undecoded, ne_eq, not_false_eq_true, if_true] at accepted
  · simp only [undecoded, if_false] at accepted ⊢
    exact decode_capture_decoded decoder _ accepted

end Decoder

end PcapAnalyzer
