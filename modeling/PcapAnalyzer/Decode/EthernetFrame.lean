import PcapAnalyzer.Decode.ExtensionChain

/-!
# Frames that are not plain TCP or UDP

An ARP message, an ICMP message behind an IPv4 header, and an IPv6 packet in which a chain of
extension headers precedes a TCP, UDP or ICMPv6 upper layer. The checksum of an upper layer
is computed for the address that the chain finally leads to.
-/

namespace PcapAnalyzer

open Ip.V6.Ext (Extension chainBytes lastFinalDst WellPlaced)

set_option autoImplicit false

/-- Addresses of any size but none. -/
structure ArpMessage where
  htype : UInt16
  ptype : UInt16
  hlen : UInt8
  plen : UInt8
  sized : ¬ (hlen = 0 ∨ plen = 0)
  oper : UInt16
  sha : Bytes hlen.toNat
  spa : Bytes plen.toNat
  tha : Bytes hlen.toNat
  tpa : Bytes plen.toNat

namespace ArpMessage

variable (message : ArpMessage)

def encode : List UInt8 :=
  wire16 message.htype ++ (wire16 message.ptype ++ ([message.hlen, message.plen] ++
    (wire16 message.oper ++ (message.sha.val ++ (message.spa.val ++
      (message.tha.val ++ message.tpa.val))))))

def header : Arp.Header where
  htype := message.htype
  ptype := message.ptype
  hlen := message.hlen
  plen := message.plen
  oper := message.oper
  sha := message.sha.val
  spa := message.spa.val
  tha := message.tha.val
  tpa := message.tpa.val

end ArpMessage

/-- The messages of ICMP, by what the word behind the checksum is for. -/
inductive IcmpMessage where
  | echo (reply : Bool) (id seq : UInt16)
  | redirect (code : UInt8) (known : code ≤ Icmp.codeRedirectTosHost) (gateway : UInt32)
  | paramProblem (code : UInt8) (known : code ≤ Icmp.codeParamMissingOpt) (pointer : UInt8)
      (unused : Bytes 3)
  | other (type code : UInt8) (plain : ¬ (Icmp.isEcho type = true ∨ type = Icmp.typeRedirect))
      (known : code ≤ Icmp.maxCode type) (word : Bytes 4)

namespace IcmpMessage

def type : IcmpMessage → UInt8
  | .echo reply _ _ => if reply then Icmp.typeEchoReply else Icmp.typeEchoRequest
  | .redirect .. => Icmp.typeRedirect
  | .paramProblem .. => Icmp.typeParamProblem
  | .other type .. => type

def code : IcmpMessage → UInt8
  | .echo .. => 0
  | .redirect code .. => code
  | .paramProblem code .. => code
  | .other _ code .. => code

def word : IcmpMessage → List UInt8
  | .echo _ id seq => wire16 id ++ wire16 seq
  | .redirect _ _ gateway => wire32 gateway
  | .paramProblem _ _ pointer unused => pointer :: unused.val
  | .other _ _ _ _ word => word.val

theorem word_length (message : IcmpMessage) : message.word.length = 4 := by
  cases message with
  | echo => rfl
  | redirect => rfl
  | paramProblem code known pointer unused => exact congrArg Nat.succ unused.property
  | other type code plain known word => exact word.property

/-- The member of the union that the type selects. -/
def Shown (message : IcmpMessage) (header : Icmp.Header) : Prop :=
  match message with
  | .echo _ id seq => header.echoId = id ∧ header.echoSeq = seq
  | .redirect _ _ gateway => header.gateway = gateway
  | .paramProblem _ _ pointer _ => header.pointer = pointer
  | .other .. => True

end IcmpMessage

inductive Icmpv6Message where
  | echo (reply : Bool) (id seq : UInt16)
  | packetTooBig (mtu : UInt32) (atLeast : Icmpv6.minMtu ≤ mtu)
  | paramProblem (code : UInt8) (known : code ≤ Icmpv6.codeParamUnknownOption) (pointer : UInt32)
  | other (type code : UInt8)
      (plain : ¬ (Icmpv6.isEcho type = true ∨ type = Icmpv6.typePacketTooBig ∨
        type = Icmpv6.typeParamProblem))
      (known : code ≤ Icmpv6.maxCode type) (word : Bytes 4)

namespace Icmpv6Message

def type : Icmpv6Message → UInt8
  | .echo reply _ _ => if reply then Icmpv6.typeEchoReply else Icmpv6.typeEchoRequest
  | .packetTooBig .. => Icmpv6.typePacketTooBig
  | .paramProblem .. => Icmpv6.typeParamProblem
  | .other type .. => type

def code : Icmpv6Message → UInt8
  | .echo .. => 0
  | .packetTooBig .. => 0
  | .paramProblem code .. => code
  | .other _ code .. => code

def word : Icmpv6Message → List UInt8
  | .echo _ id seq => wire16 id ++ wire16 seq
  | .packetTooBig mtu _ => wire32 mtu
  | .paramProblem _ _ pointer => wire32 pointer
  | .other _ _ _ _ word => word.val

theorem word_length (message : Icmpv6Message) : message.word.length = 4 := by
  cases message with
  | echo => rfl
  | packetTooBig => rfl
  | paramProblem => rfl
  | other type code plain known word => exact word.property

def Shown (message : Icmpv6Message) (header : Icmpv6.Header) : Prop :=
  match message with
  | .echo _ id seq => header.echoId = id ∧ header.echoSeq = seq
  | .packetTooBig mtu _ => header.mtu = mtu
  | .paramProblem _ _ pointer => header.pointer = pointer
  | .other .. => True

end Icmpv6Message

structure IcmpDatagram where
  ip : Frame.V4
  message : IcmpMessage
  payload : List UInt8
  fits : 4 * ip.options.headerWords + (Icmp.headerLen + payload.length) ≤ 65535

namespace IcmpDatagram

variable (datagram : IcmpDatagram)

def segmentLen : Nat := Icmp.headerLen + datagram.payload.length

def checksum : UInt16 :=
  Frame.checksumBetween [] [datagram.message.type, datagram.message.code]
    (datagram.message.word ++ datagram.payload)

def segment : List UInt8 :=
  [datagram.message.type, datagram.message.code] ++ wire16 datagram.checksum ++
    (datagram.message.word ++ datagram.payload)

theorem segment_length : datagram.segment.length = datagram.segmentLen := by
  simp only [segment, segmentLen, List.length_append, wire16_length, List.length_cons,
    List.length_nil, datagram.message.word_length, Icmp.headerLen]
  omega

/-- The IPv4 header up to its checksum. -/
def front : List UInt8 :=
  [UInt8.ofNat (16 * 4 + datagram.ip.options.headerWords), datagram.ip.tos] ++
    (wire16 (UInt16.ofNat (4 * datagram.ip.options.headerWords + datagram.segmentLen)) ++
      (wire16 datagram.ip.identification ++ (wire16 datagram.ip.flagsFragment ++
        [datagram.ip.ttl, Ip.protocolIcmp])))

def ipChecksum : UInt16 := Frame.checksumBetween [] datagram.front (Frame.v4Back datagram.ip)

def ipBytes : List UInt8 :=
  datagram.front ++ (wire16 datagram.ipChecksum ++ Frame.v4Back datagram.ip)

def encode : List UInt8 := datagram.ipBytes ++ datagram.segment

def ipHeader : Ip.V4.Header where
  versionIhl := UInt8.ofNat (16 * 4 + datagram.ip.options.headerWords)
  tos := datagram.ip.tos
  totalLength := UInt16.ofNat (4 * datagram.ip.options.headerWords + datagram.segmentLen)
  identification := datagram.ip.identification
  flagsFragment := datagram.ip.flagsFragment
  ttl := datagram.ip.ttl
  protocol := Ip.protocolIcmp
  checksum := datagram.ipChecksum
  srcIp := datagram.ip.srcIp
  dstIp := datagram.ip.dstIp

/-- What the decoder tells of the message. -/
def Shows (transport : TransportHeader) : Prop :=
  ∃ header, transport = .icmp header ∧ header.type = datagram.message.type ∧
    header.code = datagram.message.code ∧ header.checksum = datagram.checksum ∧
      datagram.message.Shown header

end IcmpDatagram

inductive Upper where
  | transport (header : Frame.Transport)
  | icmpv6 (message : Icmpv6Message)

namespace Upper

def protocol : Upper → UInt8
  | .transport header => header.protocol
  | .icmpv6 _ => Ip.protocolIcmpv6

def headerLen : Upper → Nat
  | .transport header => header.headerLen
  | .icmpv6 _ => Icmpv6.headerLen

/-- The header up to its checksum. -/
def front (upper : Upper) (length : Nat) : List UInt8 :=
  match upper with
  | .transport header => header.front length
  | .icmpv6 message => [message.type, message.code]

/-- The header behind its checksum. -/
def back : Upper → List UInt8
  | .transport header => header.back
  | .icmpv6 message => message.word

/-- The checksum as it is sent. -/
def sent (upper : Upper) (checksum : UInt16) : UInt16 :=
  match upper with
  | .transport header => header.sent checksum
  | .icmpv6 _ => checksum

theorem plain (upper : Upper) : Ip.V6.Ext.isExtension upper.protocol = false := by
  cases upper with
  | transport header => cases header <;> rfl
  | icmpv6 message => rfl

theorem header_length (upper : Upper) (length : Nat) :
    (upper.front length).length + (2 + upper.back.length) = upper.headerLen := by
  cases upper with
  | transport header =>
      cases header with
      | tcp header =>
          have words := (Frame.header_words_bound header.options).2
          simp only [front, back, headerLen, Frame.Transport.front, Frame.Transport.back,
            Frame.Transport.headerLen, List.length_append, wire16_length, wire32_length,
            List.length_cons, List.length_nil]
          omega
      | udp header => simp [front, back, headerLen, Frame.Transport.front, Frame.Transport.back,
          Frame.Transport.headerLen, Udp.headerLen]
  | icmpv6 message =>
      simp only [front, back, headerLen, message.word_length, List.length_cons, List.length_nil,
        Icmpv6.headerLen]

end Upper

/-- A packet with a chain of extension headers, of which there may be none. -/
structure ChainedDatagram where
  fixed : Frame.V6
  exts : List Extension
  placed : WellPlaced exts
  upper : Upper
  payload : List UInt8
  fits : (chainBytes exts upper.protocol).length + (upper.headerLen + payload.length) ≤ 65535

namespace ChainedDatagram

variable (datagram : ChainedDatagram)

def segmentLen : Nat := datagram.upper.headerLen + datagram.payload.length

theorem final_dst_sized {exts : List Extension} {address : List UInt8}
    (named : lastFinalDst exts = some address) : address.length = 16 := by
  have member : address ∈ exts.filterMap Extension.finalDst := List.mem_of_getLast? named
  obtain ⟨ext, -, leads⟩ := List.mem_filterMap.mp member
  cases ext with
  | addressed routingType segmentsLeft known left reserved addresses nonempty few =>
      simp only [Extension.finalDst] at leads
      split_ifs at leads
      · obtain ⟨first, -, rfl⟩ := Option.map_eq_some_iff.mp leads
        exact first.property
      · obtain ⟨last, -, rfl⟩ := Option.map_eq_some_iff.mp leads
        exact last.property
  | options => cases leads
  | unaddressed => cases leads
  | fragment => cases leads
  | ah => cases leads

/-- The address that the checksum is computed for. -/
def finalDst : Bytes 16 where
  val := (lastFinalDst datagram.exts).getD datagram.fixed.dstIp.val
  property := by
    cases named : lastFinalDst datagram.exts with
    | none => exact datagram.fixed.dstIp.property
    | some address => exact final_dst_sized named

/-- The fixed header of the same packet without the chain. -/
def direct : Frame.V6 := { datagram.fixed with dstIp := datagram.finalDst }

def pseudoHeader : List UInt8 :=
  (Frame.Network.v6 datagram.direct).pseudoHeader datagram.upper.protocol datagram.segmentLen

def checksum : UInt16 :=
  datagram.upper.sent (Frame.checksumBetween datagram.pseudoHeader
    (datagram.upper.front datagram.segmentLen) (datagram.upper.back ++ datagram.payload))

def segment : List UInt8 :=
  datagram.upper.front datagram.segmentLen ++ wire16 datagram.checksum ++
    (datagram.upper.back ++ datagram.payload)

theorem segment_length : datagram.segment.length = datagram.segmentLen := by
  have header := datagram.upper.header_length datagram.segmentLen
  simp only [segment, segmentLen, List.length_append, wire16_length] at header ⊢
  omega

/-- What the decoder tells of the upper layer. -/
def Shows (transport : TransportHeader) : Prop :=
  match datagram.upper with
  | .transport (.tcp header) => transport = .tcp
      { srcPort := header.srcPort
        dstPort := header.dstPort
        seqNumber := header.seqNumber
        ackNumber := header.ackNumber
        dataOffsetReserved := UInt8.ofNat (16 * header.options.headerWords + header.reserved)
        flags := header.flags
        windowSize := header.windowSize
        checksum := bswap16 datagram.checksum
        urgentPointer := header.urgentPointer }
  | .transport (.udp header) => transport = .udp
      { srcPort := header.srcPort
        dstPort := header.dstPort
        length := UInt16.ofNat datagram.segmentLen
        checksum := datagram.checksum }
  | .icmpv6 message => ∃ header, transport = .icmpv6 header ∧ header.type = message.type ∧
      header.code = message.code ∧ header.checksum = datagram.checksum ∧ message.Shown header

/-- The packet on the wire, with `padding` behind it. -/
def packet (padding : List UInt8) : Ip.V6.Ext.ChainedPacket where
  fixed := datagram.fixed
  exts := datagram.exts
  protocol := datagram.upper.protocol
  plain := datagram.upper.plain
  upper := datagram.segment
  fits := by
    rw [segment_length]
    exact datagram.fits
  padding := padding

end ChainedDatagram

/-- What a frame carries. -/
inductive Datagram where
  | arp (message : ArpMessage)
  | icmp (datagram : IcmpDatagram)
  | chained (datagram : ChainedDatagram)

namespace Datagram

def ethertype : Datagram → UInt16
  | .arp _ => Ethernet.ethertypeArp
  | .icmp _ => Ethernet.ethertypeIpv4
  | .chained _ => Ethernet.ethertypeIpv6

def encode (datagram : Datagram) (padding : List UInt8) : List UInt8 :=
  match datagram with
  | .arp message => message.encode ++ padding
  | .icmp datagram => datagram.encode ++ padding
  | .chained datagram => (datagram.packet padding).encode

def networkHeader : Datagram → NetworkHeader
  | .arp message => .arp message.header
  | .icmp datagram => .v4 datagram.ipHeader
  | .chained datagram => .v6 (datagram.packet []).header

def ipv6Ext : Datagram → List Ip.V6.Ext.Header
  | .arp _ => []
  | .icmp _ => []
  | .chained datagram => (datagram.packet []).headers

/-- What the decoder tells of the message or the upper layer. -/
def Shows (datagram : Datagram) (transport : TransportHeader) : Prop :=
  match datagram with
  | .arp _ => transport = .monostate
  | .icmp datagram => datagram.Shows transport
  | .chained datagram => datagram.Shows transport

/-- The payload of a packet, which ARP leaves as it was before, and what is left of the bytes. -/
def payload (datagram : Datagram) (before : List UInt8) : List UInt8 :=
  match datagram with
  | .arp _ => before
  | .icmp datagram => datagram.payload
  | .chained datagram => datagram.payload

def rest (datagram : Datagram) (padding : List UInt8) : List UInt8 :=
  match datagram with
  | .arp _ => padding
  | .icmp datagram => datagram.payload
  | .chained datagram => datagram.payload

end Datagram

structure EthernetFrame where
  dstMac : Bytes 6
  srcMac : Bytes 6
  tags : List Frame.Tag
  tagsFit : tags.length ≤ Vlan.maxTags
  datagram : Datagram
  padding : List UInt8

namespace EthernetFrame

variable (frame : EthernetFrame)

def encode : List UInt8 :=
  frame.dstMac.val ++ (frame.srcMac.val ++
    (wire16 (Frame.outerType frame.tags frame.datagram.ethertype) ++
      (Frame.tagBytes frame.tags frame.datagram.ethertype ++
        frame.datagram.encode frame.padding)))

/-- What the frame says, as a decoded packet. -/
def packet (transport : TransportHeader) (before : List UInt8) : Packet where
  datalink := .ethernet {
    dstMac := frame.dstMac.val
    srcMac := frame.srcMac.val
    ethertype := frame.datagram.ethertype }
  vlanTags := Frame.tagHeaders frame.tags frame.datagram.ethertype
  network := frame.datagram.networkHeader
  ipv6Ext := frame.datagram.ipv6Ext
  transport := transport
  payload := frame.datagram.payload before

end EthernetFrame

end PcapAnalyzer
