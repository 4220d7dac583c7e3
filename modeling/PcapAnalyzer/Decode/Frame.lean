import PcapAnalyzer.Decode.Packet
import PcapAnalyzer.Util.InternetChecksum

/-!
# Encoded frames

The frames a sender builds: an Ethernet header with VLAN tags, an IPv4 or IPv6 header, a
TCP or UDP header and a payload, with the lengths and checksums of the standards and
padding behind the datagram. Only well-formed frames can be written down.
-/

namespace PcapAnalyzer

set_option autoImplicit false

/-- A field of a fixed number of bytes. -/
abbrev Bytes (count : Nat) : Type := { bytes : List UInt8 // bytes.length = count }

/-- The options of an IPv4 or TCP header, padded to whole words. -/
structure Options where
  bytes : List UInt8
  aligned : bytes.length % 4 = 0
  fits : bytes.length ≤ 40

/-- The length of a header with options in words of 32 bits. -/
def Options.headerWords (options : Options) : Nat := 5 + options.bytes.length / 4

namespace Frame

/-- A VLAN tag, announced by one of two ethertypes. -/
structure Tag where
  double : Bool
  tci : UInt16
  notReserved : tci &&& 0x0FFF ≠ Vlan.vidReserved

def Tag.ethertype (tag : Tag) : UInt16 :=
  if tag.double then Ethernet.ethertypeVlanQq else Ethernet.ethertypeVlan

structure V4 where
  tos : UInt8
  identification : UInt16
  flagsFragment : UInt16
  unfragmented : flagsFragment &&& 0x3FFF = 0
  ttl : UInt8
  srcIp : UInt32
  dstIp : UInt32
  options : Options

structure V6 where
  trafficClassFlowLabel : Nat
  small : trafficClassFlowLabel < 2 ^ 28
  hopLimit : UInt8
  srcIp : Bytes 16
  dstIp : Bytes 16

structure Tcp where
  srcPort : UInt16
  dstPort : UInt16
  seqNumber : UInt32
  ackNumber : UInt32
  reserved : Nat
  small : reserved < 16
  flags : UInt8
  windowSize : UInt16
  urgentPointer : UInt16
  options : Options

/-- A sender may replace a checksum of zero by the all-ones word. -/
structure Udp where
  srcPort : UInt16
  dstPort : UInt16
  zeroAsOnes : Bool

inductive Network where
  | v4 (header : V4)
  | v6 (header : V6)

inductive Transport where
  | tcp (header : Tcp)
  | udp (header : Udp)

namespace Network

def ethertype : Network → UInt16
  | .v4 _ => Ethernet.ethertypeIpv4
  | .v6 _ => Ethernet.ethertypeIpv6

/-- How much of the length field the header itself takes. -/
def countedLen : Network → Nat
  | .v4 header => 4 * header.options.headerWords
  | .v6 _ => 0

/-- What the transport checksum covers besides the segment. -/
def pseudoHeader (network : Network) (protocol : UInt8) (length : Nat) : List UInt8 :=
  match network with
  | .v4 header =>
      wire32 header.srcIp ++ wire32 header.dstIp ++ [0, protocol] ++ wire16 (UInt16.ofNat length)
  | .v6 header =>
      header.srcIp.val ++ header.dstIp.val ++ wire32 (UInt32.ofNat length) ++ [0, 0, 0, protocol]

end Network

/-- The checksum that stands between `front` and `back`. -/
def checksumBetween (pseudoHeader front back : List UInt8) : UInt16 :=
  internetChecksum (pseudoHeader ++ front ++ wire16 0 ++ back)

namespace Transport

def protocol : Transport → UInt8
  | .tcp _ => Ip.protocolTcp
  | .udp _ => Ip.protocolUdp

def headerLen : Transport → Nat
  | .tcp header => 4 * header.options.headerWords
  | .udp _ => PcapAnalyzer.Udp.headerLen

/-- The header up to its checksum. -/
def front (transport : Transport) (length : Nat) : List UInt8 :=
  match transport with
  | .tcp header =>
      wire16 header.srcPort ++ wire16 header.dstPort ++ wire32 header.seqNumber ++
        wire32 header.ackNumber ++
        [UInt8.ofNat (16 * header.options.headerWords + header.reserved), header.flags] ++
        wire16 header.windowSize
  | .udp header => wire16 header.srcPort ++ wire16 header.dstPort ++ wire16 (UInt16.ofNat length)

/-- The header behind its checksum. -/
def back : Transport → List UInt8
  | .tcp header => wire16 header.urgentPointer ++ header.options.bytes
  | .udp _ => []

/-- The checksum as it is sent. -/
def sent (transport : Transport) (checksum : UInt16) : UInt16 :=
  match transport with
  | .tcp _ => checksum
  | .udp header => if checksum = 0 ∧ header.zeroAsOnes = true then 0xFFFF else checksum

end Transport

end Frame

structure Frame where
  dstMac : Bytes 6
  srcMac : Bytes 6
  tags : List Frame.Tag
  tagsFit : tags.length ≤ Vlan.maxTags
  network : Frame.Network
  transport : Frame.Transport
  payload : List UInt8
  fits : network.countedLen + (transport.headerLen + payload.length) ≤ 65535
  padding : List UInt8

namespace Frame

/-- The ethertype in front of the tags. -/
def outerType (tags : List Tag) (ethertype : UInt16) : UInt16 :=
  match tags with
  | [] => ethertype
  | tag :: _ => tag.ethertype

def tagBytes : List Tag → UInt16 → List UInt8
  | [], _ => []
  | tag :: rest, ethertype =>
      wire16 tag.tci ++ wire16 (outerType rest ethertype) ++ tagBytes rest ethertype

section Encode

variable (frame : Frame)

def segmentLen : Nat := frame.transport.headerLen + frame.payload.length

def checksum : UInt16 :=
  frame.transport.sent (checksumBetween
    (frame.network.pseudoHeader frame.transport.protocol frame.segmentLen)
    (frame.transport.front frame.segmentLen) (frame.transport.back ++ frame.payload))

def segment : List UInt8 :=
  frame.transport.front frame.segmentLen ++ wire16 frame.checksum ++
    (frame.transport.back ++ frame.payload)

/-- The IPv4 header up to its checksum. -/
def v4Front (header : V4) : List UInt8 :=
  [UInt8.ofNat (16 * 4 + header.options.headerWords), header.tos] ++
    wire16 (UInt16.ofNat (4 * header.options.headerWords + frame.segmentLen)) ++
    wire16 header.identification ++ wire16 header.flagsFragment ++
    [header.ttl, frame.transport.protocol]

def v4Back (header : V4) : List UInt8 :=
  wire32 header.srcIp ++ wire32 header.dstIp ++ header.options.bytes

def v4Checksum (header : V4) : UInt16 := checksumBetween [] (frame.v4Front header) (v4Back header)

def networkBytes : List UInt8 :=
  match frame.network with
  | .v4 header => frame.v4Front header ++ wire16 (frame.v4Checksum header) ++ v4Back header
  | .v6 header =>
      wire32 (UInt32.ofNat (6 * 2 ^ 28 + header.trafficClassFlowLabel)) ++
        wire16 (UInt16.ofNat frame.segmentLen) ++
        [frame.transport.protocol, header.hopLimit] ++ header.srcIp.val ++ header.dstIp.val

/-- The frame on the wire. -/
def encode : List UInt8 :=
  frame.dstMac.val ++ frame.srcMac.val ++ wire16 (outerType frame.tags frame.network.ethertype) ++
    tagBytes frame.tags frame.network.ethertype ++ frame.networkBytes ++ frame.segment ++
    frame.padding

end Encode

/-- The tags as the decoder lists them. -/
def tagHeaders : List Tag → UInt16 → List Vlan.Header
  | [], _ => []
  | tag :: rest, ethertype =>
      { tci := tag.tci, ethertype := outerType rest ethertype } :: tagHeaders rest ethertype

section Decoded

variable (frame : Frame)

def v4Header (header : V4) : Ip.V4.Header where
  versionIhl := UInt8.ofNat (16 * 4 + header.options.headerWords)
  tos := header.tos
  totalLength := UInt16.ofNat (4 * header.options.headerWords + frame.segmentLen)
  identification := header.identification
  flagsFragment := header.flagsFragment
  ttl := header.ttl
  protocol := frame.transport.protocol
  checksum := frame.v4Checksum header
  srcIp := header.srcIp
  dstIp := header.dstIp

def v6Header (header : V6) : Ip.V6.Header where
  versionTcFl := UInt32.ofNat (6 * 2 ^ 28 + header.trafficClassFlowLabel)
  payloadLength := UInt16.ofNat frame.segmentLen
  nextHeader := frame.transport.protocol
  hopLimit := header.hopLimit
  srcIp := header.srcIp.val
  dstIp := header.dstIp.val

def networkHeader : NetworkHeader :=
  match frame.network with
  | .v4 header => .v4 (frame.v4Header header)
  | .v6 header => .v6 (frame.v6Header header)

/-- The checksum is left in wire order, as the decoder leaves it. -/
def tcpHeader (header : Tcp) : PcapAnalyzer.Tcp.Header where
  srcPort := header.srcPort
  dstPort := header.dstPort
  seqNumber := header.seqNumber
  ackNumber := header.ackNumber
  dataOffsetReserved := UInt8.ofNat (16 * header.options.headerWords + header.reserved)
  flags := header.flags
  windowSize := header.windowSize
  checksum := bswap16 frame.checksum
  urgentPointer := header.urgentPointer

def udpHeader (header : Udp) : PcapAnalyzer.Udp.Header where
  srcPort := header.srcPort
  dstPort := header.dstPort
  length := UInt16.ofNat frame.segmentLen
  checksum := frame.checksum

def transportHeader : TransportHeader :=
  match frame.transport with
  | .tcp header => .tcp (frame.tcpHeader header)
  | .udp header => .udp (frame.udpHeader header)

/-- What the frame says, as a decoded packet. -/
def packet : Packet where
  datalink := .ethernet {
    dstMac := frame.dstMac.val
    srcMac := frame.srcMac.val
    ethertype := frame.network.ethertype }
  vlanTags := tagHeaders frame.tags frame.network.ethertype
  network := frame.networkHeader
  transport := frame.transportHeader
  payload := frame.payload

end Decoded

end Frame

end PcapAnalyzer
