import PcapAnalyzer.Protocols.Ip

/-!
# TCP, UDP, ICMP and ICMPv6 headers

Each parser verifies its checksum over the raw bytes of the span before the
fields are swapped. A union of the source keeps one field per member, all loaded
from the same bytes; the program only reads the member its message type selects.
-/

namespace PcapAnalyzer

set_option autoImplicit false

namespace Tcp

def minHeaderLen : Nat := 20
def maxHeaderLen : Nat := 60

structure Header where
  srcPort : UInt16 := 0
  dstPort : UInt16 := 0
  seqNumber : UInt32 := 0
  ackNumber : UInt32 := 0
  dataOffsetReserved : UInt8 := 0
  flags : UInt8 := 0
  windowSize : UInt16 := 0
  checksum : UInt16 := 0
  urgentPointer : UInt16 := 0
  deriving DecidableEq, Repr

def Header.dataOffset (header : Header) : UInt8 := header.dataOffsetReserved >>> 4
def Header.headerLength (header : Header) : Nat := 4 * header.dataOffset.toNat
def Header.ack (header : Header) : Bool := header.flags &&& 0x10 ≠ 0
def Header.rst (header : Header) : Bool := header.flags &&& 0x04 ≠ 0
def Header.syn (header : Header) : Bool := header.flags &&& 0x02 ≠ 0
def Header.fin (header : Header) : Bool := header.flags &&& 0x01 ≠ 0

def Header.ofWire (span : List UInt8) : Header where
  srcPort := load16 span 0
  dstPort := load16 span 2
  seqNumber := load32 span 4
  ackNumber := load32 span 8
  dataOffsetReserved := byteAt span 12
  flags := byteAt span 13
  windowSize := load16 span 14
  checksum := load16 span 16
  urgentPointer := load16 span 18

/-- The checksum field stays in wire order, as in the source. -/
def parse (span : List UInt8) (header : Header) (length : Nat) (pseudoHeaderSum : UInt64)
    (endian : Endian) (verify : Bool) : Parsed Header :=
  if span.length < minHeaderLen then ⟨.unexpectedEof, header, span⟩ else
  let header := Header.ofWire span
  if header.headerLength < minHeaderLen ∨ header.headerLength > maxHeaderLen ∨
      length < header.headerLength ∨ span.length < length then
    ⟨.malformedHeader, header, span⟩ else
  if span.length < header.headerLength then ⟨.unexpectedEof, header, span⟩ else
  if verify && !verifyChecksum (span.take length) pseudoHeaderSum then
    ⟨.checksumMismatch, header, span⟩ else
  let header := { header with
    srcPort := toHost16 header.srcPort endian
    dstPort := toHost16 header.dstPort endian
    seqNumber := toHost32 header.seqNumber endian
    ackNumber := toHost32 header.ackNumber endian
    windowSize := toHost16 header.windowSize endian
    urgentPointer := toHost16 header.urgentPointer endian }
  ⟨.none, header, span.drop header.headerLength⟩

def parseV4 (span : List UInt8) (header : Header) (ipHeader : Ip.V4.Header) (endian : Endian)
    (verify : Bool) : Parsed Header :=
  parse span header (ipHeader.totalLength.toNat - ipHeader.headerLength)
    (Ip.V4.computePseudoHeaderSum ipHeader) endian verify

def parseV6 (span : List UInt8) (header : Header) (ipHeader : Ip.V6.Header) (endian : Endian)
    (verify : Bool) : Parsed Header :=
  parse span header ipHeader.payloadLength.toNat
    (Ip.V6.computePseudoHeaderSum ipHeader) endian verify

end Tcp

namespace Udp

def headerLen : Nat := 8

structure Header where
  srcPort : UInt16 := 0
  dstPort : UInt16 := 0
  length : UInt16 := 0
  checksum : UInt16 := 0
  deriving DecidableEq, Repr

def Header.ofWire (span : List UInt8) : Header where
  srcPort := load16 span 0
  dstPort := load16 span 2
  length := load16 span 4
  checksum := load16 span 6

def parse (span : List UInt8) (header : Header) (pseudoHeaderSum : UInt64) (endian : Endian)
    (acceptZeroChecksum verify : Bool) : Parsed Header :=
  if span.length < headerLen then ⟨.unexpectedEof, header, span⟩ else
  let header := Header.ofWire span
  let length := (toHost16 header.length endian).toNat
  if length < headerLen ∨ span.length < length then ⟨.malformedHeader, header, span⟩ else
  if verify && (header.checksum ≠ 0 || !acceptZeroChecksum) &&
      !verifyChecksum (span.take length) pseudoHeaderSum then
    ⟨.checksumMismatch, header, span⟩ else
  let header := { header with
    srcPort := toHost16 header.srcPort endian
    dstPort := toHost16 header.dstPort endian
    length := toHost16 header.length endian
    checksum := toHost16 header.checksum endian }
  ⟨.none, header, slice span headerLen (header.length.toNat - headerLen)⟩

def parseV4 (span : List UInt8) (header : Header) (ipHeader : Ip.V4.Header) (endian : Endian)
    (verify : Bool) : Parsed Header :=
  parse span header (Ip.V4.computePseudoHeaderSum ipHeader) endian true verify

def parseV6 (span : List UInt8) (header : Header) (ipHeader : Ip.V6.Header) (endian : Endian)
    (verify : Bool) : Parsed Header :=
  parse span header (Ip.V6.computePseudoHeaderSum ipHeader) endian false verify

end Udp

namespace Icmp

def headerLen : Nat := 8

def typeEchoReply : UInt8 := 0
def typeUnreachable : UInt8 := 3
def typeSourceQuench : UInt8 := 4
def typeRedirect : UInt8 := 5
def typeEchoRequest : UInt8 := 8
def typeTtlExceeded : UInt8 := 11
def typeParamProblem : UInt8 := 12
def typeTimestamp : UInt8 := 13
def typeTimestampReply : UInt8 := 14
def typeInfoRequest : UInt8 := 15
def typeInfoReply : UInt8 := 16

def codeTtlReassembly : UInt8 := 1
def codeParamMissingOpt : UInt8 := 1
def codeRedirectTosHost : UInt8 := 3

structure Header where
  type : UInt8 := 0
  code : UInt8 := 0
  checksum : UInt16 := 0
  pointer : UInt8 := 0
  gateway : UInt32 := 0
  echoId : UInt16 := 0
  echoSeq : UInt16 := 0
  deriving DecidableEq, Repr

def Header.ofWire (span : List UInt8) : Header where
  type := byteAt span 0
  code := byteAt span 1
  checksum := load16 span 2
  pointer := byteAt span 4
  gateway := load32 span 4
  echoId := load16 span 4
  echoSeq := load16 span 6

def isEcho (type : UInt8) : Bool := type = typeEchoRequest || type = typeEchoReply

/-- The greatest code the type switch accepts. -/
def maxCode (type : UInt8) : UInt8 :=
  if isEcho type || type = typeSourceQuench || type = typeTimestamp ||
      type = typeTimestampReply || type = typeInfoRequest || type = typeInfoReply then 0
  else if type = typeUnreachable then 15
  else if type = typeRedirect then codeRedirectTosHost
  else if type = typeTtlExceeded then codeTtlReassembly
  else if type = typeParamProblem then codeParamMissingOpt
  else 255

def parse (span : List UInt8) (header : Header) (endian : Endian) (verify : Bool) :
    Parsed Header :=
  if span.length < headerLen then ⟨.unexpectedEof, header, span⟩ else
  let header := Header.ofWire span
  if header.code > maxCode header.type then ⟨.invalidFieldValue, header, span⟩ else
  let header :=
    if header.type = typeRedirect then
      { header with gateway := toHost32 header.gateway endian }
    else if isEcho header.type then
      { header with
        echoId := toHost16 header.echoId endian
        echoSeq := toHost16 header.echoSeq endian }
    else header
  if verify && !verifyChecksum span 0 then ⟨.checksumMismatch, header, span⟩ else
  let header := { header with checksum := toHost16 header.checksum endian }
  ⟨.none, header, span.drop headerLen⟩

end Icmp

namespace Icmpv6

def headerLen : Nat := 8
def minMtu : UInt32 := 1280

def typeUnreachable : UInt8 := 1
def typePacketTooBig : UInt8 := 2
def typeTtlExceeded : UInt8 := 3
def typeParamProblem : UInt8 := 4
def typeEchoRequest : UInt8 := 128
def typeEchoReply : UInt8 := 129
def typeRouterSolicit : UInt8 := 133
def typeRouterAdvert : UInt8 := 134
def typeNeighborSolicit : UInt8 := 135
def typeNeighborAdvert : UInt8 := 136

def codeUnreachPort : UInt8 := 4
def codeTtlReassembly : UInt8 := 1
def codeParamUnknownOption : UInt8 := 2

structure Header where
  type : UInt8 := 0
  code : UInt8 := 0
  checksum : UInt16 := 0
  echoId : UInt16 := 0
  echoSeq : UInt16 := 0
  mtu : UInt32 := 0
  pointer : UInt32 := 0
  deriving DecidableEq, Repr

def Header.ofWire (span : List UInt8) : Header where
  type := byteAt span 0
  code := byteAt span 1
  checksum := load16 span 2
  echoId := load16 span 4
  echoSeq := load16 span 6
  mtu := load32 span 4
  pointer := load32 span 4

def isEcho (type : UInt8) : Bool := type = typeEchoRequest || type = typeEchoReply

def maxCode (type : UInt8) : UInt8 :=
  if isEcho type || type = typePacketTooBig || type = typeRouterSolicit ||
      type = typeRouterAdvert || type = typeNeighborSolicit || type = typeNeighborAdvert then 0
  else if type = typeUnreachable then codeUnreachPort
  else if type = typeTtlExceeded then codeTtlReassembly
  else if type = typeParamProblem then codeParamUnknownOption
  else 255

def parse (span : List UInt8) (header : Header) (ipHeader : Ip.V6.Header) (endian : Endian)
    (verify : Bool) : Parsed Header :=
  if span.length < headerLen then ⟨.unexpectedEof, header, span⟩ else
  let header := Header.ofWire span
  if span.length < ipHeader.payloadLength.toNat then ⟨.malformedHeader, header, span⟩ else
  let header := { header with checksum := toHost16 header.checksum endian }
  if header.code > maxCode header.type then ⟨.invalidFieldValue, header, span⟩ else
  let header :=
    if header.type = typePacketTooBig then { header with mtu := toHost32 header.mtu endian }
    else if header.type = typeParamProblem then
      { header with pointer := toHost32 header.pointer endian }
    else if isEcho header.type then
      { header with
        echoId := toHost16 header.echoId endian
        echoSeq := toHost16 header.echoSeq endian }
    else header
  if header.type = typePacketTooBig ∧ header.mtu < minMtu then
    ⟨.invalidFieldValue, header, span⟩ else
  if verify && !verifyChecksum (span.take ipHeader.payloadLength.toNat)
      (Ip.V6.computePseudoHeaderSum ipHeader) then
    ⟨.checksumMismatch, header, span⟩ else
  ⟨.none, header, span.drop headerLen⟩

end Icmpv6

end PcapAnalyzer
