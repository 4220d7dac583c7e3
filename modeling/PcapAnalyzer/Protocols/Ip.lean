import PcapAnalyzer.Util.Checksum

/-!
# IPv4, IPv6 and the IPv6 extension headers

The parsers of `ip::v4`, `ip::v6` and `ip::v6::ext` with the pseudo-header sums
the transport checksums start from.
-/

namespace PcapAnalyzer.Ip

set_option autoImplicit false

def protocolUdp : UInt8 := 17
def protocolTcp : UInt8 := 6
def protocolIcmp : UInt8 := 1
def protocolIcmpv6 : UInt8 := 58
def protocolHopopt : UInt8 := 0
def protocolIpv6Route : UInt8 := 43
def protocolIpv6Frag : UInt8 := 44
def protocolAh : UInt8 := 51
def protocolIpv6Opts : UInt8 := 60
def protocolMobility : UInt8 := 135
def protocolHip : UInt8 := 139
def protocolShim6 : UInt8 := 140

namespace V4

def minHeaderLen : Nat := 20
def maxHeaderLen : Nat := 60
def supportedVersion : UInt8 := 4

structure Header where
  versionIhl : UInt8 := 0
  tos : UInt8 := 0
  totalLength : UInt16 := 0
  identification : UInt16 := 0
  flagsFragment : UInt16 := 0
  ttl : UInt8 := 0
  protocol : UInt8 := 0
  checksum : UInt16 := 0
  srcIp : UInt32 := 0
  dstIp : UInt32 := 0
  deriving DecidableEq, Repr

def Header.version (header : Header) : UInt8 := header.versionIhl >>> 4
def Header.ihl (header : Header) : UInt8 := header.versionIhl &&& 0x0F
def Header.headerLength (header : Header) : Nat := 4 * header.ihl.toNat
def Header.fragment (header : Header) : UInt16 := header.flagsFragment &&& 0x1FFF

def Header.ofWire (span : List UInt8) : Header where
  versionIhl := byteAt span 0
  tos := byteAt span 1
  totalLength := load16 span 2
  identification := load16 span 4
  flagsFragment := load16 span 6
  ttl := byteAt span 8
  protocol := byteAt span 9
  checksum := load16 span 10
  srcIp := load32 span 12
  dstIp := load32 span 16

def parse (span : List UInt8) (header : Header) (endian : Endian) (verify : Bool) :
    Parsed Header :=
  if span.length < minHeaderLen then ⟨.unexpectedEof, header, span⟩ else
  let header := Header.ofWire span
  if header.headerLength < minHeaderLen ∨ header.headerLength > maxHeaderLen then
    ⟨.malformedHeader, header, span⟩ else
  if span.length < header.headerLength then ⟨.unexpectedEof, header, span⟩ else
  if header.version ≠ supportedVersion then ⟨.invalidFieldValue, header, span⟩ else
  if verify && !verifyChecksum (span.take header.headerLength) 0 then
    ⟨.checksumMismatch, header, span⟩ else
  let header := { header with
    totalLength := toHost16 header.totalLength endian
    identification := toHost16 header.identification endian
    flagsFragment := toHost16 header.flagsFragment endian
    checksum := toHost16 header.checksum endian
    srcIp := toHost32 header.srcIp endian
    dstIp := toHost32 header.dstIp endian }
  if header.totalLength.toNat < header.headerLength then ⟨.malformedHeader, header, span⟩ else
  if header.totalLength.toNat > span.length then ⟨.unexpectedEof, header, span⟩ else
  ⟨.none, header, slice span header.headerLength (header.totalLength.toNat - header.headerLength)⟩

def computePseudoHeaderSum (header : Header) : UInt64 :=
  (header.srcIp >>> 16).toUInt64 + (header.srcIp &&& 0xFFFF).toUInt64 +
    (header.dstIp >>> 16).toUInt64 + (header.dstIp &&& 0xFFFF).toUInt64 +
    header.protocol.toUInt64 + (header.totalLength.toUInt64 - 4 * header.ihl.toUInt64)

end V4

namespace V6

def headerLen : Nat := 40
def supportedVersion : UInt32 := 6

structure Header where
  versionTcFl : UInt32 := 0
  payloadLength : UInt16 := 0
  nextHeader : UInt8 := 0
  hopLimit : UInt8 := 0
  srcIp : List UInt8 := List.replicate 16 0
  dstIp : List UInt8 := List.replicate 16 0
  deriving DecidableEq, Repr

def Header.version (header : Header) : UInt32 := header.versionTcFl >>> 28

def Header.ofWire (span : List UInt8) : Header where
  versionTcFl := load32 span 0
  payloadLength := load16 span 4
  nextHeader := byteAt span 6
  hopLimit := byteAt span 7
  srcIp := slice span 8 16
  dstIp := slice span 24 16

/-- The span is already past the fixed header when the payload length is checked. -/
def parse (span : List UInt8) (header : Header) (endian : Endian) : Parsed Header :=
  if span.length < headerLen then ⟨.unexpectedEof, header, span⟩ else
  let header := Header.ofWire span
  let header := { header with
    versionTcFl := toHost32 header.versionTcFl endian
    payloadLength := toHost16 header.payloadLength endian }
  if header.version ≠ supportedVersion then ⟨.invalidFieldValue, header, span⟩ else
  let span := span.drop headerLen
  if header.payloadLength.toNat > span.length then ⟨.unexpectedEof, header, span⟩ else
  ⟨.none, header, span.take header.payloadLength.toNat⟩

/-- `(ip[i] << 8) | ip[i + 1]` summed over the eight pairs of an address. -/
def addressSum (ip : List UInt8) : UInt64 :=
  (List.range 8).foldl (fun sum pair =>
    sum + (((byteAt ip (2 * pair)).toUInt32 <<< 8) |||
      (byteAt ip (2 * pair + 1)).toUInt32).toUInt64) 0

def computePseudoHeaderSum (header : Header) : UInt64 :=
  addressSum header.srcIp + addressSum header.dstIp + header.payloadLength.toUInt64 +
    header.nextHeader.toUInt64

namespace Ext

def minHeaderLen : Nat := 8
def ahMinLen : Nat := 12
def maxHeaders : Nat := 8

def routingType0 : UInt8 := 0
def routingType2 : UInt8 := 2
def routingTypeSrh : UInt8 := 4
def routingAddressOffset : Nat := 8

def isExtension (nextHeader : UInt8) : Bool :=
  nextHeader = protocolHopopt || nextHeader = protocolIpv6Route ||
    nextHeader = protocolIpv6Frag || nextHeader = protocolAh ||
    nextHeader = protocolIpv6Opts || nextHeader = protocolMobility ||
    nextHeader = protocolHip || nextHeader = protocolShim6

structure Header where
  type : UInt8 := 0
  nextHeader : UInt8 := 0
  length : UInt16 := 0
  routingType : UInt8 := 0
  segmentsLeft : UInt8 := 0
  hasFinalDst : Bool := false
  finalDst : List UInt8 := List.replicate 16 0
  fragmentOffset : UInt16 := 0
  moreFragments : Bool := false
  identification : UInt32 := 0
  spi : UInt32 := 0
  deriving DecidableEq, Repr

def Header.isFragment (header : Header) : Bool :=
  header.type = protocolIpv6Frag && (header.fragmentOffset ≠ 0 || header.moreFragments)

/-- The length of one extension header, in its own unit. -/
def wireLength (type hdrExtLen : UInt8) : Nat :=
  if type = protocolIpv6Frag then minHeaderLen
  else if type = protocolAh then (hdrExtLen.toNat + 2) * 4
  else (hdrExtLen.toNat + 1) * minHeaderLen

/-- The byte offset of the address a routing header finally leads to. -/
def finalDstOffset (routingType hdrExtLen : UInt8) : Nat :=
  if routingType ≠ routingTypeSrh then
    routingAddressOffset + 16 * (hdrExtLen.toNat / 2 - 1)
  else routingAddressOffset

/-- The header is a fresh local of the caller, so nothing of it survives an error. -/
def parse (span : List UInt8) (type : UInt8) (endian : Endian) :
    Except ParseError (Header × List UInt8) :=
  if span.length < minHeaderLen then .error .unexpectedEof else
  let hdrExtLen := byteAt span 1
  let length := wireLength type hdrExtLen
  if type = protocolAh ∧ length < ahMinLen then .error .malformedHeader else
  if span.length < length then .error .unexpectedEof else
  let header : Header :=
    { type := type, nextHeader := byteAt span 0, length := UInt16.ofNat length }
  if type = protocolIpv6Route then
    let header := { header with
      routingType := byteAt span 2
      segmentsLeft := byteAt span 3 }
    let addressed := header.routingType = routingType0 ∨ header.routingType = routingType2 ∨
      header.routingType = routingTypeSrh
    if ¬ addressed ∨ header.segmentsLeft = 0 then .ok (header, span.drop length) else
    if hdrExtLen < 2 ∨ hdrExtLen % 2 ≠ 0 then .error .malformedHeader else
    .ok ({ header with
      finalDst := slice span (finalDstOffset header.routingType hdrExtLen) 16
      hasFinalDst := true }, span.drop length)
  else if type = protocolIpv6Frag then
    let offsetFlags := toHost16 (load16 span 2) endian
    .ok ({ header with
      fragmentOffset := offsetFlags >>> 3
      moreFragments := offsetFlags &&& 0x1 ≠ 0
      identification := toHost32 (load32 span 4) endian }, span.drop length)
  else if type = protocolAh then
    .ok ({ header with spi := toHost32 (load32 span 4) endian }, span.drop length)
  else .ok (header, span.drop length)

def pseudoHeader (ipHeader : V6.Header) (exts : List Header) (upperLen : Nat) : V6.Header :=
  let out := { ipHeader with payloadLength := UInt16.ofNat upperLen }
  let out := match exts.getLast? with
    | none => out
    | some last => { out with nextHeader := last.nextHeader }
  exts.foldl (fun out ext =>
    if ext.hasFinalDst then { out with dstIp := ext.finalDst } else out) out

end Ext

end V6

end PcapAnalyzer.Ip
