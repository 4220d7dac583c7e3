import PcapAnalyzer.Protocols.Link
import PcapAnalyzer.Protocols.Transport
import PcapAnalyzer.Util.CheckedChecksum

/-!
# The header parsers with checked accesses

The parsers once more, over windows of the frame: a header is copied octet by octet out of the
window, a span is narrowed only inside of it, and a length is subtracted only from one that is
not smaller. Whatever goes out of range makes the whole parser fail.
-/

namespace PcapAnalyzer.Checked

open CheckedMemory

set_option autoImplicit false

variable {frame : List UInt8}

/-- What a parser with in-out parameters leaves behind. -/
structure Windowed (frame : List UInt8) (Header : Type) where
  err : ParseError
  header : Header
  window : Window frame

namespace Ethernet

open PcapAnalyzer.Ethernet (Header headerLen)

def parse (window : Window frame) (header : Header) (endian : Endian) :
    Option (Windowed frame Header) :=
  if window.size < headerLen then some ⟨.unexpectedEof, header, window⟩ else do
  let header := Header.ofWire (← window.copy 0 headerLen)
  let header := { header with ethertype := toHost16 header.ethertype endian }
  some ⟨.none, header, ← window.rest headerLen⟩

end Ethernet

namespace Vlan

open PcapAnalyzer.Vlan (Header headerLen vidReserved)

def parse (window : Window frame) (header : Header) (endian : Endian) :
    Option (Windowed frame Header) :=
  if window.size < headerLen then some ⟨.unexpectedEof, header, window⟩ else do
  let header := Header.ofWire (← window.copy 0 headerLen)
  let header := { header with
    tci := toHost16 header.tci endian
    ethertype := toHost16 header.ethertype endian }
  if header.vid = vidReserved then some ⟨.invalidFieldValue, header, window⟩ else
  some ⟨.none, header, ← window.rest headerLen⟩

end Vlan

namespace Arp

open PcapAnalyzer.Arp (Header minHeaderLen)

/-- The octets the four pointers point at are read as well. -/
def parse (window : Window frame) (header : Header) (endian : Endian) :
    Option (Windowed frame Header) :=
  if window.size < minHeaderLen then some ⟨.unexpectedEof, header, window⟩ else do
  let header := Header.ofWire (← window.copy 0 minHeaderLen) header
  let header := { header with
    htype := toHost16 header.htype endian
    ptype := toHost16 header.ptype endian
    oper := toHost16 header.oper endian }
  if header.hlen = 0 ∨ header.plen = 0 then some ⟨.invalidFieldValue, header, window⟩ else
  let hlen := header.hlen.toNat
  let plen := header.plen.toNat
  let headerLen := minHeaderLen + 2 * hlen + 2 * plen
  if window.size < headerLen then some ⟨.unexpectedEof, header, window⟩ else do
  let header := { header with
    sha := ← window.copy minHeaderLen hlen
    spa := ← window.copy (minHeaderLen + hlen) plen
    tha := ← window.copy (minHeaderLen + (hlen + plen)) hlen
    tpa := ← window.copy (minHeaderLen + (2 * hlen + plen)) plen }
  some ⟨.none, header, ← window.rest headerLen⟩

end Arp

/-- The check of a range of octets, where it is made. -/
def checksumFails (made : Bool) (window : Window frame) (len : Nat) (pseudoHeaderSum : UInt64) :
    Option Bool :=
  if made then (verifyChecksum window len pseudoHeaderSum).map (!·) else some false

namespace V4

open PcapAnalyzer.Ip.V4 (Header minHeaderLen maxHeaderLen supportedVersion)

def parse (window : Window frame) (header : Header) (endian : Endian) (verify : Bool) :
    Option (Windowed frame Header) :=
  if window.size < minHeaderLen then some ⟨.unexpectedEof, header, window⟩ else do
  let header := Header.ofWire (← window.copy 0 minHeaderLen)
  if header.headerLength < minHeaderLen ∨ header.headerLength > maxHeaderLen then
    some ⟨.malformedHeader, header, window⟩ else
  if window.size < header.headerLength then some ⟨.unexpectedEof, header, window⟩ else
  if header.version ≠ supportedVersion then some ⟨.invalidFieldValue, header, window⟩ else do
  if ← checksumFails verify window header.headerLength 0 then
    some ⟨.checksumMismatch, header, window⟩ else
  let header := { header with
    totalLength := toHost16 header.totalLength endian
    identification := toHost16 header.identification endian
    flagsFragment := toHost16 header.flagsFragment endian
    checksum := toHost16 header.checksum endian
    srcIp := toHost32 header.srcIp endian
    dstIp := toHost32 header.dstIp endian }
  if header.totalLength.toNat < header.headerLength then
    some ⟨.malformedHeader, header, window⟩ else
  if header.totalLength.toNat > window.size then some ⟨.unexpectedEof, header, window⟩ else do
  let payloadLength ← difference header.totalLength.toNat header.headerLength
  some ⟨.none, header, ← window.part header.headerLength payloadLength⟩

/-- `header.total_length - sizeof(uint32_t) * header.ihl()` must not go below zero. -/
def computePseudoHeaderSum (header : Header) : Option UInt64 :=
  (difference header.totalLength.toNat header.headerLength).map fun _ =>
    Ip.V4.computePseudoHeaderSum header

end V4

namespace V6

open PcapAnalyzer.Ip.V6 (Header headerLen supportedVersion)

def parse (window : Window frame) (header : Header) (endian : Endian) :
    Option (Windowed frame Header) :=
  if window.size < headerLen then some ⟨.unexpectedEof, header, window⟩ else do
  let header := Header.ofWire (← window.copy 0 headerLen)
  let header := { header with
    versionTcFl := toHost32 header.versionTcFl endian
    payloadLength := toHost16 header.payloadLength endian }
  if header.version ≠ supportedVersion then some ⟨.invalidFieldValue, header, window⟩ else do
  let window ← window.rest headerLen
  if header.payloadLength.toNat > window.size then some ⟨.unexpectedEof, header, window⟩ else do
  some ⟨.none, header, ← window.part 0 header.payloadLength.toNat⟩

end V6

namespace Ext

open PcapAnalyzer.Ip (protocolAh protocolIpv6Route protocolIpv6Frag)
open PcapAnalyzer.Ip.V6.Ext (Header minHeaderLen ahMinLen wireLength routingType0 routingType2
  routingTypeSrh routingAddressOffset)

/-- `addresses - 1` must not go below zero. -/
def finalDstOffset (routingType hdrExtLen : UInt8) : Option Nat :=
  if routingType ≠ routingTypeSrh then
    (difference (hdrExtLen.toNat / 2) 1).map fun before => routingAddressOffset + 16 * before
  else some routingAddressOffset

def parse (window : Window frame) (type : UInt8) (endian : Endian) :
    Option (Except ParseError (Header × Window frame)) :=
  if window.size < minHeaderLen then some (.error .unexpectedEof) else do
  let wire ← window.copy 0 minHeaderLen
  let hdrExtLen := byteAt wire 1
  let length := wireLength type hdrExtLen
  if type = protocolAh ∧ length < ahMinLen then some (.error .malformedHeader) else
  if window.size < length then some (.error .unexpectedEof) else
  let header : Header :=
    { type := type, nextHeader := byteAt wire 0, length := UInt16.ofNat length }
  if type = protocolIpv6Route then
    let header := { header with
      routingType := byteAt wire 2
      segmentsLeft := byteAt wire 3 }
    let addressed := header.routingType = routingType0 ∨ header.routingType = routingType2 ∨
      header.routingType = routingTypeSrh
    if ¬ addressed ∨ header.segmentsLeft = 0 then do
      some (.ok (header, ← window.rest length))
    else if hdrExtLen < 2 ∨ hdrExtLen % 2 ≠ 0 then some (.error .malformedHeader)
    else do
      let offset ← finalDstOffset header.routingType hdrExtLen
      let header := { header with finalDst := ← window.copy offset 16, hasFinalDst := true }
      some (.ok (header, ← window.rest length))
  else if type = protocolIpv6Frag then do
    let offsetFlags := toHost16 (load16 wire 2) endian
    some (.ok ({ header with
      fragmentOffset := offsetFlags >>> 3
      moreFragments := offsetFlags &&& 0x1 ≠ 0
      identification := toHost32 (PcapAnalyzer.load32 wire 4) endian }, ← window.rest length))
  else if type = protocolAh then do
    some (.ok ({ header with spi := toHost32 (PcapAnalyzer.load32 wire 4) endian },
      ← window.rest length))
  else do some (.ok (header, ← window.rest length))

end Ext

namespace Tcp

open PcapAnalyzer.Tcp (Header minHeaderLen maxHeaderLen)

def parse (window : Window frame) (header : Header) (length : Nat) (pseudoHeaderSum : UInt64)
    (endian : Endian) (verify : Bool) : Option (Windowed frame Header) :=
  if window.size < minHeaderLen then some ⟨.unexpectedEof, header, window⟩ else do
  let header := Header.ofWire (← window.copy 0 minHeaderLen)
  if header.headerLength < minHeaderLen ∨ header.headerLength > maxHeaderLen ∨
      length < header.headerLength ∨ window.size < length then
    some ⟨.malformedHeader, header, window⟩ else
  if window.size < header.headerLength then some ⟨.unexpectedEof, header, window⟩ else do
  if ← checksumFails verify window length pseudoHeaderSum then
    some ⟨.checksumMismatch, header, window⟩ else
  let header := { header with
    srcPort := toHost16 header.srcPort endian
    dstPort := toHost16 header.dstPort endian
    seqNumber := toHost32 header.seqNumber endian
    ackNumber := toHost32 header.ackNumber endian
    windowSize := toHost16 header.windowSize endian
    urgentPointer := toHost16 header.urgentPointer endian }
  some ⟨.none, header, ← window.rest header.headerLength⟩

def parseV4 (window : Window frame) (header : Header) (ipHeader : Ip.V4.Header)
    (endian : Endian) (verify : Bool) : Option (Windowed frame Header) := do
  let length ← difference ipHeader.totalLength.toNat ipHeader.headerLength
  parse window header length (← V4.computePseudoHeaderSum ipHeader) endian verify

def parseV6 (window : Window frame) (header : Header) (ipHeader : Ip.V6.Header)
    (endian : Endian) (verify : Bool) : Option (Windowed frame Header) :=
  parse window header ipHeader.payloadLength.toNat (Ip.V6.computePseudoHeaderSum ipHeader)
    endian verify

end Tcp

namespace Udp

open PcapAnalyzer.Udp (Header headerLen)

def parse (window : Window frame) (header : Header) (pseudoHeaderSum : UInt64)
    (endian : Endian) (acceptZeroChecksum verify : Bool) : Option (Windowed frame Header) :=
  if window.size < headerLen then some ⟨.unexpectedEof, header, window⟩ else do
  let header := Header.ofWire (← window.copy 0 headerLen)
  let length := (toHost16 header.length endian).toNat
  if length < headerLen ∨ window.size < length then some ⟨.malformedHeader, header, window⟩ else do
  if ← checksumFails (verify && (header.checksum ≠ 0 || !acceptZeroChecksum)) window length
      pseudoHeaderSum then
    some ⟨.checksumMismatch, header, window⟩ else
  let header := { header with
    srcPort := toHost16 header.srcPort endian
    dstPort := toHost16 header.dstPort endian
    length := toHost16 header.length endian
    checksum := toHost16 header.checksum endian }
  let payloadLength ← difference header.length.toNat headerLen
  some ⟨.none, header, ← window.part headerLen payloadLength⟩

def parseV4 (window : Window frame) (header : Header) (ipHeader : Ip.V4.Header)
    (endian : Endian) (verify : Bool) : Option (Windowed frame Header) := do
  parse window header (← V4.computePseudoHeaderSum ipHeader) endian true verify

def parseV6 (window : Window frame) (header : Header) (ipHeader : Ip.V6.Header)
    (endian : Endian) (verify : Bool) : Option (Windowed frame Header) :=
  parse window header (Ip.V6.computePseudoHeaderSum ipHeader) endian false verify

end Udp

namespace Icmp

open PcapAnalyzer.Icmp (Header headerLen maxCode typeRedirect isEcho)

def parse (window : Window frame) (header : Header) (endian : Endian) (verify : Bool) :
    Option (Windowed frame Header) :=
  if window.size < headerLen then some ⟨.unexpectedEof, header, window⟩ else do
  let header := Header.ofWire (← window.copy 0 headerLen)
  if header.code > maxCode header.type then some ⟨.invalidFieldValue, header, window⟩ else
  let header :=
    if header.type = typeRedirect then
      { header with gateway := toHost32 header.gateway endian }
    else if isEcho header.type then
      { header with
        echoId := toHost16 header.echoId endian
        echoSeq := toHost16 header.echoSeq endian }
    else header
  if ← checksumFails verify window window.size 0 then
    some ⟨.checksumMismatch, header, window⟩ else
  let header := { header with checksum := toHost16 header.checksum endian }
  some ⟨.none, header, ← window.rest headerLen⟩

end Icmp

namespace Icmpv6

open PcapAnalyzer.Icmpv6 (Header headerLen maxCode minMtu typePacketTooBig typeParamProblem isEcho)

def parse (window : Window frame) (header : Header) (ipHeader : Ip.V6.Header)
    (endian : Endian) (verify : Bool) : Option (Windowed frame Header) :=
  if window.size < headerLen then some ⟨.unexpectedEof, header, window⟩ else do
  let header := Header.ofWire (← window.copy 0 headerLen)
  if window.size < ipHeader.payloadLength.toNat then
    some ⟨.malformedHeader, header, window⟩ else
  let header := { header with checksum := toHost16 header.checksum endian }
  if header.code > maxCode header.type then some ⟨.invalidFieldValue, header, window⟩ else
  let header :=
    if header.type = typePacketTooBig then { header with mtu := toHost32 header.mtu endian }
    else if header.type = typeParamProblem then
      { header with pointer := toHost32 header.pointer endian }
    else if isEcho header.type then
      { header with
        echoId := toHost16 header.echoId endian
        echoSeq := toHost16 header.echoSeq endian }
    else header
  if header.type = typePacketTooBig ∧ header.mtu < minMtu then
    some ⟨.invalidFieldValue, header, window⟩ else do
  if ← checksumFails verify window ipHeader.payloadLength.toNat
      (Ip.V6.computePseudoHeaderSum ipHeader) then
    some ⟨.checksumMismatch, header, window⟩ else
  some ⟨.none, header, ← window.rest headerLen⟩

end Icmpv6

end PcapAnalyzer.Checked
