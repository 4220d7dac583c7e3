import PcapAnalyzer.Protocols.Link
import PcapAnalyzer.Protocols.Transport

/-!
# The decoded packet and `decodePacket`

A `Packet` is reused from record to record: `reset` clears some of its fields
only, and a layer that fails leaves behind whatever it had already written.
-/

namespace PcapAnalyzer

set_option autoImplicit false

inductive DataLinkHeader where
  | monostate
  | ethernet (header : Ethernet.Header)

inductive NetworkHeader where
  | monostate
  | v4 (header : Ip.V4.Header)
  | v6 (header : Ip.V6.Header)
  | arp (header : Arp.Header)

inductive TransportHeader where
  | monostate
  | tcp (header : Tcp.Header)
  | udp (header : Udp.Header)
  | icmp (header : Icmp.Header)
  | icmpv6 (header : Icmpv6.Header)

structure Packet where
  datalink : DataLinkHeader := .monostate
  vlanTags : List Vlan.Header := []
  network : NetworkHeader := .monostate
  ipv6Ext : List Ip.V6.Ext.Header := []
  transport : TransportHeader := .monostate
  payload : List UInt8 := []

namespace Packet

def isArp (pkt : Packet) : Bool :=
  match pkt.network with
  | .arp _ => true
  | _ => false

def tcp (pkt : Packet) : Option Tcp.Header :=
  match pkt.transport with
  | .tcp header => some header
  | _ => none

def isTcp (pkt : Packet) : Bool := pkt.tcp.isSome

def linktypeEthernet : UInt32 := 1

def setDatatypeFromLinktype (pkt : Packet) (linktype : UInt32) : Packet :=
  { pkt with datalink := if linktype = linktypeEthernet then .ethernet {} else .monostate }

def setNetworkFromEthertype (pkt : Packet) (ethertype : UInt16) : Packet :=
  { pkt with network :=
      if ethertype = Ethernet.ethertypeIpv4 then .v4 {}
      else if ethertype = Ethernet.ethertypeIpv6 then .v6 {}
      else if ethertype = Ethernet.ethertypeArp then .arp {}
      else .monostate }

def setTransportFromProtocol (pkt : Packet) (protocol : UInt8) : Packet :=
  { pkt with transport :=
      if protocol = Ip.protocolTcp then .tcp {}
      else if protocol = Ip.protocolUdp then .udp {}
      else if protocol = Ip.protocolIcmp then .icmp {}
      else if protocol = Ip.protocolIcmpv6 then .icmpv6 {}
      else .monostate }

/-- `datalink` and `payload` are not touched. -/
def reset (pkt : Packet) : Packet :=
  { pkt with vlanTags := [], network := .monostate, ipv6Ext := [], transport := .monostate }

end Packet

/-- `while (ethertype == VLAN)`. The loop leaves by itself after `maxTags` tags, so
`maxTags + 1` turns are always enough. -/
def vlanLoop : Nat → List UInt8 → Packet → UInt16 → ParseError × List UInt8 × Packet × UInt16
  | 0, span, out, ethertype => (.malformedHeader, span, out, ethertype)
  | fuel + 1, span, out, ethertype =>
      if ethertype = Ethernet.ethertypeVlan ∨ ethertype = Ethernet.ethertypeVlanQq then
        if out.vlanTags.length ≥ Vlan.maxTags then (.malformedHeader, span, out, ethertype) else
        let vtag := Vlan.parse span {} .big
        if vtag.err ≠ .none then (vtag.err, vtag.span, out, ethertype) else
        vlanLoop fuel vtag.span { out with vlanTags := out.vlanTags ++ [vtag.header] }
          vtag.header.ethertype
      else (.none, span, out, ethertype)

def decodeLayer2 (span : List UInt8) (out : Packet) : Parsed Packet :=
  match out.datalink with
  | .monostate => ⟨.unsupportedLinktype, out, span⟩
  | .ethernet header =>
      let eth := Ethernet.parse span header .big
      let out := { out with datalink := .ethernet eth.header }
      if eth.err ≠ .none then ⟨eth.err, out, eth.span⟩ else
      let (err, span, out, ethertype) :=
        vlanLoop (Vlan.maxTags + 1) eth.span out eth.header.ethertype
      if err ≠ .none then ⟨err, out, span⟩ else
      let out := { out with datalink := .ethernet { eth.header with ethertype := ethertype } }
      ⟨.none, out.setNetworkFromEthertype ethertype, span⟩

/-- `while (isExtension(next_header))`. The flag tells that a fragment ended the walk. -/
def extLoop : Nat → List UInt8 → Packet → UInt8 → ParseError × List UInt8 × Packet × UInt8 × Bool
  | 0, span, out, nextHeader => (.malformedHeader, span, out, nextHeader, false)
  | fuel + 1, span, out, nextHeader =>
      if Ip.V6.Ext.isExtension nextHeader then
        if out.ipv6Ext.length ≥ Ip.V6.Ext.maxHeaders then
          (.malformedHeader, span, out, nextHeader, false) else
        if nextHeader = Ip.protocolHopopt ∧ out.ipv6Ext ≠ [] then
          (.invalidFieldValue, span, out, nextHeader, false) else
        match Ip.V6.Ext.parse span nextHeader .big with
        | .error err => (err, span, out, nextHeader, false)
        | .ok (ext, rest) =>
            let out := { out with ipv6Ext := out.ipv6Ext ++ [ext] }
            if ext.isFragment then (.none, rest, out, nextHeader, true) else
            extLoop fuel rest out ext.nextHeader
      else (.none, span, out, nextHeader, false)

def decodeLayer3 (span : List UInt8) (out : Packet) (verify : Bool) : Parsed Packet :=
  match out.network with
  | .monostate => ⟨.unsupportedNetworkType, out, span⟩
  | .v4 header =>
      let v4 := Ip.V4.parse span header .big verify
      let out := { out with network := .v4 v4.header }
      if v4.err ≠ .none then ⟨v4.err, out, v4.span⟩ else
      ⟨.none, out.setTransportFromProtocol v4.header.protocol, v4.span⟩
  | .v6 header =>
      let v6 := Ip.V6.parse span header .big
      let out := { out with network := .v6 v6.header }
      if v6.err ≠ .none then ⟨v6.err, out, v6.span⟩ else
      let (err, span, out, nextHeader, fragment) :=
        extLoop (Ip.V6.Ext.maxHeaders + 1) v6.span out v6.header.nextHeader
      if err ≠ .none then ⟨err, out, span⟩ else
      if fragment then ⟨.none, out, span⟩ else
      ⟨.none, out.setTransportFromProtocol nextHeader, span⟩
  | .arp header =>
      let arp := Arp.parse span header .big
      ⟨arp.err, { out with network := .arp arp.header }, arp.span⟩

def decodeLayer4 (span : List UInt8) (out : Packet) (verify : Bool) : Parsed Packet :=
  match out.network with
  | .monostate => ⟨.unsupportedTransportType, out, span⟩
  | .arp _ => ⟨.none, out, span⟩
  | .v4 ip =>
      match out.transport with
      | .tcp header =>
          let tcp := Tcp.parseV4 span header ip .big verify
          ⟨tcp.err, { out with transport := .tcp tcp.header }, tcp.span⟩
      | .udp header =>
          let udp := Udp.parseV4 span header ip .big verify
          ⟨udp.err, { out with transport := .udp udp.header }, udp.span⟩
      | .icmp header =>
          let icmp := Icmp.parse span header .big verify
          ⟨icmp.err, { out with transport := .icmp icmp.header }, icmp.span⟩
      | .icmpv6 _ => ⟨.unsupportedTransportType, out, span⟩
      | .monostate => ⟨.unsupportedTransportType, out, span⟩
  | .v6 fixed =>
      let ip := if out.ipv6Ext ≠ [] then
        Ip.V6.Ext.pseudoHeader fixed out.ipv6Ext span.length else fixed
      match out.transport with
      | .tcp header =>
          let tcp := Tcp.parseV6 span header ip .big verify
          ⟨tcp.err, { out with transport := .tcp tcp.header }, tcp.span⟩
      | .udp header =>
          let udp := Udp.parseV6 span header ip .big verify
          ⟨udp.err, { out with transport := .udp udp.header }, udp.span⟩
      | .icmp _ => ⟨.unsupportedTransportType, out, span⟩
      | .icmpv6 header =>
          let icmpv6 := Icmpv6.parse span header ip .big verify
          ⟨icmpv6.err, { out with transport := .icmpv6 icmpv6.header }, icmpv6.span⟩
      | .monostate => ⟨.unsupportedTransportType, out, span⟩

def decodePacket (span : List UInt8) (out : Packet) (verify : Bool) : Parsed Packet :=
  let l2 := decodeLayer2 span out
  if l2.err ≠ .none then l2 else
  let l3 := decodeLayer3 l2.span l2.header verify
  if l3.err ≠ .none then l3 else
  if l3.header.isArp then l3 else
  let l4 := decodeLayer4 l3.span l3.header verify
  if l4.err ≠ .none then l4 else
  ⟨.none, { l4.header with payload := l4.span }, l4.span⟩

end PcapAnalyzer
