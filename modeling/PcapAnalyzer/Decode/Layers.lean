import PcapAnalyzer.Decode.Packet
import PcapAnalyzer.Protocols.Accepted

/-!
# How an accepted frame is read

A frame that is accepted has been read layer by layer, and each layer in one of a few ways.
What the packet holds afterwards is said here once for each of them.
-/

namespace PcapAnalyzer

set_option autoImplicit false

/-- The header an upper-layer checksum of IPv6 is computed with. -/
def upperHeader (fixed : Ip.V6.Header) (exts : List Ip.V6.Ext.Header) (upperLen : Nat) :
    Ip.V6.Header :=
  if exts ≠ [] then Ip.V6.Ext.pseudoHeader fixed exts upperLen else fixed

/-- The network layer of an accepted frame. -/
inductive ReadsDatagram (span : List UInt8) (out : Packet) (verify : Bool) :
    Parsed Packet → Prop where
  | v4 {header : Ip.V4.Header} (announced : out.network = .v4 header)
      (accepts : Ip.V4.Accepts span verify) :
      ReadsDatagram span out verify
        ⟨.none, ({ out with network := .v4 (Ip.V4.headerOf span) } :
          Packet).setTransportFromProtocol (Ip.V4.headerOf span).protocol, Ip.V4.payloadOf span⟩
  | v6 {header : Ip.V6.Header} {rest : List UInt8} {exts : List Ip.V6.Ext.Header}
      {nextHeader : UInt8} (announced : out.network = .v6 header)
      (accepts : Ip.V6.Accepts span)
      (walked : extLoop (Ip.V6.Ext.maxHeaders + 1) (Ip.V6.payloadOf span)
        { out with network := .v6 (Ip.V6.headerOf span) } (Ip.V6.headerOf span).nextHeader =
          (.none, rest, { out with
            network := .v6 (Ip.V6.headerOf span)
            ipv6Ext := out.ipv6Ext ++ exts }, nextHeader, false)) :
      ReadsDatagram span out verify
        ⟨.none, ({ out with
          network := .v6 (Ip.V6.headerOf span)
          ipv6Ext := out.ipv6Ext ++ exts } : Packet).setTransportFromProtocol nextHeader, rest⟩
  | fragment {header : Ip.V6.Header} {rest : List UInt8} {exts : List Ip.V6.Ext.Header}
      {nextHeader : UInt8} (announced : out.network = .v6 header)
      (accepts : Ip.V6.Accepts span)
      (walked : extLoop (Ip.V6.Ext.maxHeaders + 1) (Ip.V6.payloadOf span)
        { out with network := .v6 (Ip.V6.headerOf span) } (Ip.V6.headerOf span).nextHeader =
          (.none, rest, { out with
            network := .v6 (Ip.V6.headerOf span)
            ipv6Ext := out.ipv6Ext ++ exts }, nextHeader, true)) :
      ReadsDatagram span out verify
        ⟨.none, { out with
          network := .v6 (Ip.V6.headerOf span)
          ipv6Ext := out.ipv6Ext ++ exts }, rest⟩
  | arp {header : Arp.Header} (announced : out.network = .arp header)
      (accepts : Arp.Accepts span) :
      ReadsDatagram span out verify
        ⟨.none, { out with
          network := .arp ((Arp.Header.ofWire span header).toHost.withAddresses span) },
          span.drop (Arp.headerLen span)⟩

/-- The transport layer of an accepted frame. -/
inductive ReadsSegment (span : List UInt8) (out : Packet) (verify : Bool) :
    Parsed Packet → Prop where
  | tcpV4 {ip : Ip.V4.Header} {header : Tcp.Header} (network : out.network = .v4 ip)
      (announced : out.transport = .tcp header)
      (accepts : Tcp.Accepts span (ip.totalLength.toNat - ip.headerLength)
        (Ip.V4.computePseudoHeaderSum ip) verify) :
      ReadsSegment span out verify
        ⟨.none, { out with transport := .tcp (Tcp.headerOf span) },
          span.drop (Tcp.headerOf span).headerLength⟩
  | udpV4 {ip : Ip.V4.Header} {header : Udp.Header} (network : out.network = .v4 ip)
      (announced : out.transport = .udp header)
      (accepts : Udp.Accepts span (Ip.V4.computePseudoHeaderSum ip) true verify) :
      ReadsSegment span out verify
        ⟨.none, { out with transport := .udp (Udp.headerOf span) }, Udp.payloadOf span⟩
  | icmp {ip : Ip.V4.Header} {header : Icmp.Header} (network : out.network = .v4 ip)
      (announced : out.transport = .icmp header) (accepts : Icmp.Accepts span verify) :
      ReadsSegment span out verify
        ⟨.none, { out with transport := .icmp (Icmp.Header.ofWire span).toHost },
          span.drop Icmp.headerLen⟩
  | tcpV6 {fixed : Ip.V6.Header} {header : Tcp.Header} (network : out.network = .v6 fixed)
      (announced : out.transport = .tcp header)
      (accepts : Tcp.Accepts span (upperHeader fixed out.ipv6Ext span.length).payloadLength.toNat
        (Ip.V6.computePseudoHeaderSum (upperHeader fixed out.ipv6Ext span.length)) verify) :
      ReadsSegment span out verify
        ⟨.none, { out with transport := .tcp (Tcp.headerOf span) },
          span.drop (Tcp.headerOf span).headerLength⟩
  | udpV6 {fixed : Ip.V6.Header} {header : Udp.Header} (network : out.network = .v6 fixed)
      (announced : out.transport = .udp header)
      (accepts : Udp.Accepts span
        (Ip.V6.computePseudoHeaderSum (upperHeader fixed out.ipv6Ext span.length)) false verify) :
      ReadsSegment span out verify
        ⟨.none, { out with transport := .udp (Udp.headerOf span) }, Udp.payloadOf span⟩
  | icmpv6 {fixed : Ip.V6.Header} {header : Icmpv6.Header} (network : out.network = .v6 fixed)
      (announced : out.transport = .icmpv6 header)
      (accepts : Icmpv6.Accepts span (upperHeader fixed out.ipv6Ext span.length) verify) :
      ReadsSegment span out verify
        ⟨.none, { out with transport := .icmpv6 (Icmpv6.Header.ofWire span).toHost },
          span.drop Icmpv6.headerLen⟩

section Link

/-- The tag loop takes bytes off the front and lists tags. -/
theorem vlan_loop_keeps {fuel : Nat} {span rest : List UInt8} {out out' : Packet}
    {ethertype last : UInt16}
    (ran : vlanLoop fuel span out ethertype = (.none, rest, out', last)) :
    ∃ (tags : List Vlan.Header) (taken : Nat), rest = span.drop taken ∧
      out' = { out with vlanTags := out.vlanTags ++ tags } := by
  induction fuel generalizing span out ethertype with
  | zero => cases ran
  | succ fuel ih =>
      unfold vlanLoop at ran
      by_cases tagged : ethertype = Ethernet.ethertypeVlan ∨ ethertype = Ethernet.ethertypeVlanQq
      swap
      · rw [if_neg tagged] at ran
        cases ran
        exact ⟨[], 0, by simp, by simp⟩
      rw [if_pos tagged] at ran
      by_cases full : out.vlanTags.length ≥ Vlan.maxTags
      · rw [if_pos full] at ran
        cases ran
      rw [if_neg full] at ran
      by_cases failed : (Vlan.parse span {} .big).err ≠ .none
      · simp only [if_pos failed] at ran
        exact absurd (congrArg Prod.fst ran) failed
      · simp only [failed, if_false] at ran
        obtain ⟨tags, taken, dropped, listed⟩ := ih ran
        rw [(Vlan.parse_reads span {}).eq (not_not.mp failed)] at dropped listed
        rw [List.drop_drop] at dropped
        refine ⟨(Vlan.Header.ofWire span).toHost :: tags, _, dropped, ?_⟩
        rw [listed]
        simp only [List.append_assoc, List.singleton_append]

/-- What the link layer leaves of an accepted frame: the rest of the bytes, and the kind of
network header the last ethertype announces. -/
structure ReadsFrame (span : List UInt8) (out : Packet) (parsed : Parsed Packet) : Prop where
  passed : parsed.err = .none
  suffix : ∃ taken, parsed.span = span.drop taken
  network : ∃ ethertype, parsed.header.network =
    (out.setNetworkFromEthertype ethertype).network
  ipv6Ext : parsed.header.ipv6Ext = out.ipv6Ext
  transport : parsed.header.transport = out.transport

theorem decode_layer2_reads {span : List UInt8} {out : Packet}
    (passed : (decodeLayer2 span out).err = .none) :
    ReadsFrame span out (decodeLayer2 span out) := by
  unfold decodeLayer2 at passed ⊢
  cases link : out.datalink with
  | monostate => simp [link] at passed
  | ethernet header =>
      simp only [link] at passed ⊢
      by_cases failed : (Ethernet.parse span header .big).err ≠ .none
      · rw [if_pos failed] at passed
        exact absurd passed failed
      rw [if_neg failed] at passed ⊢
      generalize ran : vlanLoop (Vlan.maxTags + 1) (Ethernet.parse span header .big).span
        { out with datalink := .ethernet (Ethernet.parse span header .big).header }
        (Ethernet.parse span header .big).header.ethertype = result at passed ⊢
      obtain ⟨err, rest, out', ethertype⟩ := result
      by_cases stopped : err ≠ .none
      · simp only [if_pos stopped] at passed
        exact absurd passed stopped
      simp only [stopped, if_false] at passed ⊢
      rw [not_not.mp stopped] at ran
      obtain ⟨tags, taken, dropped, listed⟩ := vlan_loop_keeps ran
      rw [(Ethernet.parse_reads span header).eq (not_not.mp failed)] at dropped
      rw [List.drop_drop] at dropped
      rw [listed]
      exact ⟨rfl, ⟨_, dropped⟩, ⟨ethertype, rfl⟩, rfl, rfl⟩

end Link

section Network

/-- A walk over the extension headers that does not fail. It stops in front of a header of
another kind or behind a fragment header, and goes on behind any other one. -/
inductive Walks : List UInt8 → Packet → UInt8 → List UInt8 → Packet → UInt8 → Bool → Prop where
  | ended {span : List UInt8} {out : Packet} {nextHeader : UInt8}
      (other : Ip.V6.Ext.isExtension nextHeader = false) :
      Walks span out nextHeader span out nextHeader false
  | fragment {span : List UInt8} {out : Packet} {nextHeader : UInt8}
      (accepts : Ip.V6.Ext.Accepts span nextHeader)
      (ends : (Ip.V6.Ext.headerOf span nextHeader).isFragment = true) :
      Walks span out nextHeader (span.drop (Ip.V6.Ext.sizeOf span nextHeader))
        { out with ipv6Ext := out.ipv6Ext ++ [Ip.V6.Ext.headerOf span nextHeader] } nextHeader true
  | further {span rest : List UInt8} {out out' : Packet} {nextHeader last : UInt8}
      {fragment : Bool} (accepts : Ip.V6.Ext.Accepts span nextHeader)
      (whole : (Ip.V6.Ext.headerOf span nextHeader).isFragment = false)
      (walks : Walks (span.drop (Ip.V6.Ext.sizeOf span nextHeader))
        { out with ipv6Ext := out.ipv6Ext ++ [Ip.V6.Ext.headerOf span nextHeader] }
        (Ip.V6.Ext.headerOf span nextHeader).nextHeader rest out' last fragment) :
      Walks span out nextHeader rest out' last fragment

theorem ext_loop_walks {fuel : Nat} {span rest : List UInt8} {out out' : Packet}
    {nextHeader last : UInt8} {fragment : Bool}
    (ran : extLoop fuel span out nextHeader = (.none, rest, out', last, fragment)) :
    Walks span out nextHeader rest out' last fragment := by
  induction fuel generalizing span out nextHeader with
  | zero => cases ran
  | succ fuel ih =>
      unfold extLoop at ran
      by_cases extension : Ip.V6.Ext.isExtension nextHeader = true
      swap
      · rw [if_neg extension] at ran
        cases ran
        exact .ended (Bool.eq_false_iff.mpr extension)
      rw [if_pos extension] at ran
      by_cases full : out.ipv6Ext.length ≥ Ip.V6.Ext.maxHeaders
      · rw [if_pos full] at ran
        cases ran
      rw [if_neg full] at ran
      by_cases late : nextHeader = Ip.protocolHopopt ∧ out.ipv6Ext ≠ []
      · rw [if_pos late] at ran
        cases ran
      rw [if_neg late] at ran
      obtain ⟨read, unread⟩ := Ip.V6.Ext.parse_reads span nextHeader
      by_cases accepts : Ip.V6.Ext.Accepts span nextHeader
      swap
      · obtain ⟨err, parsed, failed⟩ := unread accepts
        simp only [parsed] at ran
        exact absurd (congrArg Prod.fst ran) failed
      simp only [read accepts] at ran
      by_cases ends : (Ip.V6.Ext.headerOf span nextHeader).isFragment = true
      · rw [if_pos ends] at ran
        cases ran
        exact .fragment accepts ends
      · rw [if_neg ends] at ran
        exact .further accepts (Bool.eq_false_iff.mpr ends) (ih ran)

/-- The walk takes bytes off the front and lists headers. -/
theorem Walks.keeps {span rest : List UInt8} {out out' : Packet} {nextHeader last : UInt8}
    {fragment : Bool} (walks : Walks span out nextHeader rest out' last fragment) :
    ∃ (exts : List Ip.V6.Ext.Header) (taken : Nat), rest = span.drop taken ∧
      out' = { out with ipv6Ext := out.ipv6Ext ++ exts } := by
  induction walks with
  | ended other => exact ⟨[], 0, by simp, by simp⟩
  | fragment accepts ends => exact ⟨[_], _, rfl, rfl⟩
  | @further span rest out out' nextHeader last fragment accepts whole walks ih =>
      obtain ⟨exts, taken, dropped, listed⟩ := ih
      rw [List.drop_drop] at dropped
      refine ⟨Ip.V6.Ext.headerOf span nextHeader :: exts, _, dropped, ?_⟩
      rw [listed]
      simp only [List.append_assoc, List.singleton_append]

theorem decode_layer3_reads {span : List UInt8} {out : Packet} {verify : Bool}
    (passed : (decodeLayer3 span out verify).err = .none) :
    ReadsDatagram span out verify (decodeLayer3 span out verify) := by
  unfold decodeLayer3 at passed ⊢
  cases network : out.network with
  | monostate => simp [network] at passed
  | arp header =>
      simp only [network] at passed ⊢
      have reads := Arp.parse_reads span header
      rw [reads.eq passed]
      exact .arp network (reads.err_iff.mp passed)
  | v4 header =>
      simp only [network] at passed ⊢
      have reads := Ip.V4.parse_reads span header verify
      by_cases failed : (Ip.V4.parse span header .big verify).err ≠ .none
      · rw [if_pos failed] at passed
        exact absurd passed failed
      rw [if_neg failed, reads.eq (not_not.mp failed)]
      exact .v4 network (reads.err_iff.mp (not_not.mp failed))
  | v6 header =>
      simp only [network] at passed ⊢
      have reads := Ip.V6.parse_reads span header
      by_cases failed : (Ip.V6.parse span header .big).err ≠ .none
      · rw [if_pos failed] at passed
        exact absurd passed failed
      rw [if_neg failed] at passed ⊢
      have accepts := reads.err_iff.mp (not_not.mp failed)
      simp only [reads.eq (not_not.mp failed)] at passed ⊢
      generalize ran : extLoop (Ip.V6.Ext.maxHeaders + 1) (Ip.V6.payloadOf span)
        { out with network := .v6 (Ip.V6.headerOf span) } (Ip.V6.headerOf span).nextHeader =
          result at passed ⊢
      obtain ⟨err, rest, out', nextHeader, fragment⟩ := result
      by_cases stopped : err ≠ .none
      · simp only [if_pos stopped] at passed
        exact absurd passed stopped
      simp only [stopped, if_false] at passed ⊢
      rw [not_not.mp stopped] at ran
      obtain ⟨exts, taken, dropped, listed⟩ := (ext_loop_walks ran).keeps
      rw [listed] at ran ⊢
      cases fragment with
      | true => exact .fragment network accepts ran
      | false => exact .v6 network accepts ran

theorem ReadsDatagram.passed {span : List UInt8} {out : Packet} {verify : Bool}
    {parsed : Parsed Packet} (reads : ReadsDatagram span out verify parsed) :
    parsed.err = .none := by
  cases reads <;> rfl

theorem ReadsDatagram.eq {span : List UInt8} {out : Packet} {verify : Bool}
    {parsed : Parsed Packet} (reads : ReadsDatagram span out verify parsed) :
    decodeLayer3 span out verify = parsed := by
  cases reads with
  | arp announced accepts =>
      simp only [decodeLayer3, announced, (Arp.parse_reads span _).accepted accepts]
  | v4 announced accepts =>
      simp only [decodeLayer3, announced, (Ip.V4.parse_reads span _ verify).accepted accepts,
        ne_eq, not_true_eq_false, if_false]
  | v6 announced accepts walked =>
      simp only [decodeLayer3, announced, (Ip.V6.parse_reads span _).accepted accepts, ne_eq,
        not_true_eq_false, if_false, walked]
      rfl
  | fragment announced accepts walked =>
      simp only [decodeLayer3, announced, (Ip.V6.parse_reads span _).accepted accepts, ne_eq,
        not_true_eq_false, if_false, walked, if_true]

end Network

section Transport

/-- The header that a protocol number announces, before anything of it is read. -/
inductive Announces : UInt8 → TransportHeader → Prop where
  | icmp : Announces 1 (.icmp {})
  | tcp : Announces 6 (.tcp {})
  | udp : Announces 17 (.udp {})
  | icmpv6 : Announces 58 (.icmpv6 {})
  | unknown {protocol : UInt8} (other : protocol ∉ [1, 6, 17, 58]) : Announces protocol .monostate

variable {pkt : Packet} {protocol : UInt8}

theorem transport_announced (pkt : Packet) (protocol : UInt8) : ∃ transport,
    Announces protocol transport ∧
      pkt.setTransportFromProtocol protocol = { pkt with transport := transport } := by
  refine ⟨_, ?_, rfl⟩
  split_ifs with tcp udp icmp icmpv6
  · exact tcp ▸ .tcp
  · exact udp ▸ .udp
  · exact icmp ▸ .icmp
  · exact icmpv6 ▸ .icmpv6
  · refine .unknown ?_
    simp only [List.mem_cons, List.not_mem_nil, or_false, not_or]
    exact ⟨icmp, tcp, udp, icmpv6⟩

theorem announced_tcp {header : Tcp.Header}
    (announced : (pkt.setTransportFromProtocol protocol).transport = .tcp header) :
    protocol = Ip.protocolTcp := by
  unfold Packet.setTransportFromProtocol at announced
  split_ifs at announced with tcp
  exact tcp

theorem announced_udp {header : Udp.Header}
    (announced : (pkt.setTransportFromProtocol protocol).transport = .udp header) :
    protocol = Ip.protocolUdp := by
  unfold Packet.setTransportFromProtocol at announced
  split_ifs at announced with tcp udp
  exact udp

theorem announced_icmp {header : Icmp.Header}
    (announced : (pkt.setTransportFromProtocol protocol).transport = .icmp header) :
    protocol = Ip.protocolIcmp := by
  unfold Packet.setTransportFromProtocol at announced
  split_ifs at announced with tcp udp icmp
  exact icmp

theorem decode_layer4_reads {span : List UInt8} {out : Packet} {verify : Bool}
    (ip : out.isArp = false) (passed : (decodeLayer4 span out verify).err = .none) :
    ReadsSegment span out verify (decodeLayer4 span out verify) := by
  obtain ⟨datalink, vlanTags, network, ipv6Ext, transport, payload⟩ := out
  cases network with
  | monostate => cases passed
  | arp header => cases ip
  | v4 header =>
      cases transport with
      | monostate => cases passed
      | icmpv6 message => cases passed
      | tcp segment =>
          have reads := Tcp.parse_reads span segment
            (header.totalLength.toNat - header.headerLength)
            (Ip.V4.computePseudoHeaderSum header) verify
          simp only [decodeLayer4, Tcp.parseV4] at passed ⊢
          rw [reads.eq passed]
          exact .tcpV4 rfl rfl (reads.err_iff.mp passed)
      | udp datagram =>
          have reads := Udp.parse_reads span datagram (Ip.V4.computePseudoHeaderSum header) true
            verify
          simp only [decodeLayer4, Udp.parseV4] at passed ⊢
          rw [reads.eq passed]
          exact .udpV4 rfl rfl (reads.err_iff.mp passed)
      | icmp message =>
          have reads := Icmp.parse_reads span message verify
          simp only [decodeLayer4] at passed ⊢
          rw [reads.eq passed]
          exact .icmp rfl rfl (reads.err_iff.mp passed)
  | v6 fixed =>
      cases transport with
      | monostate => cases passed
      | icmp message => cases passed
      | tcp segment =>
          have reads := Tcp.parse_reads span segment
            (upperHeader fixed ipv6Ext span.length).payloadLength.toNat
            (Ip.V6.computePseudoHeaderSum (upperHeader fixed ipv6Ext span.length)) verify
          simp only [decodeLayer4, Tcp.parseV6, upperHeader] at passed reads ⊢
          rw [reads.eq passed]
          exact .tcpV6 rfl rfl (reads.err_iff.mp passed)
      | udp datagram =>
          have reads := Udp.parse_reads span datagram
            (Ip.V6.computePseudoHeaderSum (upperHeader fixed ipv6Ext span.length)) false verify
          simp only [decodeLayer4, Udp.parseV6, upperHeader] at passed reads ⊢
          rw [reads.eq passed]
          exact .udpV6 rfl rfl (reads.err_iff.mp passed)
      | icmpv6 message =>
          have reads := Icmpv6.parse_reads span message
            (upperHeader fixed ipv6Ext span.length) verify
          simp only [decodeLayer4, upperHeader] at passed reads ⊢
          rw [reads.eq passed]
          exact .icmpv6 rfl rfl (reads.err_iff.mp passed)

theorem ReadsSegment.passed {span : List UInt8} {out : Packet} {verify : Bool}
    {parsed : Parsed Packet} (reads : ReadsSegment span out verify parsed) :
    parsed.err = .none := by
  cases reads <;> rfl

theorem ReadsSegment.eq {span : List UInt8} {out : Packet} {verify : Bool}
    {parsed : Parsed Packet} (reads : ReadsSegment span out verify parsed) :
    decodeLayer4 span out verify = parsed := by
  obtain ⟨datalink, vlanTags, network, ipv6Ext, transport, payload⟩ := out
  cases reads with
  | tcpV4 network announced accepts =>
      cases network
      cases announced
      simp only [decodeLayer4, Tcp.parseV4, (Tcp.parse_reads span _ _ _ verify).accepted accepts]
  | udpV4 network announced accepts =>
      cases network
      cases announced
      simp only [decodeLayer4, Udp.parseV4, (Udp.parse_reads span _ _ true verify).accepted accepts]
  | icmp network announced accepts =>
      cases network
      cases announced
      simp only [decodeLayer4, (Icmp.parse_reads span _ verify).accepted accepts]
  | @tcpV6 fixed header network announced accepts =>
      cases network
      cases announced
      have read := (Tcp.parse_reads span header _ _ verify).accepted accepts
      simp only [upperHeader] at read
      simp only [decodeLayer4, Tcp.parseV6, read]
  | @udpV6 fixed header network announced accepts =>
      cases network
      cases announced
      have read := (Udp.parse_reads span header _ false verify).accepted accepts
      simp only [upperHeader] at read
      simp only [decodeLayer4, Udp.parseV6, read]
  | @icmpv6 fixed header network announced accepts =>
      cases network
      cases announced
      have read := (Icmpv6.parse_reads span header _ verify).accepted accepts
      simp only [upperHeader] at read
      simp only [decodeLayer4, read]

end Transport

/-- How an accepted frame has been read. -/
inductive ReadsPacket (span : List UInt8) (out : Packet) (verify : Bool) :
    Parsed Packet → Prop where
  | arp {datagram : Parsed Packet} (link : ReadsFrame span out (decodeLayer2 span out))
      (network : ReadsDatagram (decodeLayer2 span out).span (decodeLayer2 span out).header verify
        datagram) (arp : datagram.header.isArp = true) : ReadsPacket span out verify datagram
  | ip {datagram segment : Parsed Packet} (link : ReadsFrame span out (decodeLayer2 span out))
      (network : ReadsDatagram (decodeLayer2 span out).span (decodeLayer2 span out).header verify
        datagram) (ip : datagram.header.isArp = false)
      (transport : ReadsSegment datagram.span datagram.header verify segment) :
      ReadsPacket span out verify
        ⟨.none, { segment.header with payload := segment.span }, segment.span⟩

theorem decode_packet_reads {span : List UInt8} {out : Packet} {verify : Bool}
    (passed : (decodePacket span out verify).err = .none) :
    ReadsPacket span out verify (decodePacket span out verify) := by
  unfold decodePacket at passed ⊢
  by_cases link : (decodeLayer2 span out).err ≠ .none
  · simp only [if_pos link] at passed
    exact absurd passed link
  simp only [link, if_false] at passed ⊢
  have frame := decode_layer2_reads (not_not.mp link)
  by_cases network : (decodeLayer3 (decodeLayer2 span out).span (decodeLayer2 span out).header
      verify).err ≠ .none
  · simp only [if_pos network] at passed
    exact absurd passed network
  simp only [network, if_false] at passed ⊢
  have datagram := decode_layer3_reads (not_not.mp network)
  generalize decodeLayer3 (decodeLayer2 span out).span (decodeLayer2 span out).header verify = l3
    at passed datagram ⊢
  by_cases arp : l3.header.isArp = true
  · simp only [if_pos arp]
    exact .arp frame datagram arp
  simp only [arp] at passed ⊢
  have ip := Bool.eq_false_iff.mpr arp
  by_cases transport : (decodeLayer4 l3.span l3.header verify).err ≠ .none
  · simp only [if_pos transport] at passed
    exact absurd passed transport
  simp only [transport, if_false]
  exact .ip frame datagram ip (decode_layer4_reads ip (not_not.mp transport))

theorem ReadsPacket.eq {span : List UInt8} {out : Packet} {verify : Bool}
    {parsed : Parsed Packet} (reads : ReadsPacket span out verify parsed) :
    decodePacket span out verify = parsed ∧ parsed.err = .none := by
  unfold decodePacket
  cases reads with
  | arp link network arp =>
      have passed := network.passed
      simp only [link.passed, network.eq, passed, arp, ne_eq, not_true_eq_false, if_false, if_true,
        and_self]
  | ip link network ip transport =>
      simp only [link.passed, network.eq, network.passed, ip, transport.eq, transport.passed, ne_eq,
        not_true_eq_false, if_false, Bool.false_eq_true, and_self]

/-- The transport layer of an accepted frame leaves the network headers alone, and it has
been announced. -/
theorem ReadsSegment.network_same {span : List UInt8} {out : Packet} {verify : Bool}
    {parsed : Parsed Packet} (reads : ReadsSegment span out verify parsed) :
    parsed.header.network = out.network ∧ parsed.header.ipv6Ext = out.ipv6Ext ∧
      out.transport ≠ .monostate := by
  cases reads with
  | tcpV4 network announced accepts => exact ⟨rfl, rfl, by simp [announced]⟩
  | udpV4 network announced accepts => exact ⟨rfl, rfl, by simp [announced]⟩
  | icmp network announced accepts => exact ⟨rfl, rfl, by simp [announced]⟩
  | tcpV6 network announced accepts => exact ⟨rfl, rfl, by simp [announced]⟩
  | udpV6 network announced accepts => exact ⟨rfl, rfl, by simp [announced]⟩
  | icmpv6 network announced accepts => exact ⟨rfl, rfl, by simp [announced]⟩

/-- The network header of an accepted frame is the one its datagram starts with. -/
inductive NetworkOf (datagram : List UInt8) (verify : Bool) : NetworkHeader → Prop where
  | v4 (accepts : Ip.V4.Accepts datagram verify) :
      NetworkOf datagram verify (.v4 (Ip.V4.headerOf datagram))
  | v6 (accepts : Ip.V6.Accepts datagram) :
      NetworkOf datagram verify (.v6 (Ip.V6.headerOf datagram))
  | arp {header : Arp.Header} (accepts : Arp.Accepts datagram) :
      NetworkOf datagram verify
        (.arp ((Arp.Header.ofWire datagram header).toHost.withAddresses datagram))

theorem ReadsDatagram.network_of {span : List UInt8} {out : Packet} {verify : Bool}
    {parsed : Parsed Packet} (reads : ReadsDatagram span out verify parsed) :
    NetworkOf span verify parsed.header.network := by
  cases reads with
  | v4 announced accepts => exact .v4 accepts
  | v6 announced accepts walked => exact .v6 accepts
  | fragment announced accepts walked => exact .v6 accepts
  | arp announced accepts => exact .arp accepts

theorem decode_packet_network {span : List UInt8} {out : Packet} {verify : Bool}
    (passed : (decodePacket span out verify).err = .none) :
    NetworkOf (decodeLayer2 span out).span verify (decodePacket span out verify).header.network :=
    by
  have reads := decode_packet_reads passed
  generalize decodePacket span out verify = parsed at reads ⊢
  cases reads with
  | arp link network arp => exact network.network_of
  | ip link network ip transport =>
      have same := transport.network_same.1
      simp only at same ⊢
      rw [same]
      exact network.network_of

end PcapAnalyzer
