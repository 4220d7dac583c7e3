import PcapAnalyzer.Decode.Layers

/-!
# Later fragments

The data of a fragment that is not the first one are bytes from the middle of a datagram.
The IPv6 walk stops at such a fragment. The IPv4 parser does not look at the offset, so the
data are read as a transport header whenever they have the shape of one.
-/

namespace PcapAnalyzer

set_option autoImplicit false

/-- No accepted packet has an IPv4 header with a fragment offset and a transport header. -/
def NeverReadAsTransport (frame : List UInt8) (out : Packet) (verify : Bool) : Prop :=
  ∀ header : Ip.V4.Header, (decodePacket frame out verify).err = .none →
    (decodePacket frame out verify).header.network = .v4 header → header.fragment ≠ 0 →
    (decodePacket frame out verify).header.transport = .monostate

/-- The data of an IPv4 datagram pass for the header its protocol field announces. -/
inductive LooksLikeTransport (datagram : List UInt8) (verify : Bool) : Prop where
  | tcp (protocol : (Ip.V4.headerOf datagram).protocol = Ip.protocolTcp)
      (accepts : Tcp.Accepts (Ip.V4.payloadOf datagram)
        ((Ip.V4.headerOf datagram).totalLength.toNat - (Ip.V4.headerOf datagram).headerLength)
        (Ip.V4.computePseudoHeaderSum (Ip.V4.headerOf datagram)) verify)
  | udp (protocol : (Ip.V4.headerOf datagram).protocol = Ip.protocolUdp)
      (accepts : Udp.Accepts (Ip.V4.payloadOf datagram)
        (Ip.V4.computePseudoHeaderSum (Ip.V4.headerOf datagram)) true verify)
  | icmp (protocol : (Ip.V4.headerOf datagram).protocol = Ip.protocolIcmp)
      (accepts : Icmp.Accepts (Ip.V4.payloadOf datagram) verify)

/-- A well-formed IPv4 datagram with a fragment offset, whose data look like a header. -/
structure TransportLikeFragment (datagram : List UInt8) (verify : Bool) : Prop where
  formed : Ip.V4.Accepts datagram verify
  later : (Ip.V4.headerOf datagram).fragment ≠ 0
  data : LooksLikeTransport datagram verify

/-- The link layer of the frame announces an IPv4 datagram. -/
def AnnouncesV4 (frame : List UInt8) (out : Packet) : Prop :=
  (decodeLayer2 frame out).err = .none ∧
    ∃ header, (decodeLayer2 frame out).header.network = .v4 header

section V4

variable {frame : List UInt8} {out : Packet} {verify : Bool}

/-- The packet as the network layer leaves it for an IPv4 datagram. -/
def withV4 (out : Packet) (datagram : List UInt8) : Packet :=
  ({ out with network := .v4 (Ip.V4.headerOf datagram) } :
    Packet).setTransportFromProtocol (Ip.V4.headerOf datagram).protocol

theorem looks_like_segment {datagram : List UInt8} (out : Packet)
    (looks : LooksLikeTransport datagram verify) :
    ∃ segment, ReadsSegment (Ip.V4.payloadOf datagram) (withV4 out datagram) verify segment ∧
      segment.header.network = .v4 (Ip.V4.headerOf datagram) ∧
      segment.header.transport ≠ .monostate := by
  cases looks with
  | tcp protocol accepts =>
      have announced : (withV4 out datagram).transport = .tcp {} := by
        simp only [withV4, Packet.setTransportFromProtocol, protocol, if_true]
      exact ⟨_, .tcpV4 rfl announced accepts, rfl, by simp⟩
  | udp protocol accepts =>
      have announced : (withV4 out datagram).transport = .udp {} := by
        simp [withV4, Packet.setTransportFromProtocol, protocol, Ip.protocolUdp, Ip.protocolTcp]
      exact ⟨_, .udpV4 rfl announced accepts, rfl, by simp⟩
  | icmp protocol accepts =>
      have announced : (withV4 out datagram).transport = .icmp {} := by
        simp [withV4, Packet.setTransportFromProtocol, protocol, Ip.protocolIcmp,
          Ip.protocolUdp, Ip.protocolTcp]
      exact ⟨_, .icmp rfl announced accepts, rfl, by simp⟩

/-- Such a fragment is accepted, with the header its data look like. -/
theorem fragment_is_read (announced : AnnouncesV4 frame out)
    (fragment : TransportLikeFragment (decodeLayer2 frame out).span verify) :
    ¬ NeverReadAsTransport frame out verify := by
  obtain ⟨passed, header, network⟩ := announced
  obtain ⟨segment, transport, same, headed⟩ :=
    looks_like_segment (decodeLayer2 frame out).header fragment.data
  have packet := ReadsPacket.ip (decode_layer2_reads passed) (.v4 network fragment.formed) rfl
    transport
  intro never
  apply headed
  have read := packet.eq.1
  have none := never (Ip.V4.headerOf (decodeLayer2 frame out).span) (by rw [read])
    (by rw [read]; exact same) fragment.later
  rw [read] at none
  exact none

theorem segment_looks_like {datagram : List UInt8} {segment : Parsed Packet}
    (reads : ReadsSegment (Ip.V4.payloadOf datagram) (withV4 out datagram) verify segment) :
    LooksLikeTransport datagram verify := by
  cases reads with
  | tcpV4 network announced accepts =>
      cases network
      exact .tcp (announced_tcp announced) accepts
  | udpV4 network announced accepts =>
      cases network
      exact .udp (announced_udp announced) accepts
  | icmp network announced accepts =>
      exact .icmp (announced_icmp announced) accepts
  | tcpV6 network announced accepts => cases network
  | udpV6 network announced accepts => cases network
  | icmpv6 network announced accepts => cases network

/-- A fragment that is accepted looks like what it is read as. -/
theorem accepted_fragment {header : Ip.V4.Header}
    (passed : (decodePacket frame out verify).err = .none)
    (network : (decodePacket frame out verify).header.network = .v4 header)
    (later : header.fragment ≠ 0) :
    AnnouncesV4 frame out ∧ TransportLikeFragment (decodeLayer2 frame out).span verify := by
  have reads := decode_packet_reads passed
  generalize decodePacket frame out verify = parsed at reads network
  cases reads with
  | @arp datagram link layer3 arp =>
      simp only [Packet.isArp, network] at arp
      cases arp
  | @ip datagram segment link layer3 ip transport =>
      simp only at network
      rw [transport.network_same.1] at network
      cases layer3 with
      | arp announced accepts => cases network
      | v6 announced accepts walked => cases network
      | fragment announced accepts walked => cases network
      | v4 announced accepts =>
          cases network
          exact ⟨⟨link.passed, _, announced⟩, accepts, later, segment_looks_like transport⟩

/-- The IPv4 path keeps later fragments out exactly when their data look like nothing. -/
theorem never_read_iff : NeverReadAsTransport frame out verify ↔
    ¬ (AnnouncesV4 frame out ∧
      TransportLikeFragment (decodeLayer2 frame out).span verify) := by
  constructor
  · rintro never ⟨announced, fragment⟩
    exact fragment_is_read announced fragment never
  · intro unlike header passed network later
    exact absurd (accepted_fragment passed network later) unlike

end V4

section V6

/-- The walk goes on behind whole packets only. -/
theorem Walks.unfragmented {span rest : List UInt8} {out out' : Packet}
    {nextHeader last : UInt8} {fragment : Bool}
    (walks : Walks span out nextHeader rest out' last fragment) (goesOn : fragment = false)
    (whole : ∀ ext ∈ out.ipv6Ext, ext.isFragment = false) :
    ∀ ext ∈ out'.ipv6Ext, ext.isFragment = false := by
  induction walks with
  | ended other => exact whole
  | fragment accepts ends => cases goesOn
  | further accepts unfragmented walks ih =>
      apply ih goesOn
      intro ext member
      rcases List.mem_append.mp member with before | added
      · exact whole ext before
      · rw [List.mem_singleton.mp added]
        exact unfragmented

/-- An accepted IPv6 packet has no fragment header but an atomic one. -/
theorem v6_unfragmented {frame : List UInt8} {pkt : Packet} {verify : Bool}
    {fixed : Ip.V6.Header} (passed : (decodePacket frame pkt.reset verify).err = .none)
    (network : (decodePacket frame pkt.reset verify).header.network = .v6 fixed) :
    ∀ ext ∈ (decodePacket frame pkt.reset verify).header.ipv6Ext, ext.isFragment = false := by
  have reads := decode_packet_reads passed
  generalize decodePacket frame pkt.reset verify = parsed at reads network
  cases reads with
  | @arp datagram link layer3 arp =>
      simp only [Packet.isArp, network] at arp
      cases arp
  | @ip datagram segment link layer3 ip transport =>
      obtain ⟨same, sameExts, announced⟩ := transport.network_same
      simp only at network ⊢
      rw [same] at network
      rw [sameExts]
      have none : (decodeLayer2 frame pkt.reset).header.ipv6Ext = [] := link.ipv6Ext
      cases layer3 with
      | arp announced accepts => cases network
      | v4 announced accepts => cases network
      | fragment announced accepts walked =>
          exact absurd link.transport announced
      | v6 announced accepts walked =>
          apply (ext_loop_walks walked).unfragmented rfl
          simp only [none]
          exact fun ext member => absurd member List.not_mem_nil

end V6

/-- Later IPv4 fragments are kept from being read as transport headers exactly when their data
do not pass for one. The IPv6 path keeps every fragment out. -/
theorem later_fragments_read_iff (frame : List UInt8) (pkt : Packet) (verify : Bool) :
    (NeverReadAsTransport frame pkt.reset verify ↔
      ¬ (AnnouncesV4 frame pkt.reset ∧
        TransportLikeFragment (decodeLayer2 frame pkt.reset).span verify)) ∧
    ∀ fixed, (decodePacket frame pkt.reset verify).err = .none →
      (decodePacket frame pkt.reset verify).header.network = .v6 fixed →
      ∀ ext ∈ (decodePacket frame pkt.reset verify).header.ipv6Ext, ext.isFragment = false :=
  ⟨never_read_iff, fun _ passed network => v6_unfragmented passed network⟩

/-- Eight octets from offset 8 of a datagram, in a fragment with the checksum of its header.
They pass for a UDP header whose sender left the checksum out. -/
def laterFragment : List UInt8 :=
  List.replicate 12 0 ++ wire16 Ethernet.ethertypeIpv4 ++
    [0x45, 0, 0, 28, 0, 0, 0, 1, 64, 17, 0x66, 0xCE, 10, 0, 0, 1, 10, 0, 0, 2] ++
    [0x9C, 0x40, 0, 53, 0, 8, 0, 0]

/-- An IPv6 packet whose fragment header says that the UDP datagram behind it is all there is. -/
def wholePacket : List UInt8 :=
  List.replicate 12 0 ++ wire16 Ethernet.ethertypeIpv6 ++
    ([0x60, 0, 0, 0, 0, 16, 44, 64] ++ List.replicate 32 0) ++
    [17, 0, 0, 0, 0, 0, 0, 1] ++ [0x9C, 0x40, 0, 53, 0, 8, 0, 0]

theorem later_fragments_read_iff_whole :
    let read := (decodePacket wholePacket (Packet.reset { datalink := .ethernet {} }) false).header
    read.ipv6Ext.map (fun ext => ext.type) = [Ip.protocolIpv6Frag] ∧
      ∀ ext ∈ read.ipv6Ext, ext.isFragment = false :=
  ⟨rfl, (later_fragments_read_iff wholePacket { datalink := .ethernet {} } false).2 _ rfl rfl⟩

theorem later_fragment_formed : TransportLikeFragment (laterFragment.drop 14) true where
  formed := ⟨by decide, by decide, by decide, by decide, fun _ => by decide +kernel, by decide,
    by decide⟩
  later := by decide
  data := .udp rfl ⟨by decide, by decide, fun checked => absurd checked (by decide)⟩

/-- The fragment is accepted with a UDP header from port 40000 to port 53. -/
theorem later_fragment_is_read :
    ¬ ∀ (frame : List UInt8) (pkt : Packet) (verify : Bool),
      NeverReadAsTransport frame pkt.reset verify := by
  intro never
  have datagram : (decodeLayer2 laterFragment
      (Packet.reset { datalink := .ethernet {} })).span = laterFragment.drop 14 := rfl
  have fragment := later_fragment_formed
  rw [← datagram] at fragment
  exact fragment_is_read ⟨rfl, _, rfl⟩ fragment
    (never laterFragment { datalink := .ethernet {} } true)

end PcapAnalyzer
