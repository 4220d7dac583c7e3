import PcapAnalyzer.Decode.Layers
import PcapAnalyzer.Protocols.CheckedAgreement

/-!
# The decoder stays inside the frame

`decodePacket` once more, over windows of the frame and with the checked parsers. It goes
through on every frame, so that no read and no subtraction of the decoder is out of range, and
the payload it finds lies inside the datagram.
-/

namespace PcapAnalyzer.Checked

open CheckedMemory
open Window (Within)

set_option autoImplicit false

variable {frame : List UInt8}

def vlanLoop : Nat → Window frame → Packet → UInt16 →
    Option (ParseError × Window frame × Packet × UInt16)
  | 0, window, out, ethertype => some (.malformedHeader, window, out, ethertype)
  | fuel + 1, window, out, ethertype =>
      if ethertype = PcapAnalyzer.Ethernet.ethertypeVlan ∨
          ethertype = PcapAnalyzer.Ethernet.ethertypeVlanQq then
        if out.vlanTags.length ≥ PcapAnalyzer.Vlan.maxTags then
          some (.malformedHeader, window, out, ethertype)
        else do
          let vtag ← Vlan.parse window {} .big
          if vtag.err ≠ .none then some (vtag.err, vtag.window, out, ethertype) else
          vlanLoop fuel vtag.window { out with vlanTags := out.vlanTags ++ [vtag.header] }
            vtag.header.ethertype
      else some (.none, window, out, ethertype)

def decodeLayer2 (window : Window frame) (out : Packet) : Option (Windowed frame Packet) :=
  match out.datalink with
  | .monostate => some ⟨.unsupportedLinktype, out, window⟩
  | .ethernet header => do
      let eth ← Ethernet.parse window header .big
      let out := { out with datalink := .ethernet eth.header }
      if eth.err ≠ .none then some ⟨eth.err, out, eth.window⟩ else do
      let (err, window, out, ethertype) ←
        vlanLoop (PcapAnalyzer.Vlan.maxTags + 1) eth.window out eth.header.ethertype
      if err ≠ .none then some ⟨err, out, window⟩ else
      let out := { out with datalink := .ethernet { eth.header with ethertype := ethertype } }
      some ⟨.none, out.setNetworkFromEthertype ethertype, window⟩

def extLoop : Nat → Window frame → Packet → UInt8 →
    Option (ParseError × Window frame × Packet × UInt8 × Bool)
  | 0, window, out, nextHeader => some (.malformedHeader, window, out, nextHeader, false)
  | fuel + 1, window, out, nextHeader =>
      if Ip.V6.Ext.isExtension nextHeader then
        if out.ipv6Ext.length ≥ Ip.V6.Ext.maxHeaders then
          some (.malformedHeader, window, out, nextHeader, false) else
        if nextHeader = Ip.protocolHopopt ∧ out.ipv6Ext ≠ [] then
          some (.invalidFieldValue, window, out, nextHeader, false) else do
        match ← Ext.parse window nextHeader .big with
        | .error err => some (err, window, out, nextHeader, false)
        | .ok (ext, rest) =>
            let out := { out with ipv6Ext := out.ipv6Ext ++ [ext] }
            if ext.isFragment then some (.none, rest, out, nextHeader, true) else
            extLoop fuel rest out ext.nextHeader
      else some (.none, window, out, nextHeader, false)

def decodeLayer3 (window : Window frame) (out : Packet) (verify : Bool) :
    Option (Windowed frame Packet) :=
  match out.network with
  | .monostate => some ⟨.unsupportedNetworkType, out, window⟩
  | .v4 header => do
      let v4 ← V4.parse window header .big verify
      let out := { out with network := .v4 v4.header }
      if v4.err ≠ .none then some ⟨v4.err, out, v4.window⟩ else
      some ⟨.none, out.setTransportFromProtocol v4.header.protocol, v4.window⟩
  | .v6 header => do
      let v6 ← V6.parse window header .big
      let out := { out with network := .v6 v6.header }
      if v6.err ≠ .none then some ⟨v6.err, out, v6.window⟩ else do
      let (err, window, out, nextHeader, fragment) ←
        extLoop (Ip.V6.Ext.maxHeaders + 1) v6.window out v6.header.nextHeader
      if err ≠ .none then some ⟨err, out, window⟩ else
      if fragment then some ⟨.none, out, window⟩ else
      some ⟨.none, out.setTransportFromProtocol nextHeader, window⟩
  | .arp header => do
      let arp ← Arp.parse window header .big
      some ⟨arp.err, { out with network := .arp arp.header }, arp.window⟩

def decodeLayer4 (window : Window frame) (out : Packet) (verify : Bool) :
    Option (Windowed frame Packet) :=
  match out.network with
  | .monostate => some ⟨.unsupportedTransportType, out, window⟩
  | .arp _ => some ⟨.none, out, window⟩
  | .v4 ip =>
      match out.transport with
      | .tcp header => do
          let tcp ← Tcp.parseV4 window header ip .big verify
          some ⟨tcp.err, { out with transport := .tcp tcp.header }, tcp.window⟩
      | .udp header => do
          let udp ← Udp.parseV4 window header ip .big verify
          some ⟨udp.err, { out with transport := .udp udp.header }, udp.window⟩
      | .icmp header => do
          let icmp ← Icmp.parse window header .big verify
          some ⟨icmp.err, { out with transport := .icmp icmp.header }, icmp.window⟩
      | .icmpv6 _ => some ⟨.unsupportedTransportType, out, window⟩
      | .monostate => some ⟨.unsupportedTransportType, out, window⟩
  | .v6 fixed =>
      let ip := upperHeader fixed out.ipv6Ext window.size
      match out.transport with
      | .tcp header => do
          let tcp ← Tcp.parseV6 window header ip .big verify
          some ⟨tcp.err, { out with transport := .tcp tcp.header }, tcp.window⟩
      | .udp header => do
          let udp ← Udp.parseV6 window header ip .big verify
          some ⟨udp.err, { out with transport := .udp udp.header }, udp.window⟩
      | .icmp _ => some ⟨.unsupportedTransportType, out, window⟩
      | .icmpv6 header => do
          let icmpv6 ← Icmpv6.parse window header ip .big verify
          some ⟨icmpv6.err, { out with transport := .icmpv6 icmpv6.header }, icmpv6.window⟩
      | .monostate => some ⟨.unsupportedTransportType, out, window⟩

/-- The payload is what the last window shows; nothing of it is read. -/
def decodePacket (window : Window frame) (out : Packet) (verify : Bool) :
    Option (Windowed frame Packet) := do
  let l2 ← decodeLayer2 window out
  if l2.err ≠ .none then some l2 else do
  let l3 ← decodeLayer3 l2.window l2.header verify
  if l3.err ≠ .none then some l3 else
  if l3.header.isArp then some l3 else do
  let l4 ← decodeLayer4 l3.window l3.header verify
  if l4.err ≠ .none then some l4 else
  some ⟨.none, { l4.header with payload := l4.window.contents }, l4.window⟩

section Link

/-- The tag loop goes through as the plain one does. -/
theorem vlan_loop_agrees (fuel : Nat) (window : Window frame) (out : Packet)
    (ethertype : UInt16) : ∃ err left out' last,
    vlanLoop fuel window out ethertype = some (err, left, out', last) ∧
      PcapAnalyzer.vlanLoop fuel window.contents out ethertype =
        (err, left.contents, out', last) ∧ left.Within window := by
  induction fuel generalizing window out ethertype with
  | zero => exact ⟨_, _, _, _, rfl, rfl, .refl window⟩
  | succ fuel ih =>
      unfold vlanLoop PcapAnalyzer.vlanLoop
      by_cases tagged : ethertype = PcapAnalyzer.Ethernet.ethertypeVlan ∨
          ethertype = PcapAnalyzer.Ethernet.ethertypeVlanQq
      swap
      · rw [if_neg tagged, if_neg tagged]
        exact ⟨_, _, _, _, rfl, rfl, .refl window⟩
      rw [if_pos tagged, if_pos tagged]
      by_cases full : out.vlanTags.length ≥ PcapAnalyzer.Vlan.maxTags
      · rw [if_pos full, if_pos full]
        exact ⟨_, _, _, _, rfl, rfl, .refl window⟩
      rw [if_neg full, if_neg full]
      obtain ⟨rest, parsed, shown, within⟩ := vlan_agrees window {}
      rw [parsed]
      simp only [Option.bind_eq_bind, Option.bind_some, ← shown]
      by_cases failed : (PcapAnalyzer.Vlan.parse window.contents {} .big).err ≠ .none
      · rw [if_pos failed, if_pos failed]
        exact ⟨_, _, _, _, rfl, rfl, within⟩
      · rw [if_neg failed, if_neg failed]
        obtain ⟨err, left, out', last, passed, same, inner⟩ := ih rest _ _
        exact ⟨err, left, out', last, passed, same, inner.trans within⟩

theorem layer2_agrees (window : Window frame) (out : Packet) :
    Agrees window (decodeLayer2 window out) (PcapAnalyzer.decodeLayer2 window.contents out) := by
  unfold decodeLayer2 PcapAnalyzer.decodeLayer2
  cases out.datalink with
  | monostate => exact .stop _ _
  | ethernet header =>
      obtain ⟨rest, parsed, shown, within⟩ := ethernet_agrees window header
      simp only [parsed, Option.bind_eq_bind, Option.bind_some, ← shown]
      by_cases failed : (PcapAnalyzer.Ethernet.parse window.contents header .big).err ≠ .none
      · rw [if_pos failed, if_pos failed]
        exact ⟨rest, rfl, rfl, within⟩
      rw [if_neg failed, if_neg failed]
      generalize ({ out with datalink := .ethernet (PcapAnalyzer.Ethernet.parse window.contents
        header .big).header } : Packet) = read
      obtain ⟨err, left, out', last, passed, same, inner⟩ := vlan_loop_agrees
        (PcapAnalyzer.Vlan.maxTags + 1) rest read
        (PcapAnalyzer.Ethernet.parse window.contents header .big).header.ethertype
      rw [passed, same]
      simp only [Option.bind_some]
      by_cases stopped : err ≠ .none
      · rw [if_pos stopped, if_pos stopped]
        exact ⟨left, rfl, rfl, inner.trans within⟩
      · rw [if_neg stopped, if_neg stopped]
        exact ⟨left, rfl, rfl, inner.trans within⟩

end Link

section Network

theorem ext_loop_agrees (fuel : Nat) (window : Window frame) (out : Packet)
    (nextHeader : UInt8) : ∃ err left out' last fragment,
    extLoop fuel window out nextHeader = some (err, left, out', last, fragment) ∧
      PcapAnalyzer.extLoop fuel window.contents out nextHeader =
        (err, left.contents, out', last, fragment) ∧
      left.Within window ∧ out'.network = out.network := by
  induction fuel generalizing window out nextHeader with
  | zero => exact ⟨_, _, _, _, _, rfl, rfl, .refl window, rfl⟩
  | succ fuel ih =>
      unfold extLoop PcapAnalyzer.extLoop
      by_cases extension : Ip.V6.Ext.isExtension nextHeader = true
      swap
      · rw [if_neg extension, if_neg extension]
        exact ⟨_, _, _, _, _, rfl, rfl, .refl window, rfl⟩
      rw [if_pos extension, if_pos extension]
      by_cases full : out.ipv6Ext.length ≥ Ip.V6.Ext.maxHeaders
      · rw [if_pos full, if_pos full]
        exact ⟨_, _, _, _, _, rfl, rfl, .refl window, rfl⟩
      rw [if_neg full, if_neg full]
      by_cases late : nextHeader = Ip.protocolHopopt ∧ out.ipv6Ext ≠ []
      · rw [if_pos late, if_pos late]
        exact ⟨_, _, _, _, _, rfl, rfl, .refl window, rfl⟩
      rw [if_neg late, if_neg late]
      obtain ⟨result, parsed, shows⟩ := ext_agrees window nextHeader
      rw [parsed]
      generalize Ip.V6.Ext.parse window.contents nextHeader .big = plain at shows
      cases shows with
      | refused err => exact ⟨_, _, _, _, _, rfl, rfl, .refl window, rfl⟩
      | taken ext rest within =>
          simp only [Option.bind_eq_bind, Option.bind_some]
          by_cases ends : ext.isFragment = true
          · rw [if_pos ends, if_pos ends]
            exact ⟨_, _, _, _, _, rfl, rfl, within, rfl⟩
          · rw [if_neg ends, if_neg ends]
            obtain ⟨err, left, out', last, fragment, passed, same, inner, kept⟩ := ih rest _ _
            exact ⟨err, left, out', last, fragment, passed, same, inner.trans within, kept⟩

/-- The payload lies behind the header of its datagram and ends where the header says. -/
def Bounded (datagram payload : Window frame) : NetworkHeader → Prop
  | .v4 header =>
      datagram.start + header.headerLength ≤ payload.start ∧
        payload.start + payload.size ≤ datagram.start + header.totalLength.toNat
  | .v6 header =>
      datagram.start + Ip.V6.headerLen ≤ payload.start ∧
        payload.start + payload.size ≤
          datagram.start + Ip.V6.headerLen + header.payloadLength.toNat
  | .arp _ | .monostate => True

theorem Bounded.within {datagram payload inner : Window frame} {network : NetworkHeader}
    (bounded : Bounded datagram payload network) (within : inner.Within payload) :
    Bounded datagram inner network := by
  cases network with
  | monostate => trivial
  | arp header => trivial
  | v4 header => exact ⟨bounded.1.trans within.1, within.2.trans bounded.2⟩
  | v6 header => exact ⟨bounded.1.trans within.1, within.2.trans bounded.2⟩

/-- The network layer goes through, and what it leaves is bounded by the header it read. -/
theorem layer3_agrees (window : Window frame) (out : Packet) (verify : Bool) :
    ∃ left, decodeLayer3 window out verify =
        some ⟨(PcapAnalyzer.decodeLayer3 window.contents out verify).err,
          (PcapAnalyzer.decodeLayer3 window.contents out verify).header, left⟩ ∧
      left.contents = (PcapAnalyzer.decodeLayer3 window.contents out verify).span ∧
      ((PcapAnalyzer.decodeLayer3 window.contents out verify).err = .none →
        Bounded window left
          (PcapAnalyzer.decodeLayer3 window.contents out verify).header.network) := by
  unfold decodeLayer3 PcapAnalyzer.decodeLayer3
  cases out.network with
  | monostate => exact ⟨window, rfl, rfl, nofun⟩
  | arp header =>
      obtain ⟨rest, parsed, shown, within⟩ := arp_agrees window header
      simp only [parsed, Option.bind_eq_bind, Option.bind_some]
      exact ⟨rest, rfl, shown, fun _ => trivial⟩
  | v4 header =>
      obtain ⟨rest, parsed, shown, within⟩ := v4_agrees window header verify
      have leaves := v4_leaves window header verify _ parsed
      simp only [parsed, Option.bind_eq_bind, Option.bind_some]
      by_cases failed : (Ip.V4.parse window.contents header .big verify).err ≠ .none
      · rw [if_pos failed, if_pos failed]
        exact ⟨rest, rfl, shown, fun passed => absurd passed failed⟩
      · rw [if_neg failed, if_neg failed]
        obtain ⟨start, stop⟩ := leaves (not_not.mp failed)
        exact ⟨rest, rfl, shown, fun _ => ⟨start.ge, stop.le⟩⟩
  | v6 header =>
      obtain ⟨rest, parsed, shown, within⟩ := v6_agrees window header
      have leaves := v6_leaves window header _ parsed
      simp only [parsed, Option.bind_eq_bind, Option.bind_some]
      by_cases failed : (Ip.V6.parse window.contents header .big).err ≠ .none
      · rw [if_pos failed, if_pos failed]
        exact ⟨rest, rfl, shown, fun passed => absurd passed failed⟩
      rw [if_neg failed, if_neg failed]
      obtain ⟨start, stop⟩ := leaves (not_not.mp failed)
      rw [← shown]
      generalize (Ip.V6.parse window.contents header .big).header = read at start stop
      obtain ⟨err, left, out', last, fragment, passed, same, inner, kept⟩ := ext_loop_agrees
        (Ip.V6.Ext.maxHeaders + 1) rest { out with network := .v6 read } read.nextHeader
      have bounded : Bounded window left out'.network := by
        rw [kept]
        have whole : Bounded window rest (.v6 read) := ⟨start.ge, stop.le⟩
        exact whole.within inner
      rw [passed, same]
      simp only [Option.bind_some]
      by_cases stopped : err ≠ .none
      · rw [if_pos stopped, if_pos stopped]
        exact ⟨left, rfl, rfl, fun passed => absurd passed stopped⟩
      rw [if_neg stopped, if_neg stopped]
      cases fragment with
      | true => exact ⟨left, rfl, rfl, fun _ => bounded⟩
      | false => exact ⟨left, rfl, rfl, fun _ => bounded⟩

end Network

section Transport

variable {window : Window frame}

theorem Agrees.wrapped {Header Whole : Type} {checked : Option (Windowed frame Header)}
    {plain : Parsed Header} (wrap : Header → Whole) (agrees : Agrees window checked plain) :
    Agrees window (checked >>= fun part => some ⟨part.err, wrap part.header, part.window⟩)
      ⟨plain.err, wrap plain.header, plain.span⟩ := by
  obtain ⟨left, passed, shown, within⟩ := agrees
  refine ⟨left, ?_, shown, within⟩
  rw [passed, Option.bind_eq_bind, Option.bind_some]

/-- The total length of an accepted IPv4 header covers the header, so that nothing below zero
comes of subtracting it. -/
theorem layer4_agrees (window : Window frame) (out : Packet) (verify : Bool)
    (covers : ∀ ip, out.network = .v4 ip → ip.headerLength ≤ ip.totalLength.toNat) :
    Agrees window (decodeLayer4 window out verify)
      (PcapAnalyzer.decodeLayer4 window.contents out verify) := by
  obtain ⟨datalink, vlanTags, network, ipv6Ext, transport, payload⟩ := out
  unfold decodeLayer4 PcapAnalyzer.decodeLayer4
  cases network with
  | monostate => exact .stop _ _
  | arp header => exact .stop _ _
  | v4 ip =>
      have covered := covers ip rfl
      have sum : V4.computePseudoHeaderSum ip = some (Ip.V4.computePseudoHeaderSum ip) := by
        rw [V4.computePseudoHeaderSum, difference_eq covered, Option.map_some]
      cases transport with
      | monostate => exact .stop _ _
      | icmpv6 header => exact .stop _ _
      | tcp header =>
          have agrees : Agrees window (Tcp.parseV4 window header ip .big verify)
              (PcapAnalyzer.Tcp.parseV4 window.contents header ip .big verify) := by
            rw [Tcp.parseV4, sum]
            exact .subtracted covered (tcp_agrees window header _ _ verify)
          exact agrees.wrapped fun tcp =>
            (⟨datalink, vlanTags, .v4 ip, ipv6Ext, .tcp tcp, payload⟩ : Packet)
      | udp header =>
          have agrees : Agrees window (Udp.parseV4 window header ip .big verify)
              (PcapAnalyzer.Udp.parseV4 window.contents header ip .big verify) := by
            rw [Udp.parseV4, sum]
            exact udp_agrees window header _ true verify
          exact agrees.wrapped fun udp =>
            (⟨datalink, vlanTags, .v4 ip, ipv6Ext, .udp udp, payload⟩ : Packet)
      | icmp header =>
          exact (icmp_agrees window header verify).wrapped fun icmp =>
            (⟨datalink, vlanTags, .v4 ip, ipv6Ext, .icmp icmp, payload⟩ : Packet)
  | v6 fixed =>
      simp only [window.contents_length]
      cases transport with
      | monostate => exact .stop _ _
      | icmp header => exact .stop _ _
      | tcp header =>
          exact (tcp_agrees window header _ _ verify).wrapped fun tcp =>
            (⟨datalink, vlanTags, .v6 fixed, ipv6Ext, .tcp tcp, payload⟩ : Packet)
      | udp header =>
          exact (udp_agrees window header _ false verify).wrapped fun udp =>
            (⟨datalink, vlanTags, .v6 fixed, ipv6Ext, .udp udp, payload⟩ : Packet)
      | icmpv6 header =>
          exact (icmpv6_agrees window header _ verify).wrapped fun icmpv6 =>
            (⟨datalink, vlanTags, .v6 fixed, ipv6Ext, .icmpv6 icmpv6, payload⟩ : Packet)

end Transport

section Frame

/-- An accepted IPv4 header covers itself. -/
theorem layer3_covers {span : List UInt8} {out : Packet} {verify : Bool}
    (passed : (PcapAnalyzer.decodeLayer3 span out verify).err = .none) :
    ∀ ip, (PcapAnalyzer.decodeLayer3 span out verify).header.network = .v4 ip →
      ip.headerLength ≤ ip.totalLength.toNat := by
  have reads := decode_layer3_reads passed
  generalize PcapAnalyzer.decodeLayer3 span out verify = parsed at reads
  intro ip network
  cases reads with
  | v4 announced accepts =>
      cases network
      exact accepts.total
  | v6 announced accepts walked => cases network
  | fragment announced accepts walked => cases network
  | arp announced accepts => cases network

/-- The decoder goes through on every frame: no read and no difference is out of range. The
payload of an accepted IP packet is a part of the frame inside its datagram. -/
theorem decode_reads_inside (frame : List UInt8) (out : Packet) (verify : Bool) :
    ∃ result, decodePacket (Window.whole frame) out verify = some result ∧
      PcapAnalyzer.decodePacket frame out verify =
        ⟨result.err, result.header, result.window.contents⟩ ∧
      (result.err = .none → result.header.isArp = false →
        result.header.payload = result.window.contents ∧
        ∃ link, decodeLayer2 (Window.whole frame) out = some link ∧
          Bounded link.window result.window result.header.network) := by
  obtain ⟨datagram, link, linkShown, -⟩ := layer2_agrees (Window.whole frame) out
  rw [Window.whole_contents] at link linkShown
  unfold decodePacket PcapAnalyzer.decodePacket
  rw [link]
  simp only [Option.bind_eq_bind, Option.bind_some, ← linkShown]
  by_cases link2 : (PcapAnalyzer.decodeLayer2 frame out).err ≠ .none
  · rw [if_pos link2, if_pos link2]
    refine ⟨_, rfl, ?_, fun passed => absurd passed link2⟩
    rw [linkShown]
  rw [if_neg link2, if_neg link2]
  obtain ⟨packet, network, networkShown, bounded⟩ := layer3_agrees datagram
    (PcapAnalyzer.decodeLayer2 frame out).header verify
  have covers := @layer3_covers datagram.contents (PcapAnalyzer.decodeLayer2 frame out).header
    verify
  rw [network]
  simp only [Option.bind_some]
  generalize PcapAnalyzer.decodeLayer3 datagram.contents
    (PcapAnalyzer.decodeLayer2 frame out).header verify = l3 at networkShown bounded covers ⊢
  obtain ⟨err, packetOut, span⟩ := l3
  simp only at networkShown bounded covers ⊢
  subst networkShown
  by_cases failed : err ≠ .none
  · rw [if_pos failed, if_pos failed]
    exact ⟨_, rfl, rfl, fun passed => absurd passed failed⟩
  rw [if_neg failed, if_neg failed]
  by_cases arp : packetOut.isArp = true
  · rw [if_pos arp, if_pos arp]
    exact ⟨_, rfl, rfl, fun _ ip => absurd arp (by simp [ip])⟩
  rw [if_neg arp, if_neg arp]
  obtain ⟨payload, transport, transportShown, within⟩ := layer4_agrees packet packetOut verify
    (covers (not_not.mp failed))
  have same : (PcapAnalyzer.decodeLayer4 packet.contents packetOut verify).err = .none →
      (PcapAnalyzer.decodeLayer4 packet.contents packetOut verify).header.network =
        packetOut.network := fun passed =>
    (decode_layer4_reads (Bool.eq_false_iff.mpr arp) passed).network_same.1
  rw [transport]
  simp only [Option.bind_some]
  generalize PcapAnalyzer.decodeLayer4 packet.contents packetOut verify = l4
    at transportShown same ⊢
  obtain ⟨err4, out4, span4⟩ := l4
  simp only at transportShown same ⊢
  subst transportShown
  by_cases failed4 : err4 ≠ .none
  · rw [if_pos failed4, if_pos failed4]
    exact ⟨_, rfl, rfl, fun passed => absurd passed failed4⟩
  rw [if_neg failed4, if_neg failed4]
  refine ⟨_, rfl, rfl, fun _ _ => ⟨rfl, _, rfl, ?_⟩⟩
  have kept := same (not_not.mp failed4)
  simp only [kept]
  exact (bounded (not_not.mp failed)).within within

end Frame

end PcapAnalyzer.Checked
