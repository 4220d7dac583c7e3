import PcapAnalyzer.Flow.FlowTable
import PcapAnalyzer.Library.Orientation

/-!
# Flow keys and conversations

The key of a flow names a conversation, whichever of the two sides has sent the packet:
normalising picks one of the two directions, always the same one, and remembers which of
them the packet had.
-/

namespace PcapAnalyzer

open Orientation
open Pcap (Capture)

set_option autoImplicit false

namespace Address

theorem memcmp_eq {left right : Address} (same : left.memcmp right = .eq) : left = right :=
  Subtype.ext (Std.LawfulEqOrd.eq_of_compare same)

theorem memcmp_swap (left right : Address) : right.memcmp left = (left.memcmp right).swap :=
  Std.OrientedOrd.eq_swap

/-- The four shifts write the address as it stands on the wire. -/
theorem copy_v4_wire (ip : UInt32) : copyV4 ip zero = copy (wire32 ip) := by
  have octet : ∀ shifted : UInt32, (shifted &&& (0xFF : UInt32)).toUInt8 = shifted.toUInt8 := by
    intro shifted
    apply UInt8.toNat_inj.mp
    simp [UInt32.toNat_toUInt8, Nat.and_two_pow_sub_one_eq_mod _ 8]
  have shifted : ∀ shift : UInt32, (ip >>> shift).toUInt8 =
      UInt8.ofNat (ip.toNat / 2 ^ (shift.toNat % 32)) := by
    intro shift
    apply UInt8.toNat_inj.mp
    simp [UInt32.toNat_toUInt8, Nat.shiftRight_eq_div_pow]
  apply Subtype.ext
  simp only [copyV4, copy, wire32, zero, octet, shifted]
  rfl

/-- Addresses of one length are told apart by their copies. -/
theorem copy_inj {left right : List UInt8} (length : left.length = right.length)
    (fits : left.length ≤ 16) (same : copy left = copy right) : left = right := by
  have bytes := congrArg Subtype.val same
  simp only [copy] at bytes
  have front := congrArg (List.take left.length) bytes
  rw [List.take_take, List.take_take, Nat.min_eq_left fits, List.take_left] at front
  rw [front, length, List.take_left]

end Address

namespace FlowKey

theorem swap_same {key : FlowKey} (addresses : key.srcIp = key.dstIp)
    (ports : key.srcPort = key.dstPort) : key.swap = key := by
  cases key
  simp only [swap, FlowKey.mk.injEq] at addresses ports ⊢
  exact ⟨trivial, addresses.symm, addresses, ports.symm, ports, trivial⟩

/-- A key in the right order either way round reads the same either way. -/
theorem swap_reversed {key : FlowKey} (different : key.swap ≠ key)
    (ordered : key.reversed = false) : key.swap.reversed = true := by
  have mirrored := Address.memcmp_swap key.srcIp key.dstIp
  simp only [reversed, swap, mirrored] at ordered ⊢
  cases order : key.srcIp.memcmp key.dstIp with
  | lt => simp
  | gt => simp [order] at ordered
  | eq =>
      simp only [order, reduceCtorEq, decide_false, Bool.false_or, decide_true, Bool.true_and,
        decide_eq_false_iff_not, UInt16.not_lt] at ordered
      have addresses := Address.memcmp_eq order
      have ports : key.srcPort ≠ key.dstPort := by
        intro same
        exact different (swap_same addresses same)
      have greater : key.dstPort > key.srcPort := UInt16.lt_of_le_of_ne ordered ports
      simp [greater]

theorem normalize_protocol (key : FlowKey) : key.normalize.2.protocol = key.protocol := by
  unfold normalize
  split_ifs <;> rfl

theorem turning : Turning swap reversed where
  back := swap_swap
  righted := swap_not_reversed
  wronged := fun _ different ordered => swap_reversed different ordered

theorem normalize_orient (key : FlowKey) : key.normalize = orient swap reversed key := rfl

/-- Normalising picks one of a key and the exchanged one. -/
structure Canonical (a b : FlowKey) : Prop where
  idempotent : a.normalize.2.normalize.2 = a.normalize.2
  same : a.normalize.2 = b.normalize.2 ↔ b = a ∨ b = a.swap
  reported : a ≠ a.swap → a.normalize.1 = !a.swap.normalize.1

theorem normalize_same_iff (a b : FlowKey) :
    a.normalize.2 = b.normalize.2 ↔ b = a ∨ b = a.swap := by
  rw [normalize_orient, normalize_orient]
  exact orient_eq_iff turning a b

theorem normalize_reports {key : FlowKey} (different : key ≠ key.swap) :
    key.swap.normalize.1 = !key.normalize.1 := by
  rw [normalize_orient, normalize_orient]
  exact orient_reports turning different.symm

theorem canonical (a b : FlowKey) : Canonical a b := by
  refine ⟨?_, normalize_same_iff a b, ?_⟩
  · rw [normalize_normalized]
  · intro different
    rw [normalize_reports different, Bool.not_not]

end FlowKey

structure Endpoint where
  address : List UInt8
  port : UInt16
  deriving DecidableEq, Repr

structure Conversation where
  isIpv4 : Bool
  protocol : UInt8
  source : Endpoint
  destination : Endpoint
  deriving DecidableEq, Repr

namespace Conversation

def exchanged (c : Conversation) : Conversation :=
  { c with source := c.destination, destination := c.source }

/-- The addresses of a header as they stand on the wire. Those of IPv6 are arrays of sixteen
bytes in the source. -/
def addresses : NetworkHeader → Option (Bool × List UInt8 × List UInt8)
  | .v4 header => some (true, wire32 header.srcIp, wire32 header.dstIp)
  | .v6 header =>
      if header.srcIp.length = 16 ∧ header.dstIp.length = 16 then
        some (false, header.srcIp, header.dstIp)
      else none
  | .arp _ | .monostate => none

/-- The ports of a segment or a datagram. An echo message has its identifier on both sides. -/
def ports : TransportHeader → Option (UInt8 × UInt16 × UInt16)
  | .tcp header => some (Ip.protocolTcp, header.srcPort, header.dstPort)
  | .udp header => some (Ip.protocolUdp, header.srcPort, header.dstPort)
  | .icmp header =>
      if Icmp.isEcho header.type then some (Ip.protocolIcmp, header.echoId, header.echoId)
      else none
  | .icmpv6 header =>
      if Icmpv6.isEcho header.type then some (Ip.protocolIcmpv6, header.echoId, header.echoId)
      else none
  | .monostate => none

/-- The protocol number of the transport header that a packet carries. -/
def protocolOf : TransportHeader → Option UInt8
  | .icmp _ => some 1
  | .tcp _ => some 6
  | .udp _ => some 17
  | .icmpv6 _ => some 58
  | .monostate => none

/-- Who speaks to whom in a packet, from its own headers. -/
def ofPacket (pkt : Packet) : Option Conversation :=
  match addresses pkt.network, ports pkt.transport with
  | some (isIpv4, source, destination), some (protocol, srcPort, dstPort) => some {
      isIpv4 := isIpv4
      protocol := protocol
      source := ⟨source, srcPort⟩
      destination := ⟨destination, dstPort⟩ }
  | _, _ => none

/-- The endpoints without their order. -/
def SameEnds (c d : Conversation) : Prop :=
  c.source = d.source ∧ c.destination = d.destination ∨
    c.source = d.destination ∧ c.destination = d.source

def key (c : Conversation) : FlowKey where
  isIpv4 := c.isIpv4
  srcIp := Address.copy c.source.address
  dstIp := Address.copy c.destination.address
  srcPort := c.source.port
  dstPort := c.destination.port
  protocol := c.protocol

/-- The addresses have the size of their IP version. -/
def Sized (c : Conversation) : Prop :=
  c.source.address.length = (if c.isIpv4 then 4 else 16) ∧
    c.destination.address.length = (if c.isIpv4 then 4 else 16)

variable {c d : Conversation}

theorem key_exchanged (c : Conversation) : c.exchanged.key = c.key.swap := rfl

theorem Sized.exchanged (sized : c.Sized) : c.exchanged.Sized := ⟨sized.2, sized.1⟩

theorem addresses_sized {network : NetworkHeader} {isIpv4 : Bool}
    {source destination : List UInt8}
    (found : addresses network = some (isIpv4, source, destination)) :
    source.length = (if isIpv4 then 4 else 16) ∧
      destination.length = (if isIpv4 then 4 else 16) := by
  cases network with
  | monostate => cases found
  | arp header => cases found
  | v4 header =>
      cases found
      exact ⟨rfl, rfl⟩
  | v6 header =>
      by_cases sized : header.srcIp.length = 16 ∧ header.dstIp.length = 16
      · rw [addresses, if_pos sized] at found
        cases found
        exact sized
      · rw [addresses, if_neg sized] at found
        cases found

theorem set_network_addresses {network : NetworkHeader} {isIpv4 : Bool}
    {source destination : List UInt8}
    (found : addresses network = some (isIpv4, source, destination)) :
    FlowTable.setNetwork network {} = some {
      isIpv4 := isIpv4
      srcIp := Address.copy source
      dstIp := Address.copy destination } := by
  cases network with
  | monostate => cases found
  | arp header => cases found
  | v4 header =>
      cases found
      simp only [FlowTable.setNetwork, Address.copy_v4_wire]
  | v6 header =>
      by_cases sized : header.srcIp.length = 16 ∧ header.dstIp.length = 16
      · rw [addresses, if_pos sized] at found
        cases found
        rfl
      · rw [addresses, if_neg sized] at found
        cases found

theorem set_ports_ports {transport : TransportHeader} {protocol : UInt8}
    {srcPort dstPort : UInt16} (found : ports transport = some (protocol, srcPort, dstPort))
    (key : FlowKey) : FlowTable.setPorts transport key =
      some { key with srcPort := srcPort, dstPort := dstPort, protocol := protocol } := by
  cases transport with
  | monostate => cases found
  | tcp header =>
      cases found
      rfl
  | udp header =>
      cases found
      rfl
  | icmp header =>
      by_cases echo : Icmp.isEcho header.type = true
      · rw [ports, if_pos echo] at found
        cases found
        rw [Icmp.isEcho] at echo
        rw [FlowTable.setPorts, FlowTable.setIcmpPorts, if_pos echo]
      · rw [ports, if_neg echo] at found
        cases found
  | icmpv6 header =>
      by_cases echo : Icmpv6.isEcho header.type = true
      · rw [ports, if_pos echo] at found
        cases found
        rw [Icmpv6.isEcho] at echo
        rw [FlowTable.setPorts, FlowTable.setIcmpPorts, if_pos echo]
      · rw [ports, if_neg echo] at found
        cases found

/-- The key of a packet is the key of its conversation. -/
theorem key_from_packet {pkt : Packet} (spoken : ofPacket pkt = some c) :
    FlowTable.keyFromPacket pkt {} = .ok c.key ∧ c.Sized := by
  unfold ofPacket at spoken
  cases network : addresses pkt.network with
  | none => simp [network] at spoken
  | some ends =>
      cases transport : ports pkt.transport with
      | none => simp [network, transport] at spoken
      | some numbers =>
          obtain ⟨isIpv4, source, destination⟩ := ends
          obtain ⟨protocol, srcPort, dstPort⟩ := numbers
          simp only [network, transport, Option.some.injEq] at spoken
          subst spoken
          refine ⟨?_, addresses_sized network⟩
          simp only [FlowTable.keyFromPacket, set_network_addresses network,
            set_ports_ports transport, key]

theorem set_ports_protocol {transport : TransportHeader} {before key : FlowKey}
    (set : FlowTable.setPorts transport before = some key) :
    protocolOf transport = some key.protocol := by
  cases transport with
  | monostate => cases set
  | tcp header =>
      cases set
      rfl
  | udp header =>
      cases set
      rfl
  | icmp header =>
      simp only [FlowTable.setPorts, FlowTable.setIcmpPorts, Option.some.injEq] at set
      subst set
      split_ifs <;> rfl
  | icmpv6 header =>
      simp only [FlowTable.setPorts, FlowTable.setIcmpPorts, Option.some.injEq] at set
      subst set
      split_ifs <;> rfl

/-- The protocol of a key is that of the packet. -/
theorem key_protocol {pkt : Packet} {key : FlowKey}
    (found : FlowTable.keyFromPacket pkt {} = .ok key) :
    protocolOf pkt.transport = some key.protocol := by
  unfold FlowTable.keyFromPacket at found
  split at found
  · cases found
  split at found
  · cases found
  rename_i set
  cases found
  exact set_ports_protocol set

theorem key_inj (left : c.Sized) (right : d.Sized) (same : c.key = d.key) : c = d := by
  obtain ⟨isIpv4, protocol, ⟨source, srcPort⟩, ⟨destination, dstPort⟩⟩ := c
  obtain ⟨isIpv4', protocol', ⟨source', srcPort'⟩, ⟨destination', dstPort'⟩⟩ := d
  simp only [key, FlowKey.mk.injEq] at same
  obtain ⟨rfl, first, second, rfl, rfl, rfl⟩ := same
  have fits : (if isIpv4 then 4 else 16) ≤ 16 := by
    split_ifs <;> decide
  obtain ⟨length, length₂⟩ := left
  obtain ⟨length', length₂'⟩ := right
  simp only at length length₂ length' length₂'
  rw [Address.copy_inj (length.trans length'.symm) (length.le.trans fits) first,
    Address.copy_inj (length₂.trans length₂'.symm) (length₂.le.trans fits) second]

/-- One active flow is for one version, one protocol and one pair of endpoints. -/
theorem normalize_key_iff (left : c.Sized) (right : d.Sized) :
    c.key.normalize.2 = d.key.normalize.2 ↔
      c.isIpv4 = d.isIpv4 ∧ c.protocol = d.protocol ∧ c.SameEnds d := by
  rw [FlowKey.normalize_same_iff]
  constructor
  · rintro (same | turned)
    · rw [key_inj right left same]
      exact ⟨rfl, rfl, .inl ⟨rfl, rfl⟩⟩
    · rw [← key_exchanged] at turned
      rw [key_inj right left.exchanged turned]
      exact ⟨rfl, rfl, .inr ⟨rfl, rfl⟩⟩
  · rintro ⟨version, protocol, ⟨source, destination⟩ | ⟨source, destination⟩⟩
    · left
      simp only [key, version, protocol, source, destination]
    · right
      rw [← key_exchanged]
      simp only [key, exchanged, version, protocol, source, destination]

end Conversation

namespace FlowTable

/-- The active flow a packet of a key is added to. -/
def activeFlow (table : FlowTable) (key : FlowKey) (tsUs : UInt64) : Flow :=
  ((table.retireExpired key tsUs).findOrCreate key tsUs).2

/-- The packet is counted on one side of the flow it is filed in, and on that side only. -/
def CountedOn (reverse : Bool) (table : FlowTable) (capture : Capture) : Prop :=
  let key := (table.addPacket capture).1.key
  let before := table.activeFlow key capture.tsUs
  let count := fun stats : FlowStats => stats.count capture.packetHeader.inclLen
  ∃ after, (table.addPacket capture).2.flows.lookup key = some after ∧
    after.fwdStats = (if reverse then before.fwdStats else count before.fwdStats) ∧
    after.revStats = (if reverse then count before.revStats else before.revStats)

variable {c d : Conversation}

theorem add_packet_conversation (table : FlowTable) {capture : Capture}
    (spoken : Conversation.ofPacket capture.pkt = some c) :
    table.addPacket capture =
      table.addToFlow capture c.key.normalize.1 c.key.normalize.2 := by
  have networked : capture.pkt.isArp = false := by
    unfold Conversation.ofPacket at spoken
    unfold Packet.isArp
    cases network : capture.pkt.network with
    | arp header => simp [network, Conversation.addresses] at spoken
    | monostate => rfl
    | v4 header => rfl
    | v6 header => rfl
  simp only [addPacket, networked, Bool.false_eq_true, if_false,
    (Conversation.key_from_packet spoken).1]

theorem active_flow_bytes (table : FlowTable) (key : FlowKey) (tsUs : UInt64) (bytes : Nat) :
    { table with totalBytes := bytes }.activeFlow key tsUs = table.activeFlow key tsUs := by
  simp only [activeFlow, retireExpired, findOrCreate, isExpired]
  cases active : table.flows.lookup key with
  | none => simp only [active]
  | some flow =>
      simp only
      split_ifs <;> rfl

theorem add_to_flow_lookup (table : FlowTable) (capture : Capture) (reverse : Bool)
    (key : FlowKey) : (table.addToFlow capture reverse key).2.flows.lookup key =
      some (countPacket (table.activeFlow key capture.tsUs) reverse capture) := by
  rw [← active_flow_bytes table key capture.tsUs
    (table.totalBytes + capture.packetHeader.inclLen.toNat)]
  exact AList.lookup_insert _

theorem add_packet_counted_on (table : FlowTable) {capture : Capture}
    (spoken : Conversation.ofPacket capture.pkt = some c) :
    CountedOn c.key.normalize.1 table capture := by
  unfold CountedOn
  rw [add_packet_conversation table spoken]
  refine ⟨_, add_to_flow_lookup table capture _ _, ?_⟩
  cases c.key.normalize.1 with
  | true => exact ⟨rfl, rfl⟩
  | false => exact ⟨rfl, rfl⟩

/-- Two packets of conversations are filed under one key exactly when version, protocol and
the unordered endpoints are the same, and what one end says is counted apart from what the
other one says. -/
structure FiledBy (c d : Conversation) (table table' : FlowTable) (left right : Capture) :
    Prop where
  together : (table.addPacket left).1.key = (table'.addPacket right).1.key ↔
    c.isIpv4 = d.isIpv4 ∧ c.protocol = d.protocol ∧ c.SameEnds d
  alike : d = c → ∃ side, CountedOn side table left ∧ CountedOn side table' right
  apart : c.source ≠ c.destination → d = c.exchanged →
    ∃ side, CountedOn side table left ∧ CountedOn (!side) table' right

theorem exchanged_key_ne (sized : c.Sized) (different : c.source ≠ c.destination) :
    c.key ≠ c.key.swap := by
  rw [← Conversation.key_exchanged]
  intro same
  have turned := Conversation.key_inj sized sized.exchanged same
  exact different (congrArg Conversation.source turned)

theorem filed_by {left right : Capture} (table table' : FlowTable)
    (spoken : Conversation.ofPacket left.pkt = some c)
    (answered : Conversation.ofPacket right.pkt = some d) :
    FiledBy c d table table' left right := by
  have sized := (Conversation.key_from_packet spoken).2
  have counted := add_packet_counted_on table spoken
  have counted' := add_packet_counted_on table' answered
  refine ⟨?_, ?_, ?_⟩
  · rw [add_packet_conversation table spoken, add_packet_conversation table' answered]
    exact Conversation.normalize_key_iff sized (Conversation.key_from_packet answered).2
  · intro same
    rw [same] at counted'
    exact ⟨_, counted, counted'⟩
  · intro different turned
    rw [turned, Conversation.key_exchanged,
      FlowKey.normalize_reports (exchanged_key_ne sized different)] at counted'
    exact ⟨_, counted, counted'⟩

/-- Flow keys are canonical, and packets are filed by their conversations. -/
theorem flow_keys_canonical :
    (∀ a b : FlowKey, FlowKey.Canonical a b) ∧
    ∀ (table table' : FlowTable) (left right : Capture) (c d : Conversation),
      Conversation.ofPacket left.pkt = some c → Conversation.ofPacket right.pkt = some d →
        FiledBy c d table table' left right :=
  ⟨FlowKey.canonical, fun table table' _ _ _ _ spoken answered =>
    filed_by table table' spoken answered⟩

/-- A segment and the answer to it. -/
theorem flow_keys_canonical_answer :
    ∃ asked answered : Capture, ∃ c : Conversation,
      FiledBy c c.exchanged {} {} asked answered ∧ c.source ≠ c.destination :=
  let asked : Capture := { pkt := {
    network := .v4 { srcIp := 0x0A000001, dstIp := 0x0A000002 }
    transport := .tcp { srcPort := 40000, dstPort := 80 } } }
  let answered : Capture := { pkt := {
    network := .v4 { srcIp := 0x0A000002, dstIp := 0x0A000001 }
    transport := .tcp { srcPort := 80, dstPort := 40000 } } }
  ⟨asked, answered, _,
    flow_keys_canonical.2 {} {} asked answered _ _ rfl rfl, by decide⟩

end FlowTable

end PcapAnalyzer
