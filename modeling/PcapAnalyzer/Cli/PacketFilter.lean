import PcapAnalyzer.Cli.FilterOptions
import PcapAnalyzer.Decode.Layers
import PcapAnalyzer.Flow.Conversation

/-!
# The packets a filter keeps

A filter is compared with the flow key of a packet. The key of an ICMP message has numbers in
its port fields that are no ports.
-/

namespace PcapAnalyzer.Cli

open Pcap (Capture)

set_option autoImplicit false

/-- The ports of a segment or a datagram. -/
def portsOf : TransportHeader → Option (UInt16 × UInt16)
  | .tcp header => some (header.srcPort, header.dstPort)
  | .udp header => some (header.srcPort, header.dstPort)
  | .icmp _ | .icmpv6 _ | .monostate => none

def protocolOf : TransportHeader → Option UInt8
  | .tcp _ => some Ip.protocolTcp
  | .udp _ => some Ip.protocolUdp
  | .icmp _ => some Ip.protocolIcmp
  | .icmpv6 _ => some Ip.protocolIcmpv6
  | .monostate => none

/-- What stands in the port fields of the key of an ICMP message: the identifier of an echo
message twice, the type and the code of any other one. -/
def filedUnder : TransportHeader → Option (UInt16 × UInt16)
  | .icmp header =>
      some (if Icmp.isEcho header.type then (header.echoId, header.echoId)
        else ((header.type.toUInt16 <<< 8) ||| header.code.toUInt16, 0))
  | .icmpv6 header =>
      some (if Icmpv6.isEcho header.type then (header.echoId, header.echoId)
        else ((header.type.toUInt16 <<< 8) ||| header.code.toUInt16, 0))
  | .tcp _ | .udp _ | .monostate => none

/-- The addresses and the protocol that are asked for are the packet's own. -/
structure MatchesHost (given : Given) (pkt : Packet) : Prop where
  srcIp : ∀ ip ∈ given.srcIp, ∃ destination,
    Conversation.addresses pkt.network = some (ip.isIpv4, ip.bytes, destination)
  dstIp : ∀ ip ∈ given.dstIp, ∃ source,
    Conversation.addresses pkt.network = some (ip.isIpv4, source, ip.bytes)
  proto : ∀ number ∈ given.proto, protocolOf pkt.transport = some number

/-- Every option that is given matches the packet's own headers. -/
structure Matches (given : Given) (pkt : Packet) : Prop extends MatchesHost given pkt where
  srcPort : ∀ port ∈ given.srcPort, ∃ other, portsOf pkt.transport = some (port, other)
  dstPort : ∀ port ∈ given.dstPort, ∃ other, portsOf pkt.transport = some (other, port)

/-- An ICMP message whose key has the ports that are asked for. -/
structure TakenForPorts (given : Given) (pkt : Packet) : Prop where
  host : MatchesHost given pkt
  asked : given.srcPort ≠ none ∨ given.dstPort ≠ none
  filed : ∃ first second, filedUnder pkt.transport = some (first, second) ∧
    (∀ port ∈ given.srcPort, first = port) ∧ ∀ port ∈ given.dstPort, second = port

/-- No option is given. -/
structure Empty (given : Given) : Prop where
  srcIp : given.srcIp = none
  dstIp : given.dstIp = none
  srcPort : given.srcPort = none
  dstPort : given.dstPort = none
  proto : given.proto = none

section Key

/-- Every option that is given agrees with the key. -/
structure KeyMatches (given : Given) (key : FlowKey) : Prop where
  srcIp : ∀ ip ∈ given.srcIp, ip.isIpv4 = key.isIpv4 ∧ key.srcIp = Address.copy ip.bytes
  dstIp : ∀ ip ∈ given.dstIp, ip.isIpv4 = key.isIpv4 ∧ key.dstIp = Address.copy ip.bytes
  srcPort : ∀ port ∈ given.srcPort, key.srcPort = port
  dstPort : ∀ port ∈ given.dstPort, key.dstPort = port
  proto : ∀ number ∈ given.proto, key.protocol = number

variable {given : Given} {filter key : FlowKey}

/-- A value that cannot be given stands for an option that is not. -/
theorem wildcard_iff {Value : Type} {wanted : Option Value} {zero value : Value}
    (nonZero : wanted ≠ some zero) :
    ¬ (wanted.getD zero ≠ zero ∧ wanted.getD zero ≠ value) ↔ ∀ asked ∈ wanted, value = asked := by
  cases wanted with
  | none => simp
  | some asked =>
      have other : asked ≠ zero := fun same => nonZero (congrArg some same)
      simp only [Option.getD_some, other, ne_eq, not_false_eq_true, true_and, not_not,
        Option.mem_def, Option.some.injEq, forall_eq']
      exact eq_comm

theorem getD_eq_zero_iff {Value : Type} {wanted : Option Value} {zero : Value}
    (nonZero : wanted ≠ some zero) : wanted.getD zero = zero ↔ wanted = none := by
  cases wanted with
  | none => simp
  | some asked =>
      have other : asked ≠ zero := fun same => nonZero (congrArg some same)
      simp [other]

theorem copy_non_zero {ip : FilterIp} (nonZero : ip.NonZero) :
    (Address.copy ip.bytes).anyNonZero = true := by
  obtain ⟨byte, member, other⟩ := nonZero
  have fits : ip.bytes.length ≤ 16 := by
    rw [ip.sized]
    split_ifs <;> decide
  rw [Address.anyNonZero, List.any_eq_true]
  refine ⟨byte, ?_, decide_eq_true other⟩
  have front : ip.bytes = (Address.copy ip.bytes).val.take ip.bytes.length := by
    rw [Address.copy, List.take_take, Nat.min_eq_left fits, List.take_left]
  rw [front] at member
  exact List.mem_of_mem_take member

theorem zero_any_non_zero : Address.zero.anyNonZero = false := rfl

theorem address_or_zero_iff {wanted : Option FilterIp}
    (nonZero : ∀ ip ∈ wanted, ip.NonZero) :
    (addressOrZero wanted).anyNonZero = false ↔ wanted = none := by
  cases wanted with
  | none => simp [addressOrZero, zero_any_non_zero]
  | some ip => simp [addressOrZero, copy_non_zero (nonZero ip rfl)]

theorem address_wildcard_iff {wanted : Option FilterIp} {address : Address}
    {isIpv4 keyIpv4 : Bool} (nonZero : ∀ ip ∈ wanted, ip.NonZero)
    (version : ∀ ip ∈ wanted, ip.isIpv4 = isIpv4) :
    ¬ ((addressOrZero wanted).anyNonZero = true ∧
        (isIpv4 ≠ keyIpv4 ∨ addressOrZero wanted ≠ address)) ↔
      ∀ ip ∈ wanted, ip.isIpv4 = keyIpv4 ∧ address = Address.copy ip.bytes := by
  cases wanted with
  | none => simp [addressOrZero, zero_any_non_zero]
  | some ip =>
      simp only [addressOrZero, copy_non_zero (nonZero ip rfl), true_and, not_or, ne_eq, not_not,
        Option.mem_def, Option.some.injEq, forall_eq', version ip rfl]
      exact and_congr_right fun _ => eq_comm

theorem matches_pkt_iff : filter.matchesPkt key = true ↔
    ¬ (filter.protocol ≠ 0 ∧ filter.protocol ≠ key.protocol) ∧
    ¬ (filter.srcPort ≠ 0 ∧ filter.srcPort ≠ key.srcPort) ∧
    ¬ (filter.dstPort ≠ 0 ∧ filter.dstPort ≠ key.dstPort) ∧
    ¬ (filter.srcIp.anyNonZero = true ∧
      (filter.isIpv4 ≠ key.isIpv4 ∨ filter.srcIp ≠ key.srcIp)) ∧
    ¬ (filter.dstIp.anyNonZero = true ∧
      (filter.isIpv4 ≠ key.isIpv4 ∨ filter.dstIp ≠ key.dstIp)) := by
  have refuses : ∀ (c : Prop) [Decidable c] (rest : Bool),
      (if c then false else rest) = true ↔ ¬ c ∧ rest = true := by
    intro c _ rest
    by_cases refused : c
    · simp [refused]
    · simp [refused]
  simp only [FlowKey.matchesPkt, refuses, and_true]

theorem matches_key_iff (holds : Holds given filter)
    (nonZero : ∀ ip ∈ given.addresses, ip.NonZero) :
    filter.matchesPkt key = true ↔ KeyMatches given key := by
  have ofSrc : ∀ ip ∈ given.srcIp, ip ∈ given.addresses :=
    fun ip member => List.mem_append_left _ (Option.mem_toList.mpr member)
  have ofDst : ∀ ip ∈ given.dstIp, ip ∈ given.addresses :=
    fun ip member => List.mem_append_right _ (Option.mem_toList.mpr member)
  rw [matches_pkt_iff, holds.protocol, holds.srcPort, holds.dstPort, holds.srcIp, holds.dstIp,
    wildcard_iff holds.nonZero.2.2, wildcard_iff holds.nonZero.1, wildcard_iff holds.nonZero.2.1,
    address_wildcard_iff (fun ip member => nonZero ip (ofSrc ip member))
      (fun ip member => holds.version ip (ofSrc ip member)),
    address_wildcard_iff (fun ip member => nonZero ip (ofDst ip member))
      (fun ip member => holds.version ip (ofDst ip member))]
  constructor
  · rintro ⟨proto, srcPort, dstPort, srcIp, dstIp⟩
    exact ⟨srcIp, dstIp, srcPort, dstPort, proto⟩
  · rintro ⟨srcIp, dstIp, srcPort, dstPort, proto⟩
    exact ⟨proto, srcPort, dstPort, srcIp, dstIp⟩

theorem non_zero_iff (holds : Holds given filter)
    (nonZero : ∀ ip ∈ given.addresses, ip.NonZero) :
    filter.isNonZero = false ↔ Empty given := by
  have ofSrc : ∀ ip ∈ given.srcIp, ip.NonZero :=
    fun ip member => nonZero ip (List.mem_append_left _ (Option.mem_toList.mpr member))
  have ofDst : ∀ ip ∈ given.dstIp, ip.NonZero :=
    fun ip member => nonZero ip (List.mem_append_right _ (Option.mem_toList.mpr member))
  simp only [FlowKey.isNonZero, Bool.or_eq_false_iff, decide_eq_false_iff_not, ne_eq, not_not,
    holds.protocol, holds.srcPort, holds.dstPort, holds.srcIp, holds.dstIp,
    getD_eq_zero_iff holds.nonZero.1, getD_eq_zero_iff holds.nonZero.2.1,
    getD_eq_zero_iff holds.nonZero.2.2, address_or_zero_iff ofSrc, address_or_zero_iff ofDst]
  constructor
  · rintro ⟨⟨⟨⟨proto, srcPort⟩, dstPort⟩, srcIp⟩, dstIp⟩
    exact ⟨srcIp, dstIp, srcPort, dstPort, proto⟩
  · rintro ⟨srcIp, dstIp, srcPort, dstPort, proto⟩
    exact ⟨⟨⟨⟨proto, srcPort⟩, dstPort⟩, srcIp⟩, dstIp⟩

end Key

section Accepted

variable {span : List UInt8} {pkt : Packet} {verify : Bool}

theorem segment_announced {out : Packet} {segment : Parsed Packet}
    (reads : ReadsSegment span out verify segment) : segment.header.transport ≠ .monostate := by
  cases reads <;> exact TransportHeader.noConfusion

theorem addresses_of_network {network : NetworkHeader} (found : NetworkOf span verify network) :
    (∃ header, network = .arp header) ∨
      ∃ ends, Conversation.addresses network = some ends := by
  cases found with
  | arp accepts => exact .inl ⟨_, rfl⟩
  | v4 accepts => exact .inr ⟨_, rfl⟩
  | v6 accepts =>
      have fixed := accepts.fixed
      simp only [Ip.V6.headerLen] at fixed
      have sized : (slice span 8 16).length = 16 ∧ (slice span 24 16).length = 16 := by
        rw [slice_length, slice_length]
        omega
      exact .inr ⟨_, if_pos sized⟩

/-- An accepted packet is an ARP packet, or it has addresses and a transport header. -/
theorem accepted_headers (passed : (decodePacket span pkt.reset verify).err = .none) :
    let out := (decodePacket span pkt.reset verify).header
    (Conversation.addresses out.network = none ∧ out.transport = .monostate) ∨
      (∃ ends, Conversation.addresses out.network = some ends) ∧ out.transport ≠ .monostate := by
  have reads := decode_packet_reads passed
  have network := decode_packet_network passed
  generalize decodePacket span pkt.reset verify = parsed at reads network ⊢
  cases reads with
  | @arp datagram link layer3 arp =>
      left
      cases layer3 with
      | arp announced accepts => exact ⟨rfl, link.transport⟩
      | v4 announced accepts => cases arp
      | v6 announced accepts walked => cases arp
      | fragment announced accepts walked => cases arp
  | @ip datagram segment link layer3 ip transport =>
      right
      have announced := segment_announced transport
      refine ⟨?_, announced⟩
      rcases addresses_of_network network with ⟨header, arp⟩ | ends
      · simp only at arp
        rw [transport.network_same.1] at arp
        simp only [Packet.isArp, arp] at ip
        cases ip
      · exact ends

end Accepted

section Filter

variable {given : Given} {filter : FlowKey} {pkt : Packet}

theorem set_icmp_ports_eq (protocol : UInt8) (echo : Bool) (type code : UInt8) (id : UInt16)
    (key : FlowKey) :
    let filed := if echo then (id, id) else ((type.toUInt16 <<< 8) ||| code.toUInt16, 0)
    FlowTable.setIcmpPorts protocol echo type code id key =
      { key with srcPort := filed.1, dstPort := filed.2, protocol := protocol } := by
  cases echo <;> rfl

/-- What the key of an announced transport header holds besides the addresses. -/
theorem set_ports_filed (announced : pkt.transport ≠ .monostate) :
    ∃ number first second, protocolOf pkt.transport = some number ∧
      (portsOf pkt.transport = some (first, second) ∧ filedUnder pkt.transport = none ∨
        portsOf pkt.transport = none ∧ filedUnder pkt.transport = some (first, second)) ∧
      ∀ key, FlowTable.setPorts pkt.transport key =
        some { key with srcPort := first, dstPort := second, protocol := number } := by
  generalize pkt.transport = transport at announced
  cases transport with
  | monostate => exact absurd rfl announced
  | tcp header => exact ⟨_, _, _, rfl, .inl ⟨rfl, rfl⟩, fun _ => rfl⟩
  | udp header => exact ⟨_, _, _, rfl, .inl ⟨rfl, rfl⟩, fun _ => rfl⟩
  | icmp header =>
      exact ⟨_, _, _, rfl, .inr ⟨rfl, rfl⟩,
        fun key => congrArg some (set_icmp_ports_eq _ _ _ _ _ key)⟩
  | icmpv6 header =>
      exact ⟨_, _, _, rfl, .inr ⟨rfl, rfl⟩,
        fun key => congrArg some (set_icmp_ports_eq _ _ _ _ _ key)⟩

theorem filtered_iff (holds : Holds given filter)
    (nonZero : ∀ ip ∈ given.addresses, ip.NonZero) :
    Decoder.filtered filter pkt = true ↔ ¬ Empty given ∧
      ∀ key, FlowTable.keyFromPacket pkt {} = .ok key → ¬ KeyMatches given key := by
  rw [← non_zero_iff holds nonZero, Bool.not_eq_false, Decoder.filtered, Bool.and_eq_true]
  cases found : FlowTable.keyFromPacket pkt {} with
  | error err => simp
  | ok key =>
      simp only [Bool.not_eq_true', Except.ok.injEq, forall_eq', ← matches_key_iff holds nonZero,
        Bool.not_eq_true]

/-- The two addresses of a key are those of the packet's own header. -/
theorem key_address_iff {ip : FilterIp} {isIpv4 : Bool} {bytes : List UInt8}
    (sized : bytes.length = if isIpv4 then 4 else 16) :
    (ip.isIpv4 = isIpv4 ∧ Address.copy bytes = Address.copy ip.bytes) ↔
      ip.isIpv4 = isIpv4 ∧ ip.bytes = bytes := by
  constructor
  · rintro ⟨version, same⟩
    have length : bytes.length = ip.bytes.length := by rw [sized, ip.sized, version]
    have fits : bytes.length ≤ 16 := by
      rw [sized]
      split_ifs <;> decide
    exact ⟨version, (Address.copy_inj length fits same).symm⟩
  · rintro ⟨version, same⟩
    exact ⟨version, by rw [same]⟩

theorem host_iff {isIpv4 : Bool} {source destination : List UInt8} {number : UInt8}
    (ends : Conversation.addresses pkt.network = some (isIpv4, source, destination))
    (protocol : protocolOf pkt.transport = some number) (first second : UInt16) :
    KeyMatches given ⟨isIpv4, Address.copy source, Address.copy destination, first, second,
      number⟩ ↔ MatchesHost given pkt ∧ (∀ port ∈ given.srcPort, first = port) ∧
        ∀ port ∈ given.dstPort, second = port := by
  obtain ⟨sourceSized, destinationSized⟩ := Conversation.addresses_sized ends
  constructor
  · rintro ⟨srcIp, dstIp, srcPort, dstPort, proto⟩
    refine ⟨⟨?_, ?_, ?_⟩, srcPort, dstPort⟩
    · intro ip member
      obtain ⟨version, bytes⟩ := (key_address_iff sourceSized).mp (srcIp ip member)
      exact ⟨destination, by rw [ends, version, bytes]⟩
    · intro ip member
      obtain ⟨version, bytes⟩ := (key_address_iff destinationSized).mp (dstIp ip member)
      exact ⟨source, by rw [ends, version, bytes]⟩
    · intro asked member
      exact protocol.trans (congrArg some (proto asked member))
  · rintro ⟨⟨srcIp, dstIp, proto⟩, srcPort, dstPort⟩
    refine ⟨?_, ?_, srcPort, dstPort, ?_⟩
    · intro ip member
      obtain ⟨other, found⟩ := srcIp ip member
      rw [ends, Option.some.injEq, Prod.mk.injEq, Prod.mk.injEq] at found
      exact (key_address_iff sourceSized).mpr ⟨found.1.symm, found.2.1.symm⟩
    · intro ip member
      obtain ⟨other, found⟩ := dstIp ip member
      rw [ends, Option.some.injEq, Prod.mk.injEq, Prod.mk.injEq] at found
      exact (key_address_iff destinationSized).mpr ⟨found.1.symm, found.2.2.symm⟩
    · intro asked member
      have found := proto asked member
      rw [protocol, Option.some.injEq] at found
      exact found

/-- A packet with addresses and a transport header. -/
theorem packet_filtered_iff (holds : Holds given filter)
    (nonZero : ∀ ip ∈ given.addresses, ip.NonZero) {first second : UInt16}
    {ends : Bool × List UInt8 × List UInt8} {number : UInt8}
    (addressed : Conversation.addresses pkt.network = some ends)
    (protocol : protocolOf pkt.transport = some number)
    (ports : ∀ key, FlowTable.setPorts pkt.transport key =
      some { key with srcPort := first, dstPort := second, protocol := number }) :
    Decoder.filtered filter pkt = true ↔ ¬ (MatchesHost given pkt ∧
      (∀ port ∈ given.srcPort, first = port) ∧ ∀ port ∈ given.dstPort, second = port) := by
  obtain ⟨isIpv4, source, destination⟩ := ends
  have key : FlowTable.keyFromPacket pkt {} = .ok ⟨isIpv4, Address.copy source,
      Address.copy destination, first, second, number⟩ := by
    simp only [FlowTable.keyFromPacket, Conversation.set_network_addresses addressed, ports]
  rw [filtered_iff holds nonZero, key, ← host_iff addressed protocol first second]
  constructor
  · rintro ⟨-, refused⟩
    exact refused _ rfl
  · intro refused
    refine ⟨?_, ?_⟩
    · rintro ⟨srcIp, dstIp, srcPort, dstPort, proto⟩
      exact refused ⟨by simp [srcIp], by simp [dstIp], by simp [srcPort], by simp [dstPort],
        by simp [proto]⟩
    · rintro other same
      cases same
      exact refused

/-- A wish that no value meets is kept only by wishing for nothing. -/
theorem never_met_iff {Value : Type} {wanted : Option Value} {met : Value → Prop}
    (never : ∀ value, ¬ met value) : (∀ value ∈ wanted, met value) ↔ wanted = none := by
  rw [Option.eq_none_iff_forall_not_mem]
  constructor
  · intro all value member
    exact never value (all value member)
  · intro unasked value member
    exact absurd member (unasked value)

/-- Without addresses and a transport header only a filter without options is passed. -/
theorem arp_filtered_iff (holds : Holds given filter)
    (nonZero : ∀ ip ∈ given.addresses, ip.NonZero)
    (addressed : Conversation.addresses pkt.network = none)
    (announced : pkt.transport = .monostate) :
    Decoder.filtered filter pkt = true ↔ ¬ Matches given pkt := by
  have unkeyed : ∀ key, FlowTable.keyFromPacket pkt {} ≠ .ok key := by
    intro key found
    unfold FlowTable.keyFromPacket at found
    cases network : FlowTable.setNetwork pkt.network {} with
    | none =>
        rw [network] at found
        cases found
    | some out =>
        rw [network, announced] at found
        cases found
  rw [filtered_iff holds nonZero, and_iff_left fun key found => absurd found (unkeyed key)]
  have ends : ∀ found, Conversation.addresses pkt.network ≠ some found := by
    rw [addressed]
    exact fun found => (Option.some_ne_none found).symm
  have ports : ∀ found, portsOf pkt.transport ≠ some found := by
    rw [announced]
    exact fun found => (Option.some_ne_none found).symm
  have srcIp := fun ip : FilterIp => not_exists.mpr fun other => ends (ip.isIpv4, ip.bytes, other)
  have dstIp := fun ip : FilterIp => not_exists.mpr fun other => ends (ip.isIpv4, other, ip.bytes)
  have srcPort := fun port => not_exists.mpr fun other => ports (port, other)
  have dstPort := fun port => not_exists.mpr fun other => ports (other, port)
  have proto : ∀ number, protocolOf pkt.transport ≠ some number := by
    rw [announced]
    exact fun number => (Option.some_ne_none number).symm
  apply not_congr
  constructor
  · intro empty
    exact ⟨⟨(never_met_iff srcIp).mpr empty.srcIp, (never_met_iff dstIp).mpr empty.dstIp,
      (never_met_iff proto).mpr empty.proto⟩, (never_met_iff srcPort).mpr empty.srcPort,
      (never_met_iff dstPort).mpr empty.dstPort⟩
  · intro met
    exact ⟨(never_met_iff srcIp).mp met.srcIp, (never_met_iff dstIp).mp met.dstIp,
      (never_met_iff srcPort).mp met.srcPort, (never_met_iff dstPort).mp met.dstPort,
      (never_met_iff proto).mp met.proto⟩

theorem matches_of_ports {first second : UInt16}
    (own : portsOf pkt.transport = some (first, second)) :
    Matches given pkt ↔ MatchesHost given pkt ∧ (∀ port ∈ given.srcPort, first = port) ∧
      ∀ port ∈ given.dstPort, second = port := by
  constructor
  · rintro ⟨host, srcPort, dstPort⟩
    refine ⟨host, ?_, ?_⟩
    · intro port member
      obtain ⟨other, found⟩ := srcPort port member
      rw [own, Option.some.injEq, Prod.mk.injEq] at found
      exact found.1
    · intro port member
      obtain ⟨other, found⟩ := dstPort port member
      rw [own, Option.some.injEq, Prod.mk.injEq] at found
      exact found.2
  · rintro ⟨host, srcPort, dstPort⟩
    exact ⟨host, fun port member => ⟨second, by rw [own, srcPort port member]⟩,
      fun port member => ⟨first, by rw [own, dstPort port member]⟩⟩

/-- A packet without ports matches no port option. -/
theorem matches_without_ports (none : portsOf pkt.transport = none) :
    Matches given pkt ↔ MatchesHost given pkt ∧
      ¬ (given.srcPort ≠ Option.none ∨ given.dstPort ≠ Option.none) := by
  have ports : ∀ found, portsOf pkt.transport ≠ some found := by
    rw [none]
    exact fun found => (Option.some_ne_none found).symm
  have srcPort := fun port => not_exists.mpr fun other => ports (port, other)
  have dstPort := fun port => not_exists.mpr fun other => ports (other, port)
  rw [not_or, not_not, not_not]
  constructor
  · intro met
    exact ⟨met.toMatchesHost, (never_met_iff srcPort).mp met.srcPort,
      (never_met_iff dstPort).mp met.dstPort⟩
  · rintro ⟨host, noSrcPort, noDstPort⟩
    exact ⟨host, (never_met_iff srcPort).mpr noSrcPort, (never_met_iff dstPort).mpr noDstPort⟩

theorem filtered_exact_iff (holds : Holds given filter)
    (nonZero : ∀ ip ∈ given.addresses, ip.NonZero)
    (headers : (Conversation.addresses pkt.network = none ∧ pkt.transport = .monostate) ∨
      (∃ ends, Conversation.addresses pkt.network = some ends) ∧ pkt.transport ≠ .monostate) :
    (Decoder.filtered filter pkt = true ↔ ¬ Matches given pkt) ↔
      ¬ TakenForPorts given pkt := by
  rcases headers with ⟨addressed, unannounced⟩ | ⟨⟨ends, addressed⟩, announced⟩
  · refine iff_of_true (arp_filtered_iff holds nonZero addressed unannounced) ?_
    rintro ⟨-, -, first, second, filed, -⟩
    rw [unannounced] at filed
    cases filed
  obtain ⟨number, first, second, protocol, kind, ports⟩ := set_ports_filed announced
  rw [packet_filtered_iff holds nonZero addressed protocol ports]
  rcases kind with ⟨own, unfiled⟩ | ⟨unowned, filed⟩
  · rw [matches_of_ports own]
    refine iff_of_true Iff.rfl ?_
    rintro ⟨-, -, other, another, filed, -⟩
    rw [unfiled] at filed
    cases filed
  · have taken : TakenForPorts given pkt ↔
        (given.srcPort ≠ none ∨ given.dstPort ≠ none) ∧ MatchesHost given pkt ∧
          (∀ port ∈ given.srcPort, first = port) ∧ ∀ port ∈ given.dstPort, second = port := by
      constructor
      · rintro ⟨host, asked, other, another, found, agree⟩
        rw [filed, Option.some.injEq, Prod.mk.injEq] at found
        obtain ⟨rfl, rfl⟩ := found
        exact ⟨asked, host, agree⟩
      · rintro ⟨asked, host, agree⟩
        exact ⟨host, asked, first, second, filed, agree⟩
    rw [matches_without_ports unowned, taken]
    by_cases asked : given.srcPort ≠ none ∨ given.dstPort ≠ none
    · simp only [asked, not_true_eq_false, and_false, not_false_eq_true, iff_true, true_and]
    · refine iff_of_true ?_ fun both => asked both.1
      simp only [not_or, not_not] at asked
      simp [asked.1, asked.2]

end Filter

section Decode

variable {decoder : Decoder} {span : List UInt8} {capture : Capture}

theorem key_from_packet_error {pkt : Packet} {err : ParseError}
    (failed : FlowTable.keyFromPacket pkt {} = .error err) : err ≠ .filtered := by
  unfold FlowTable.keyFromPacket at failed
  cases network : FlowTable.setNetwork pkt.network {} with
  | none =>
      rw [network] at failed
      cases failed
      exact ParseError.noConfusion
  | some out =>
      simp only [network] at failed
      cases transport : FlowTable.setPorts pkt.transport out with
      | none =>
          rw [transport] at failed
          cases failed
          exact ParseError.noConfusion
      | some key =>
          rw [transport] at failed
          cases failed

theorem add_packet_error_kind (table : FlowTable) (capture : Capture) :
    (table.addPacket capture).1.err ≠ .filtered := by
  unfold FlowTable.addPacket
  by_cases arp : capture.pkt.isArp = true
  · rw [if_pos arp]
    exact ParseError.noConfusion
  rw [if_neg arp]
  cases found : FlowTable.keyFromPacket capture.pkt {} with
  | error err => exact key_from_packet_error found
  | ok key => exact ParseError.noConfusion

/-- Only the filter makes the decoder say so. -/
theorem decode_capture_filtered_iff : (decoder.decodeCapture capture).1 = .filtered ↔
    Decoder.filtered decoder.config.filter capture.pkt = true := by
  have other := add_packet_error_kind decoder.flowTable capture
  unfold Decoder.decodeCapture
  by_cases refused : Decoder.filtered decoder.config.filter capture.pkt = true
  · rw [if_pos refused]
    exact iff_of_true rfl refused
  · rw [if_neg refused]
    refine iff_of_false ?_ refused
    by_cases failed : (decoder.flowTable.addPacket capture).1.err ≠ .none
    · simp only [if_pos failed]
      exact other
    · simp only [if_neg failed]
      exact ParseError.noConfusion

theorem decode_filtered_iff
    (accepted : (decodePacket span capture.pkt.reset decoder.config.verifyChecksum).err = .none) :
    (decoder.decode span capture).1 = .filtered ↔ Decoder.filtered decoder.config.filter
      (decodePacket span capture.pkt.reset decoder.config.verifyChecksum).header = true := by
  have step := @decode_capture_filtered_iff decoder { capture with
    pkt := (decodePacket span capture.pkt.reset decoder.config.verifyChecksum).header }
  rw [← step]
  simp only [Decoder.decode, accepted, ne_eq, not_true_eq_false, if_false]

end Decode

/-- The filter of a command line keeps exactly the packets that match, unless ICMP messages
are taken for packets with ports. -/
theorem filter_exact_iff {args : List Arg} {options : Options}
    (parsed : parseArgs args = .ok options)
    (nonZero : ∀ ip ∈ (Given.of args).addresses, ip.NonZero) (decoder : Decoder)
    (span : List UInt8) (capture : Capture)
    (accepted : (decodePacket span capture.pkt.reset options.config.verifyChecksum).err = .none) :
    let pkt := (decodePacket span capture.pkt.reset options.config.verifyChecksum).header
    ((({ decoder with config := options.config } : Decoder).decode span capture).1 = .filtered ↔
      ¬ Matches (Given.of args) pkt) ↔ ¬ TakenForPorts (Given.of args) pkt := by
  have decoded := @decode_filtered_iff { decoder with config := options.config } span capture
    accepted
  simp only
  rw [decoded]
  exact filtered_exact_iff (parse_args_holds parsed) nonZero (accepted_headers accepted)

/-- A port that could not be reached, from 10.0.0.1 to 10.0.0.2. -/
def unreachable : List UInt8 :=
  List.replicate 12 0 ++ wire16 Ethernet.ethertypeIpv4 ++
    [0x45, 0, 0, 28, 0, 0, 0, 0, 64, 1, 0, 0, 10, 0, 0, 1, 10, 0, 0, 2] ++
    [3, 3, 0, 0, 0, 0, 0, 0]

def fromHost : List Arg :=
  ["-C", "--src-ip", "10.0.0.1", "--proto", "icmp", "x.pcap"].map fun arg => text arg.toList

def fromPort : List Arg :=
  ["-C", "--src-port", "771", "x.pcap"].map fun arg => text arg.toList

def ethernet : Capture := { pkt := { datalink := .ethernet {} } }

theorem filter_exact_iff_host :
    ∃ options, parseArgs fromHost = .ok options ∧
      ((((({ config := options.config } : Decoder).decode unreachable ethernet).1 = .filtered ↔
        ¬ Matches (Given.of fromHost)
          (decodePacket unreachable ethernet.pkt.reset options.config.verifyChecksum).header)) ↔
        ¬ TakenForPorts (Given.of fromHost)
          (decodePacket unreachable ethernet.pkt.reset options.config.verifyChecksum).header) := by
  have nonZero : ∀ ip ∈ (Given.of fromHost).addresses, ip.NonZero := by
    intro ip member
    rw [List.mem_singleton.mp member]
    exact ⟨10, by decide, by decide⟩
  exact ⟨_, rfl, filter_exact_iff rfl nonZero {} unreachable ethernet rfl⟩

/-- The message is kept although it has no ports: its type and its code make 771. -/
theorem message_taken_for_port :
    ¬ ∀ (args : List Arg) (options : Options), parseArgs args = .ok options →
      (∀ ip ∈ (Given.of args).addresses, ip.NonZero) →
      ∀ (decoder : Decoder) (span : List UInt8) (capture : Capture),
        (decodePacket span capture.pkt.reset options.config.verifyChecksum).err = .none →
        ((({ decoder with config := options.config } : Decoder).decode span capture).1 =
            .filtered ↔
          ¬ Matches (Given.of args)
            (decodePacket span capture.pkt.reset options.config.verifyChecksum).header) := by
  intro exact
  have parsed : ∃ options, parseArgs fromPort = .ok options ∧
      options.config.verifyChecksum = false ∧ options.config.filter = { srcPort := 771 } :=
    ⟨_, rfl, rfl, rfl⟩
  obtain ⟨options, parsed, unverified, filter⟩ := parsed
  have accepted : (decodePacket unreachable ethernet.pkt.reset
      options.config.verifyChecksum).err = .none := by
    rw [unverified]
    rfl
  have kept := exact fromPort options parsed (fun ip member => by cases member) {} unreachable
    ethernet accepted
  rw [@decode_filtered_iff { config := options.config } unreachable ethernet accepted] at kept
  simp only [unverified, filter] at kept
  have passes : Decoder.filtered { srcPort := 771 }
      (decodePacket unreachable ethernet.pkt.reset false).header = false := by rfl
  have unmatched : ¬ Matches (Given.of fromPort)
      (decodePacket unreachable ethernet.pkt.reset false).header := by
    rintro ⟨-, srcPort, -⟩
    obtain ⟨other, found⟩ := srcPort 771 rfl
    cases found
  rw [passes] at kept
  exact Bool.false_ne_true (kept.mpr unmatched)

end PcapAnalyzer.Cli
