import Mathlib.Data.List.Induction
import PcapAnalyzer.Decode.Layers
import PcapAnalyzer.Protocols.ExtensionHeaders

/-!
# Chains of extension headers

An IPv6 packet with extension headers in front of its upper layer. The walk takes exactly the
headers of the chain, so that the checksum of the upper layer is computed over the right
octets, with the right length and for the right destination.
-/

namespace PcapAnalyzer.Ip.V6.Ext

open Extension (encode finalDst)

set_option autoImplicit false

/-- The number a chain is announced with. -/
def firstType : List Extension → UInt8 → UInt8
  | [], protocol => protocol
  | ext :: _, _ => ext.type

def chainBytes : List Extension → UInt8 → List UInt8
  | [], _ => []
  | ext :: rest, protocol => ext.encode (firstType rest protocol) ++ chainBytes rest protocol

/-- The chain as the decoder lists it. -/
def chainHeaders : List Extension → UInt8 → List Header
  | [], _ => []
  | ext :: rest, protocol => ext.header (firstType rest protocol) :: chainHeaders rest protocol

/-- The destination the last routing header names that names one. -/
def lastFinalDst (exts : List Extension) : Option (List UInt8) := (exts.filterMap finalDst).getLast?

/-- A packet with a chain of extension headers, and padding behind it. -/
structure ChainedPacket where
  fixed : Frame.V6
  exts : List Extension
  protocol : UInt8
  plain : isExtension protocol = false
  upper : List UInt8
  fits : (chainBytes exts protocol).length + upper.length ≤ 65535
  padding : List UInt8

/-- The walk allows for a few headers, and for hop-by-hop options in front only. -/
structure WellPlaced (exts : List Extension) : Prop where
  few : exts.length ≤ maxHeaders
  hopFirst : ∀ ext ∈ exts.tail, ext.type ≠ protocolHopopt

namespace ChainedPacket

variable (packet : ChainedPacket)

def header : V6.Header where
  versionTcFl := UInt32.ofNat (6 * 2 ^ 28 + packet.fixed.trafficClassFlowLabel)
  payloadLength :=
    UInt16.ofNat ((chainBytes packet.exts packet.protocol).length + packet.upper.length)
  nextHeader := firstType packet.exts packet.protocol
  hopLimit := packet.fixed.hopLimit
  srcIp := packet.fixed.srcIp.val
  dstIp := packet.fixed.dstIp.val

def encode : List UInt8 :=
  wire32 packet.header.versionTcFl ++ (wire16 packet.header.payloadLength ++
    ([packet.header.nextHeader, packet.header.hopLimit] ++ (packet.header.srcIp ++
      (packet.header.dstIp ++ (chainBytes packet.exts packet.protocol ++
        (packet.upper ++ packet.padding))))))

def headers : List Header := chainHeaders packet.exts packet.protocol

end ChainedPacket

section Walk

variable {exts : List Extension} {protocol : UInt8}

theorem header_next (ext : Extension) (nextHeader : UInt8) :
    (ext.header nextHeader).nextHeader = nextHeader := by
  cases ext <;> rfl

theorem header_whole (ext : Extension) (nextHeader : UInt8) :
    (ext.header nextHeader).isFragment = false := by
  cases ext with
  | options type kind words few data sized =>
      simp [Header.isFragment, Extension.header]
  | unaddressed => rfl
  | addressed => rfl
  | fragment => rfl
  | ah => rfl

/-- One header of the chain. -/
theorem ext_loop_step {fuel : Nat} {out : Packet} (ext : Extension) (nextHeader : UInt8)
    (rest : List UInt8) (room : out.ipv6Ext.length < maxHeaders)
    (placed : ¬ (ext.type = protocolHopopt ∧ out.ipv6Ext ≠ [])) :
    extLoop (fuel + 1) (ext.encode nextHeader ++ rest) out ext.type =
      extLoop fuel rest { out with ipv6Ext := out.ipv6Ext ++ [ext.header nextHeader] }
        nextHeader := by
  rw [extLoop, if_pos ext.extension_type, if_neg (Nat.not_le.mpr room), if_neg placed,
    ext.parse_encode]
  simp only [header_whole, header_next, Bool.false_eq_true, if_false]

/-- The walk takes the whole chain. -/
theorem ext_loop_chain {fuel : Nat} {out : Packet} (rest : List UInt8)
    (plain : isExtension protocol = false) (enough : exts.length < fuel)
    (room : out.ipv6Ext.length + exts.length ≤ maxHeaders)
    (placed : out.ipv6Ext ≠ [] → ∀ ext ∈ exts, ext.type ≠ protocolHopopt)
    (hopFirst : ∀ ext ∈ exts.tail, ext.type ≠ protocolHopopt) :
    extLoop fuel (chainBytes exts protocol ++ rest) out (firstType exts protocol) =
      (.none, rest, { out with ipv6Ext := out.ipv6Ext ++ chainHeaders exts protocol },
        protocol, false) := by
  induction exts generalizing fuel out with
  | nil =>
      obtain ⟨fuel, rfl⟩ := Nat.exists_eq_succ_of_ne_zero (Nat.ne_of_gt enough)
      simp [extLoop, firstType, plain, chainBytes, chainHeaders]
  | cons ext exts ih =>
      obtain ⟨fuel, rfl⟩ := Nat.exists_eq_succ_of_ne_zero (Nat.ne_of_gt (Nat.zero_lt_of_lt enough))
      simp only [List.length_cons] at enough room
      have here : ¬ (ext.type = protocolHopopt ∧ out.ipv6Ext ≠ []) :=
        fun late => placed late.2 ext List.mem_cons_self late.1
      rw [firstType, chainBytes, List.append_assoc, ext_loop_step ext _ _ (by omega) here,
        ih (by omega) (by simp only [List.length_append, List.length_singleton]; omega)
          (fun _ => hopFirst) (fun other member => hopFirst other (List.mem_of_mem_tail member))]
      simp only [chainHeaders, List.append_assoc, List.singleton_append]

/-- Of a chain that is too long or misplaced the walk refuses one of the headers. -/
theorem ext_loop_refused {fuel : Nat} {out : Packet} (rest : List UInt8)
    (room : out.ipv6Ext.length ≤ maxHeaders)
    (refused : maxHeaders < out.ipv6Ext.length + exts.length ∨
      (out.ipv6Ext ≠ [] ∧ ∃ ext ∈ exts, ext.type = protocolHopopt) ∨
      ∃ ext ∈ exts.tail, ext.type = protocolHopopt) :
    (extLoop fuel (chainBytes exts protocol ++ rest) out (firstType exts protocol)).1 ≠
      .none := by
  induction exts generalizing fuel out with
  | nil =>
      simp only [List.length_nil, List.not_mem_nil, false_and, exists_false, List.tail_nil,
        and_false, or_false] at refused
      omega
  | cons ext exts ih =>
      cases fuel with
      | zero => simp [extLoop]
      | succ fuel =>
          rw [firstType, chainBytes, List.append_assoc]
          by_cases full : out.ipv6Ext.length ≥ maxHeaders
          · rw [extLoop, if_pos ext.extension_type, if_pos full]
            simp
          by_cases late : ext.type = protocolHopopt ∧ out.ipv6Ext ≠ []
          · rw [extLoop, if_pos ext.extension_type, if_neg full, if_pos late]
            simp
          rw [ext_loop_step ext _ _ (by omega) late]
          apply ih
          · rw [List.length_append, List.length_singleton]
            omega
          · have started : out.ipv6Ext ++ [ext.header (firstType exts protocol)] ≠ [] := by simp
            rcases refused with long | ⟨before, other, member, hop⟩ | ⟨other, member, hop⟩
            · left
              simp only [List.length_append, List.length_cons, List.length_nil] at long ⊢
              omega
            · rcases List.mem_cons.mp member with here | later
              · exact absurd ⟨here ▸ hop, before⟩ late
              · exact .inr (.inl ⟨started, other, later, hop⟩)
            · exact .inr (.inl ⟨started, other, member, hop⟩)

end Walk

section Fixed

variable (packet : ChainedPacket)

theorem header_version : packet.header.version = V6.supportedVersion := by
  have small := packet.fixed.small
  have shift : (28 : UInt32).toNat % 32 = 28 := rfl
  apply UInt32.toNat_inj.mp
  rw [V6.Header.version, UInt32.toNat_shiftRight, shift, Nat.shiftRight_eq_div_pow,
    ChainedPacket.header, UInt32.toNat_ofNat', show V6.supportedVersion.toNat = 6 from rfl]
  omega

theorem header_payload_length : packet.header.payloadLength.toNat =
    (chainBytes packet.exts packet.protocol).length + packet.upper.length := by
  have fits := packet.fits
  rw [ChainedPacket.header, UInt16.toNat_ofNat']
  omega

/-- The fixed header as it is read from the wire. -/
theorem header_of_encode : V6.headerOf packet.encode = packet.header := by
  have src := packet.fixed.srcIp.property
  have second (rest : List UInt8) :
      slice (packet.fixed.srcIp.val ++ (packet.fixed.dstIp.val ++ rest)) 16 16 =
        packet.fixed.dstIp.val := by
    rw [slice_append_right _ _ _ _ src.le, src]
    exact slice_append_left _ _ _ packet.fixed.dstIp.property
  have first (rest : List UInt8) : slice (packet.fixed.srcIp.val ++ rest) 0 16 =
      packet.fixed.srcIp.val := slice_append_left _ _ _ src
  simp only [V6.headerOf, V6.Header.toHost, V6.Header.ofWire, ChainedPacket.encode,
    load16_skip32, byte_at_skip16, byte_at_skip32, slice_skip16,
    slice_skip32, slice_skip8, byte_at_cons_succ, byte_at_cons_zero, to_host16_wire,
    to_host32_wire, List.cons_append, List.nil_append]
  simp only [ChainedPacket.header, first, second]

/-- The fixed header and what stands behind it. -/
theorem encode_split : ∃ front, packet.encode = front ++
    (chainBytes packet.exts packet.protocol ++ (packet.upper ++ packet.padding)) ∧
      front.length = V6.headerLen := by
  refine ⟨wire32 packet.header.versionTcFl ++ (wire16 packet.header.payloadLength ++
    ([packet.header.nextHeader, packet.header.hopLimit] ++
      (packet.header.srcIp ++ packet.header.dstIp))), ?_, ?_⟩
  · simp only [ChainedPacket.encode, List.append_assoc]
  · simp only [List.length_append, wire32_length, wire16_length, List.length_cons,
      List.length_nil, ChainedPacket.header, packet.fixed.srcIp.property,
      packet.fixed.dstIp.property, V6.headerLen]

theorem encode_behind : packet.encode.drop V6.headerLen =
    chainBytes packet.exts packet.protocol ++ (packet.upper ++ packet.padding) := by
  obtain ⟨front, split, length⟩ := encode_split packet
  rw [split]
  exact List.drop_left' length

theorem encode_accepts : V6.Accepts packet.encode := by
  obtain ⟨front, split, length⟩ := encode_split packet
  refine ⟨?_, ?_, ?_⟩
  · rw [split, List.length_append]
    omega
  · rw [header_of_encode]
    exact header_version packet
  · rw [header_of_encode, header_payload_length, encode_behind]
    simp only [List.length_append]
    omega

theorem payload_of_encode : V6.payloadOf packet.encode =
    chainBytes packet.exts packet.protocol ++ packet.upper := by
  rw [V6.payloadOf, header_of_encode, header_payload_length, encode_behind, ← List.append_assoc]
  apply List.take_left'
  rw [List.length_append]

end Fixed

section PseudoHeader

/-- The destination a header names. -/
def Header.names (header : Header) : Option (List UInt8) :=
  if header.hasFinalDst then some header.finalDst else none

/-- What the fold over the headers leaves alone, and whose destination it takes. -/
theorem pseudo_header_fold (fixed : V6.Header) (exts : List Header) :
    exts.foldl (fun out ext =>
      if ext.hasFinalDst then { out with dstIp := ext.finalDst } else out) fixed =
      { fixed with dstIp := (exts.filterMap Header.names).getLast?.getD fixed.dstIp } := by
  induction exts using List.reverseRec with
  | nil => rfl
  | append_singleton exts last ih =>
      rw [List.foldl_append, ih, List.filterMap_append]
      cases named : last.hasFinalDst with
      | true => simp [Header.names, named]
      | false => simp [Header.names, named]

theorem pseudo_header_fields (fixed : V6.Header) (exts : List Header) (upperLen : Nat) :
    pseudoHeader fixed exts upperLen = { fixed with
      payloadLength := UInt16.ofNat upperLen
      nextHeader := (exts.getLast?.map Header.nextHeader).getD fixed.nextHeader
      dstIp := (exts.filterMap Header.names).getLast?.getD fixed.dstIp } := by
  unfold pseudoHeader
  cases last : exts.getLast? with
  | none => simp only [pseudo_header_fold, Option.map_none, Option.getD_none]
  | some header => simp only [pseudo_header_fold, Option.map_some, Option.getD_some]

theorem header_names (ext : Extension) (nextHeader : UInt8) :
    (ext.header nextHeader).names = ext.finalDst := by
  cases ext with
  | options => rfl
  | unaddressed => rfl
  | fragment => rfl
  | ah => rfl
  | addressed routingType segmentsLeft known left reserved addresses nonempty few =>
      have found : ∃ address, finalDst (.addressed routingType segmentsLeft known left reserved
          addresses nonempty few) = some address := by
        obtain ⟨first, others, rfl⟩ := List.exists_cons_of_ne_nil nonempty
        simp only [finalDst]
        split_ifs
        · exact ⟨_, rfl⟩
        · rw [List.getLast?_eq_some_getLast nonempty]
          exact ⟨_, rfl⟩
      obtain ⟨address, named⟩ := found
      simp only [Header.names, Extension.header, if_true, named, Option.getD_some]

theorem chain_names (exts : List Extension) (protocol : UInt8) :
    (chainHeaders exts protocol).filterMap Header.names = exts.filterMap finalDst := by
  induction exts with
  | nil => rfl
  | cons ext exts ih =>
      rw [chainHeaders, List.filterMap_cons, List.filterMap_cons, header_names, ih]

/-- The last header of a chain carries the number of the upper layer. -/
theorem chain_last (ext : Extension) (exts : List Extension) (protocol : UInt8) :
    (chainHeaders (ext :: exts) protocol).getLast?.map Header.nextHeader = some protocol := by
  induction exts generalizing ext with
  | nil => simp [chainHeaders, firstType, header_next]
  | cons second exts ih =>
      have later := ih second
      rw [chainHeaders] at later ⊢
      rw [chainHeaders, List.getLast?_cons_cons]
      exact later

theorem chain_announces (exts : List Extension) (protocol : UInt8) :
    ((chainHeaders exts protocol).getLast?.map Header.nextHeader).getD
      (firstType exts protocol) = protocol := by
  cases exts with
  | nil => rfl
  | cons ext exts => rw [chain_last, Option.getD_some]

end PseudoHeader

section Datagram

variable (packet : ChainedPacket)

/-- What the checksum of the upper layer is computed over. -/
structure Covers (pseudo : V6.Header) : Prop where
  payloadLength : pseudo.payloadLength.toNat = packet.upper.length
  nextHeader : pseudo.nextHeader = packet.protocol
  srcIp : pseudo.srcIp = packet.header.srcIp
  dstIp : pseudo.dstIp = (lastFinalDst packet.exts).getD packet.header.dstIp

theorem pseudo_header_covers :
    Covers packet (pseudoHeader packet.header packet.headers packet.upper.length) := by
  have fits := packet.fits
  rw [pseudo_header_fields, ChainedPacket.headers, chain_names]
  constructor
  · rw [UInt16.toNat_ofNat']
    omega
  · exact chain_announces packet.exts packet.protocol
  · rfl
  · rfl

/-- A chain that is allowed is walked to its end, and any other one is refused. -/
theorem chain_is_walked (pkt : Packet) (announced : V6.Header) (verify : Bool) :
    (WellPlaced packet.exts →
      (∃ transport, Announces packet.protocol transport ∧
        decodeLayer3 packet.encode { pkt.reset with network := .v6 announced } verify =
          ⟨.none, { pkt.reset with
            network := .v6 packet.header
            ipv6Ext := packet.headers
            transport := transport }, packet.upper⟩) ∧
      Covers packet (pseudoHeader packet.header packet.headers packet.upper.length)) ∧
    (¬ WellPlaced packet.exts →
      (decodeLayer3 packet.encode { pkt.reset with network := .v6 announced } verify).err ≠
        .none) := by
  have accepts := encode_accepts packet
  constructor
  · rintro ⟨few, hopFirst⟩
    obtain ⟨transport, selected, set⟩ := transport_announced
      { pkt.reset with network := .v6 packet.header, ipv6Ext := packet.headers } packet.protocol
    refine ⟨⟨transport, selected, ?_⟩, pseudo_header_covers packet⟩
    have walked := @ext_loop_chain packet.exts packet.protocol (maxHeaders + 1)
      { pkt.reset with network := .v6 packet.header } packet.upper packet.plain
      (Nat.lt_succ_of_le few) (by simpa [Packet.reset] using few)
      (fun started => absurd rfl started) hopFirst
    rw [← payload_of_encode, ← header_of_encode] at walked
    have reads : ReadsDatagram packet.encode { pkt.reset with network := .v6 announced } verify _ :=
      .v6 rfl accepts walked
    rw [reads.eq, header_of_encode, ← set]
    rfl
  · intro misplaced passed
    have refused := @ext_loop_refused packet.exts packet.protocol (maxHeaders + 1)
      { pkt.reset with network := .v6 packet.header } packet.upper (Nat.zero_le _) ?_
    · rw [← payload_of_encode, ← header_of_encode] at refused
      have reads := decode_layer3_reads passed
      generalize decodeLayer3 packet.encode { pkt.reset with network := .v6 announced } verify =
        parsed at reads
      cases reads with
      | v4 network => cases network
      | arp network => cases network
      | v6 network accepts walked => exact refused (congrArg Prod.fst walked)
      | fragment network accepts walked => exact refused (congrArg Prod.fst walked)
    · by_contra allowed
      simp only [not_or, not_lt, not_exists, not_and] at allowed
      exact misplaced ⟨by simpa [Packet.reset] using allowed.1, allowed.2.2⟩

/-- Hop-by-hop options, a routing header with two addresses to go, and an authentication
header in front of a UDP datagram. -/
def routed : ChainedPacket where
  fixed :=
    { trafficClassFlowLabel := 0
      small := by decide
      hopLimit := 64
      srcIp := ⟨List.replicate 16 1, rfl⟩
      dstIp := ⟨List.replicate 16 2, rfl⟩ }
  exts :=
    [.options protocolHopopt List.mem_cons_self 0 (by decide) [1, 4, 0, 0, 0, 0] rfl,
      .addressed routingType0 2 List.mem_cons_self (by decide) ⟨[0, 0, 0, 0], rfl⟩
        [⟨List.replicate 16 3, rfl⟩, ⟨List.replicate 16 4, rfl⟩] (List.cons_ne_nil _ _)
        (by decide),
      .ah ⟨[0, 0], rfl⟩ 7 1 (Nat.le_refl 1) (by decide) [0, 0, 0, 1] rfl]
  protocol := protocolUdp
  plain := rfl
  upper := [0x9C, 0x40, 0x00, 0x35, 0x00, 0x08, 0x00, 0x00]
  fits := by decide
  padding := []

theorem routed_placed : WellPlaced routed.exts := ⟨by decide, by decide⟩

theorem chain_is_walked_routed : WellPlaced routed.exts ∧
    (decodeLayer3 routed.encode { Packet.reset {} with network := .v6 {} } true).span =
      routed.upper ∧
    (decodeLayer3 routed.encode { Packet.reset {} with network := .v6 {} } true).header.transport =
      .udp {} ∧
    (pseudoHeader routed.header routed.headers 8).dstIp = List.replicate 16 4 := by
  obtain ⟨⟨transport, selected, walked⟩, covers⟩ :=
    (chain_is_walked routed {} {} true).1 routed_placed
  have udp : transport = .udp {} := by
    cases selected with
    | udp => rfl
    | unknown other => exact absurd other (by decide)
  exact ⟨routed_placed, congrArg Parsed.span walked,
    (congrArg (fun parsed => parsed.header.transport) walked).trans udp, covers.dstIp⟩

end Datagram

end PcapAnalyzer.Ip.V6.Ext
