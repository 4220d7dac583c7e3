import PcapAnalyzer.Decode.EthernetFrame

/-!
# Decoding control messages and chained packets

Every layer reads back what the encoder of the frame wrote. A TCP or UDP segment behind a
chain is the segment of the frame without the chain, sent to the address the chain leads to.
-/

namespace PcapAnalyzer

open Ip.V6.Ext (Extension chainBytes lastFinalDst WellPlaced)

set_option autoImplicit false

namespace ArpMessage

variable (message : ArpMessage) (padding : List UInt8)

def fixedBytes : List UInt8 :=
  wire16 message.htype ++ (wire16 message.ptype ++ ([message.hlen, message.plen] ++
    wire16 message.oper))

def addresses : List UInt8 :=
  message.sha.val ++ (message.spa.val ++ (message.tha.val ++ message.tpa.val))

theorem encode_split : message.encode ++ padding =
    message.fixedBytes ++ (message.addresses ++ padding) := by
  simp only [encode, fixedBytes, addresses, List.append_assoc]

theorem fixed_length : message.fixedBytes.length = Arp.minHeaderLen := by
  simp [fixedBytes, Arp.minHeaderLen]

theorem addresses_length :
    message.addresses.length = 2 * message.hlen.toNat + 2 * message.plen.toNat := by
  simp only [addresses, List.length_append, message.sha.property, message.spa.property,
    message.tha.property, message.tpa.property]
  omega

/-- The fixed part as it is read from the wire. -/
theorem of_wire (before : Arp.Header) :
    (Arp.Header.ofWire (message.encode ++ padding) before).toHost = { before with
      htype := message.htype
      ptype := message.ptype
      hlen := message.hlen
      plen := message.plen
      oper := message.oper } := by
  simp only [Arp.Header.toHost, Arp.Header.ofWire, encode, List.append_assoc, List.cons_append,
    List.nil_append, load16_skip16, load16_skip8, byte_at_skip16, byte_at_cons_succ,
    byte_at_cons_zero, to_host16_wire]

theorem lengths_read : byteAt (message.encode ++ padding) 4 = message.hlen ∧
    byteAt (message.encode ++ padding) 5 = message.plen := by
  simp only [encode, List.append_assoc, List.cons_append, List.nil_append, byte_at_skip16,
    byte_at_cons_succ, byte_at_cons_zero, and_self]

theorem address_read (offset count : Nat) :
    slice (message.encode ++ padding) (Arp.minHeaderLen + offset) count =
      slice (message.addresses ++ padding) offset count := by
  have length := fixed_length message
  rw [encode_split, slice_behind _ _ _ _ (length.le.trans (Nat.le_add_right _ _)), length,
    Nat.add_sub_cancel_left]

theorem accepts : Arp.Accepts (message.encode ++ padding) := by
  obtain ⟨hlen, plen⟩ := lengths_read message padding
  have fixed := fixed_length message
  have sized := addresses_length message
  have whole : (message.encode ++ padding).length =
      Arp.minHeaderLen + (message.addresses.length + padding.length) := by
    rw [encode_split, List.length_append, fixed, List.length_append]
  refine ⟨?_, ?_, ?_⟩
  · rw [whole]
    exact Nat.le_add_right _ _
  · rw [hlen, plen]
    exact message.sized
  · rw [Arp.headerLen, hlen, plen, whole]
    omega

theorem with_addresses (before : Arp.Header) :
    (Arp.Header.ofWire (message.encode ++ padding) before).toHost.withAddresses
      (message.encode ++ padding) = message.header := by
  have sha := message.sha.property
  have spa := message.spa.property
  have tha := message.tha.property
  have first : slice (message.addresses ++ padding) 0 message.hlen.toNat = message.sha.val := by
    rw [addresses, List.append_assoc]
    exact slice_front _ _ message.sha
  have second : slice (message.addresses ++ padding) message.hlen.toNat message.plen.toNat =
      message.spa.val := by
    rw [addresses, List.append_assoc, slice_behind _ _ _ _ sha.le, sha, Nat.sub_self,
      List.append_assoc]
    exact slice_front _ _ message.spa
  have third : slice (message.addresses ++ padding) (message.hlen.toNat + message.plen.toNat)
      message.hlen.toNat = message.tha.val := by
    rw [addresses, List.append_assoc, slice_behind _ _ _ _ (by omega), sha, List.append_assoc,
      slice_behind _ _ _ _ (by omega), spa, Nat.add_sub_cancel_left, Nat.sub_self,
      List.append_assoc]
    exact slice_front _ _ message.tha
  have fourth : slice (message.addresses ++ padding)
      (2 * message.hlen.toNat + message.plen.toNat) message.plen.toNat = message.tpa.val := by
    rw [addresses, List.append_assoc, slice_behind _ _ _ _ (by omega), sha, List.append_assoc,
      slice_behind _ _ _ _ (by omega), spa, List.append_assoc, slice_behind _ _ _ _ (by omega),
      tha, show 2 * message.hlen.toNat + message.plen.toNat - message.hlen.toNat -
        message.plen.toNat - message.hlen.toNat = 0 by omega]
    exact slice_front _ _ message.tpa
  have start := address_read message padding 0 message.hlen.toNat
  rw [Nat.add_zero] at start
  rw [of_wire]
  simp only [Arp.Header.withAddresses, start, address_read, first, second, third, fourth, header]

theorem consumed :
    (message.encode ++ padding).drop (Arp.headerLen (message.encode ++ padding)) = padding := by
  obtain ⟨hlen, plen⟩ := lengths_read message padding
  have fixed := fixed_length message
  have sized := addresses_length message
  rw [Arp.headerLen, hlen, plen, encode_split, ← List.append_assoc]
  apply List.drop_left'
  rw [List.length_append, fixed, sized, Nat.add_assoc]

end ArpMessage

theorem IcmpMessage.echo_kind (reply : Bool) (id seq : UInt16) :
    ¬ (IcmpMessage.echo reply id seq).type = Icmp.typeRedirect ∧
      Icmp.isEcho (IcmpMessage.echo reply id seq).type = true := by
  cases reply with
  | true => exact ⟨by rw [type]; decide, rfl⟩
  | false => exact ⟨by rw [type]; decide, rfl⟩

theorem IcmpMessage.code_known (message : IcmpMessage) :
    ¬ message.code > Icmp.maxCode message.type := by
  apply UInt8.not_lt.mpr
  cases message with
  | echo reply id seq => exact UInt8.zero_le
  | redirect code known gateway => exact known
  | paramProblem code known pointer unused => exact known
  | other type code plain known word => exact known

theorem Icmpv6Message.echo_kind (reply : Bool) (id seq : UInt16) :
    ¬ (Icmpv6Message.echo reply id seq).type = Icmpv6.typePacketTooBig ∧
      ¬ (Icmpv6Message.echo reply id seq).type = Icmpv6.typeParamProblem ∧
      Icmpv6.isEcho (Icmpv6Message.echo reply id seq).type = true := by
  cases reply with
  | true => exact ⟨by rw [type]; decide, by rw [type]; decide, rfl⟩
  | false => exact ⟨by rw [type]; decide, by rw [type]; decide, rfl⟩

theorem Icmpv6Message.code_known (message : Icmpv6Message) :
    ¬ message.code > Icmpv6.maxCode message.type := by
  apply UInt8.not_lt.mpr
  cases message with
  | echo reply id seq => exact UInt8.zero_le
  | packetTooBig mtu atLeast => exact UInt8.zero_le
  | paramProblem code known pointer => exact known
  | other type code plain known word => exact known

/-- The all-ones sum of a message with its checksum. -/
theorem control_verifies {pseudoHeader front behind : List UInt8} {pseudoHeaderSum : UInt64}
    (same : pseudoHeaderSum.toNat = wordSum pseudoHeader) (pseudoEven : pseudoHeader.length % 2 = 0)
    (pseudoShort : pseudoHeader.length ≤ 40) (frontEven : front.length % 2 = 0)
    (short : front.length + behind.length ≤ 65535) :
    verifyChecksum (front ++ wire16 (Frame.checksumBetween pseudoHeader front behind) ++ behind)
      pseudoHeaderSum = true := by
  have small := word_sum_bound pseudoHeader
  have completes := Frame.checksum_between_same pseudoHeader front behind pseudoEven frontEven
  rw [List.append_assoc]
  rw [verify_checksum_iff _ _ _ (by omega), same]
  · exact completes
  · simp only [List.length_append, wire16_length]
    omega

section ControlFields

variable (type code : UInt8) (checksum : UInt16) (behind : List UInt8)

theorem control_byte (i : Nat) :
    byteAt ([type, code] ++ wire16 checksum ++ behind) (i + 4) = byteAt behind i := by
  simp [byte_at_skip16]

theorem control_load16 (i : Nat) :
    load16 ([type, code] ++ wire16 checksum ++ behind) (i + 4) = load16 behind i := by
  simp only [load16, control_byte, show i + 4 + 1 = i + 1 + 4 by omega]

theorem control_load32 (i : Nat) :
    load32 ([type, code] ++ wire16 checksum ++ behind) (i + 4) = load32 behind i := by
  simp only [load32, control_byte, show i + 4 + 1 = i + 1 + 4 by omega,
    show i + 4 + 2 = i + 2 + 4 by omega, show i + 4 + 3 = i + 3 + 4 by omega]

end ControlFields

namespace IcmpDatagram

variable (datagram : IcmpDatagram)

/-- What stands behind the checksum. -/
def behind : List UInt8 := datagram.message.word ++ datagram.payload

theorem of_wire : Icmp.Header.ofWire datagram.segment =
    { type := datagram.message.type
      code := datagram.message.code
      checksum := bswap16 datagram.checksum
      pointer := byteAt datagram.behind 0
      gateway := load32 datagram.behind 0
      echoId := load16 datagram.behind 0
      echoSeq := load16 datagram.behind 2 } := by
  have checksum : load16 datagram.segment 2 = bswap16 datagram.checksum := by
    simp only [segment, List.cons_append, List.nil_append, load16_skip8, load16_wire]
  rw [Icmp.Header.ofWire, checksum]
  unfold segment behind
  rw [control_byte _ _ _ _ 0, control_load32 _ _ _ _ 0, control_load16 _ _ _ _ 0,
    control_load16 _ _ _ _ 2]
  rfl

/-- The header of the message, with the selected member in host order. -/
theorem header_read :
    (Icmp.Header.ofWire datagram.segment).toHost.type = datagram.message.type ∧
      (Icmp.Header.ofWire datagram.segment).toHost.code = datagram.message.code ∧
      (Icmp.Header.ofWire datagram.segment).toHost.checksum = datagram.checksum ∧
      datagram.message.Shown (Icmp.Header.ofWire datagram.segment).toHost := by
  have unswapped := to_host16_bswap16 datagram.checksum
  rw [of_wire]
  cases sent : datagram.message with
  | echo reply id seq =>
      obtain ⟨notRedirect, echo⟩ := IcmpMessage.echo_kind reply id seq
      simp only [Icmp.Header.toHost, notRedirect, echo, if_true, if_false, unswapped, behind, sent,
        IcmpMessage.Shown, IcmpMessage.word, List.append_assoc, to_host16_wire, true_and]
      rw [load16_skip16 id _ 0, to_host16_wire]
  | redirect code known gateway =>
      have redirect : (IcmpMessage.redirect code known gateway).type = Icmp.typeRedirect := rfl
      simp only [Icmp.Header.toHost, redirect, if_true, unswapped, behind, sent,
        IcmpMessage.Shown, IcmpMessage.word, to_host32_wire, and_self]
  | paramProblem code known pointer unused =>
      have notRedirect : ¬ Icmp.typeParamProblem = Icmp.typeRedirect := by decide
      have notEcho : ¬ Icmp.isEcho Icmp.typeParamProblem = true := by decide
      simp only [Icmp.Header.toHost, IcmpMessage.type, notRedirect, notEcho, if_false,
        Bool.false_eq_true, unswapped, behind, sent, IcmpMessage.Shown, IcmpMessage.word,
        List.cons_append, byte_at_cons_zero, and_self]
  | other type code plain known word =>
      have notRedirect : ¬ type = Icmp.typeRedirect := fun same => plain (Or.inr same)
      have notEcho : ¬ Icmp.isEcho type = true := fun echo => plain (Or.inl echo)
      simp only [Icmp.Header.toHost, IcmpMessage.type, notRedirect, notEcho, if_false,
        Bool.false_eq_true, unswapped, IcmpMessage.Shown, and_self]

theorem accepts : Icmp.Accepts datagram.segment true := by
  have length := datagram.segment_length
  have fits := datagram.fits
  refine ⟨?_, ?_, fun _ => ?_⟩
  · rw [length, segmentLen]
    exact Nat.le_add_right _ _
  · rw [of_wire]
    exact datagram.message.code_known
  · apply @control_verifies [] [_, _] _ 0 rfl rfl (Nat.zero_le _) (Nat.mod_self 2)
    simp only [List.length_append, List.length_cons, List.length_nil, datagram.message.word_length]
    simp only [Icmp.headerLen] at fits
    omega

theorem consumed : datagram.segment.drop Icmp.headerLen = datagram.payload := by
  rw [segment, ← List.append_assoc]
  apply List.drop_left'
  simp only [List.length_append, wire16_length, List.length_cons, List.length_nil,
    datagram.message.word_length, Icmp.headerLen]

theorem front_length : datagram.front.length = 10 := by
  simp [front]

theorem ip_length : datagram.ipBytes.length = 4 * datagram.ip.options.headerWords := by
  have lengths := Frame.header_words_bound datagram.ip.options
  have back := Frame.v4_back_length datagram.ip
  have front := front_length datagram
  simp only [ipBytes, List.length_append, front, back, wire16_length]
  omega

/-- The IPv4 header as it is read from the wire. -/
theorem ip_header_of (rest : List UInt8) :
    Ip.V4.headerOf (datagram.ipBytes ++ rest) = datagram.ipHeader := by
  simp only [Ip.V4.headerOf, Ip.V4.Header.toHost, Ip.V4.Header.ofWire, ipBytes, front,
    Frame.v4Back, List.append_assoc, List.cons_append, List.nil_append, byte_at_skip16,
    load16_skip16, load16_skip8, load32_skip16, load32_skip32, load32_skip8, byte_at_cons_succ,
    byte_at_cons_zero, to_host16_wire, to_host32_wire]
  rfl

theorem ip_header_words :
    datagram.ipHeader.headerLength = 4 * datagram.ip.options.headerWords ∧
      datagram.ipHeader.version = Ip.V4.supportedVersion := by
  have bound := (Frame.header_words_bound datagram.ip.options).1
  have split := Frame.nibbles 4 ⟨datagram.ip.options.headerWords, bound⟩
  constructor
  · exact congrArg (4 * ·) split.2
  · exact UInt8.toNat_inj.mp split.1

theorem ip_total_length : datagram.ipHeader.totalLength.toNat =
    4 * datagram.ip.options.headerWords + datagram.segmentLen := by
  have fits := datagram.fits
  rw [ipHeader, UInt16.toNat_ofNat', segmentLen]
  omega

theorem ip_accepts (padding : List UInt8) :
    Ip.V4.Accepts (datagram.ipBytes ++ (datagram.segment ++ padding)) true := by
  have header := ip_header_of datagram (datagram.segment ++ padding)
  obtain ⟨words, version⟩ := ip_header_words datagram
  have total := ip_total_length datagram
  have length := ip_length datagram
  have lengths := Frame.header_words_bound datagram.ip.options
  have segment := datagram.segment_length
  have whole : (datagram.ipBytes ++ (datagram.segment ++ padding)).length =
      4 * datagram.ip.options.headerWords + (datagram.segmentLen + padding.length) := by
    simp only [List.length_append, length, segment]
  have verified : verifyChecksum datagram.ipBytes 0 = true := by
    have back := Frame.v4_back_length datagram.ip
    have front := front_length datagram
    rw [ipBytes, ← List.append_assoc]
    apply @control_verifies [] _ _ 0 rfl rfl (Nat.zero_le _) (by rw [front])
    omega
  constructor
  · rw [whole, Ip.V4.minHeaderLen]
    omega
  · rw [header, words, Ip.V4.minHeaderLen, Ip.V4.maxHeaderLen]
    omega
  · rw [header, words, whole]
    omega
  · rw [header]
    exact version
  · intro _
    rw [header, words, List.take_left' length]
    exact verified
  · rw [header, words, total]
    omega
  · rw [header, total, whole]
    omega

theorem ip_payload (padding : List UInt8) :
    Ip.V4.payloadOf (datagram.ipBytes ++ (datagram.segment ++ padding)) = datagram.segment := by
  have length := ip_length datagram
  rw [Ip.V4.payloadOf, ip_header_of, (ip_header_words datagram).1, ip_total_length,
    Nat.add_sub_cancel_left, slice_behind _ _ _ _ length.le, length, Nat.sub_self]
  exact slice_append_left _ _ _ datagram.segment_length

end IcmpDatagram

namespace ChainedDatagram

variable (datagram : ChainedDatagram)

/-- The header that the checksum of the upper layer is verified with. -/
def ipUpper : Ip.V6.Header :=
  upperHeader (datagram.packet []).header (datagram.packet []).headers datagram.segment.length

/-- It says what the sender put into the pseudo header. -/
theorem upper_covers : Ip.V6.Ext.Covers (datagram.packet []) datagram.ipUpper := by
  unfold ipUpper upperHeader
  by_cases chained : (datagram.packet []).headers = []
  swap
  · rw [if_pos chained]
    exact Ip.V6.Ext.pseudo_header_covers (datagram.packet [])
  · have none : datagram.exts = [] := by
      cases exts : datagram.exts with
      | nil => rfl
      | cons ext exts' =>
          simp [Ip.V6.Ext.ChainedPacket.headers, packet, exts, Ip.V6.Ext.chainHeaders] at chained
    have length := Ip.V6.Ext.header_payload_length (datagram.packet [])
    rw [if_neg (not_not.mpr chained)]
    simp only [packet, none, Ip.V6.Ext.chainBytes, List.length_nil, Nat.zero_add] at length ⊢
    exact ⟨length, rfl, rfl, rfl⟩

theorem upper_length : datagram.ipUpper.payloadLength.toNat = datagram.segmentLen := by
  rw [(upper_covers datagram).payloadLength]
  exact datagram.segment_length

theorem pseudo_sum : (Ip.V6.computePseudoHeaderSum datagram.ipUpper).toNat =
    wordSum datagram.pseudoHeader := by
  have covers := upper_covers datagram
  have length := upper_length datagram
  have fits := datagram.fits
  have src : datagram.ipUpper.srcIp = datagram.fixed.srcIp.val := covers.srcIp
  have dst : datagram.ipUpper.dstIp = datagram.finalDst.val := covers.dstIp
  have next : datagram.ipUpper.nextHeader = datagram.upper.protocol := covers.nextHeader
  have srcSized := datagram.fixed.srcIp.property
  have dstSized := datagram.finalDst.property
  have even : (datagram.fixed.srcIp.val ++ datagram.finalDst.val).length % 2 = 0 := by
    rw [List.length_append, srcSized, dstSized]
  rw [Frame.v6_sum_to_nat (by rw [src, srcSized]) (by rw [dst, dstSized]), src, dst, length, next,
    pseudoHeader, Frame.Network.pseudoHeader, List.append_assoc]
  simp only [direct]
  rw [word_sum_append _ _ even, Frame.v6_length_part _ (by rw [segmentLen]; omega)]

theorem direct_fits {header : Frame.Transport} (carried : datagram.upper = .transport header) :
    (Frame.Network.v6 datagram.direct).countedLen +
      (header.headerLen + datagram.payload.length) ≤ 65535 := by
  have fits := datagram.fits
  rw [carried] at fits
  simp only [Upper.headerLen, Frame.Network.countedLen] at fits ⊢
  omega

/-- The frame without the chain, sent to where the chain leads. -/
def directFrame {header : Frame.Transport} (carried : datagram.upper = .transport header) :
    Frame where
  dstMac := ⟨List.replicate 6 0, rfl⟩
  srcMac := ⟨List.replicate 6 0, rfl⟩
  tags := []
  tagsFit := Nat.zero_le _
  network := .v6 datagram.direct
  transport := header
  payload := datagram.payload
  fits := datagram.direct_fits carried
  padding := []

section Direct

variable {datagram} {header : Frame.Transport} (carried : datagram.upper = .transport header)

theorem direct_length : (datagram.directFrame carried).segmentLen = datagram.segmentLen := by
  rw [segmentLen, carried]
  rfl

theorem direct_pseudo_header :
    (datagram.directFrame carried).network.pseudoHeader
      (datagram.directFrame carried).transport.protocol
      (datagram.directFrame carried).segmentLen = datagram.pseudoHeader := by
  rw [direct_length, pseudoHeader, carried]
  rfl

theorem direct_checksum : (datagram.directFrame carried).checksum = datagram.checksum := by
  rw [Frame.checksum, checksum, direct_pseudo_header, direct_length, carried]
  rfl

theorem direct_segment : (datagram.directFrame carried).segment = datagram.segment := by
  rw [Frame.segment, segment, direct_checksum, direct_length, carried]
  rfl

end Direct

section Control

variable {datagram} {message : Icmpv6Message}

theorem control_segment (carried : datagram.upper = .icmpv6 message) : datagram.segment =
    [message.type, message.code] ++ wire16 datagram.checksum ++
      (message.word ++ datagram.payload) := by
  rw [segment, carried]
  rfl

theorem control_of_wire (carried : datagram.upper = .icmpv6 message) :
    Icmpv6.Header.ofWire datagram.segment =
    { type := message.type
      code := message.code
      checksum := bswap16 datagram.checksum
      echoId := load16 (message.word ++ datagram.payload) 0
      echoSeq := load16 (message.word ++ datagram.payload) 2
      mtu := load32 (message.word ++ datagram.payload) 0
      pointer := load32 (message.word ++ datagram.payload) 0 } := by
  have checksum : load16 datagram.segment 2 = bswap16 datagram.checksum := by
    rw [control_segment carried]
    simp only [List.cons_append, List.nil_append, load16_skip8, load16_wire]
  rw [Icmpv6.Header.ofWire, checksum, control_segment carried, control_load32 _ _ _ _ 0,
    control_load16 _ _ _ _ 0, control_load16 _ _ _ _ 2]
  rfl

theorem control_read (carried : datagram.upper = .icmpv6 message) :
    (Icmpv6.Header.ofWire datagram.segment).toHost.type = message.type ∧
      (Icmpv6.Header.ofWire datagram.segment).toHost.code = message.code ∧
      (Icmpv6.Header.ofWire datagram.segment).toHost.checksum = datagram.checksum ∧
      message.Shown (Icmpv6.Header.ofWire datagram.segment).toHost := by
  have unswapped := to_host16_bswap16 datagram.checksum
  rw [control_of_wire carried]
  cases message with
  | echo reply id seq =>
      obtain ⟨notTooBig, notProblem, echo⟩ := Icmpv6Message.echo_kind reply id seq
      simp only [Icmpv6.Header.toHost, notTooBig, notProblem, echo, if_true, if_false, unswapped,
        Icmpv6Message.Shown, Icmpv6Message.word, List.append_assoc, to_host16_wire, true_and]
      rw [load16_skip16 id _ 0, to_host16_wire]
  | packetTooBig mtu atLeast =>
      simp only [Icmpv6.Header.toHost, Icmpv6Message.type, if_true, unswapped,
        Icmpv6Message.Shown, Icmpv6Message.word, to_host32_wire, and_self]
  | paramProblem code known pointer =>
      have notTooBig : ¬ Icmpv6.typeParamProblem = Icmpv6.typePacketTooBig := by decide
      simp only [Icmpv6.Header.toHost, Icmpv6Message.type, notTooBig, if_true, if_false, unswapped,
        Icmpv6Message.Shown, Icmpv6Message.word, to_host32_wire, and_self]
  | other type code plain known word =>
      obtain ⟨notEcho, notTooBig, notProblem⟩ := not_or.mp plain |>.imp_right not_or.mp
      simp only [Icmpv6.Header.toHost, Icmpv6Message.type, notTooBig, notProblem, notEcho,
        if_false, Bool.false_eq_true, unswapped, Icmpv6Message.Shown, and_self]

theorem control_accepts (carried : datagram.upper = .icmpv6 message) :
    Icmpv6.Accepts datagram.segment datagram.ipUpper true := by
  have length := datagram.segment_length
  have upperLength := upper_length datagram
  have fits := datagram.fits
  obtain ⟨type, code, -, shown⟩ := control_read carried
  constructor
  · rw [length, segmentLen, carried]
    exact Nat.le_add_right _ _
  · rw [upperLength, length]
  · rw [control_of_wire carried]
    exact message.code_known
  · rw [type]
    intro small
    cases message with
    | packetTooBig mtu atLeast =>
        have read : (Icmpv6.Header.ofWire datagram.segment).toHost.mtu = mtu := shown
        rw [read] at small
        exact absurd small.2 (UInt32.not_lt.mpr atLeast)
    | echo reply id seq => exact (Icmpv6Message.echo_kind reply id seq).1 small.1
    | paramProblem code known pointer =>
        have notTooBig : ¬ Icmpv6.typeParamProblem = Icmpv6.typePacketTooBig := by decide
        exact notTooBig small.1
    | other type code plain known word => exact plain (Or.inr (Or.inl small.1))
  · intro _
    have pseudo := Frame.pseudo_header_length (.v6 datagram.direct) datagram.upper.protocol
      datagram.segmentLen
    rw [upperLength, ← length, List.take_length, control_segment carried, checksum, carried]
    have even : [message.type, message.code].length % 2 = 0 := Nat.mod_self 2
    apply control_verifies (pseudo_sum datagram) pseudo.1 pseudo.2 even
    simp only [List.length_append, List.length_cons, List.length_nil, Upper.back,
      message.word_length]
    rw [carried] at fits
    simp only [Upper.headerLen, Icmpv6.headerLen] at fits
    omega

theorem control_consumed (carried : datagram.upper = .icmpv6 message) :
    datagram.segment.drop Icmpv6.headerLen = datagram.payload := by
  rw [control_segment carried, ← List.append_assoc]
  apply List.drop_left'
  simp only [List.length_append, wire16_length, List.length_cons, List.length_nil,
    message.word_length, Icmpv6.headerLen]

end Control

/-- The pseudo header that the parsers build stands for the one of the direct frame. -/
theorem direct_sum {header : Frame.Transport} (carried : datagram.upper = .transport header) :
    (Ip.V6.computePseudoHeaderSum datagram.ipUpper).toNat =
      wordSum ((datagram.directFrame carried).network.pseudoHeader
        (datagram.directFrame carried).transport.protocol
        (datagram.directFrame carried).segmentLen) := by
  rw [direct_pseudo_header]
  exact pseudo_sum datagram

/-- The upper layer leaves the payload. -/
theorem decode_layer4_chained (out : Packet)
    (network : out.network = .v6 (datagram.packet []).header)
    (chain : out.ipv6Ext = (datagram.packet []).headers) :
    ∃ transport, datagram.Shows transport ∧
      decodeLayer4 datagram.segment (out.setTransportFromProtocol datagram.upper.protocol) true =
        ⟨.none, { out with transport := transport }, datagram.payload⟩ := by
  have verifiedWith : upperHeader (datagram.packet []).header out.ipv6Ext datagram.segment.length =
      datagram.ipUpper := by
    rw [chain, ipUpper]
  have length := upper_length datagram
  unfold upperHeader at verifiedWith
  cases carried : datagram.upper with
  | transport header =>
      have same := direct_sum datagram carried
      cases header with
      | tcp header =>
          have parsed := Frame.tcp_parse_encoded (datagram.directFrame carried) rfl {} same
          rw [direct_segment, direct_length] at parsed
          refine ⟨.tcp ((datagram.directFrame carried).tcpHeader header), ?_, ?_⟩
          · rw [Shows, carried, Frame.tcpHeader, direct_checksum]
          · simp only [decodeLayer4, Packet.setTransportFromProtocol, Upper.protocol,
              Frame.Transport.protocol, network, if_true, verifiedWith, Tcp.parseV6, length, parsed]
            rfl
      | udp header =>
          have notTcp : ¬ Ip.protocolUdp = Ip.protocolTcp := by decide
          have parsed := Frame.udp_parse_encoded (datagram.directFrame carried) rfl {} false same
          rw [direct_segment] at parsed
          refine ⟨.udp ((datagram.directFrame carried).udpHeader header), ?_, ?_⟩
          · rw [Shows, carried, Frame.udpHeader, direct_checksum, direct_length]
          · simp only [decodeLayer4, Packet.setTransportFromProtocol, Upper.protocol,
              Frame.Transport.protocol, network, notTcp, if_true, if_false, verifiedWith,
              Udp.parseV6, parsed]
            rfl
  | icmpv6 message =>
      obtain ⟨type, code, checksum, shown⟩ := control_read carried
      have accepts := control_accepts carried
      refine ⟨.icmpv6 (Icmpv6.Header.ofWire datagram.segment).toHost, ?_, ?_⟩
      · rw [Shows, carried]
        exact ⟨_, rfl, type, code, checksum, shown⟩
      · have reads : ReadsSegment datagram.segment
            (out.setTransportFromProtocol (Upper.icmpv6 message).protocol) true _ :=
          .icmpv6 network rfl (by rw [upperHeader]; exact verifiedWith.symm ▸ accepts)
        rw [reads.eq, control_consumed carried]
        rfl

/-- The network layer lists the chain and narrows the span to the upper layer. -/
theorem decode_layer3_chained (out : Packet) (fresh : out.ipv6Ext = []) (padding : List UInt8) :
    decodeLayer3 (datagram.packet padding).encode
        (out.setNetworkFromEthertype Ethernet.ethertypeIpv6) true =
      ⟨.none, ({ out with
        network := .v6 (datagram.packet []).header
        ipv6Ext := (datagram.packet []).headers } : Packet).setTransportFromProtocol
          datagram.upper.protocol, datagram.segment⟩ := by
  have accepts := Ip.V6.Ext.encode_accepts (datagram.packet padding)
  have few := datagram.placed.few
  have walked := @Ip.V6.Ext.ext_loop_chain datagram.exts datagram.upper.protocol
    (Ip.V6.Ext.maxHeaders + 1) { out with network := .v6 (datagram.packet padding).header }
    datagram.segment datagram.upper.plain (Nat.lt_succ_of_le few) (by simpa [fresh] using few)
    (fun started => absurd fresh started) datagram.placed.hopFirst
  have payload : Ip.V6.payloadOf (datagram.packet padding).encode =
      chainBytes datagram.exts datagram.upper.protocol ++ datagram.segment :=
    Ip.V6.Ext.payload_of_encode (datagram.packet padding)
  rw [← payload, ← Ip.V6.Ext.header_of_encode] at walked
  have reads : ReadsDatagram (datagram.packet padding).encode
      (out.setNetworkFromEthertype Ethernet.ethertypeIpv6) true _ := .v6 rfl accepts walked
  rw [reads.eq, Ip.V6.Ext.header_of_encode]
  simp only [Packet.setNetworkFromEthertype, fresh, List.nil_append]
  rfl

end ChainedDatagram

namespace ArpMessage

theorem decode_layer3_arp (message : ArpMessage) (out : Packet) (padding : List UInt8) :
    decodeLayer3 (message.encode ++ padding)
        (out.setNetworkFromEthertype Ethernet.ethertypeArp) true =
      ⟨.none, { out with network := .arp message.header }, padding⟩ := by
  have reads : ReadsDatagram (message.encode ++ padding)
      (out.setNetworkFromEthertype Ethernet.ethertypeArp) true _ :=
    .arp rfl (message.accepts padding)
  rw [reads.eq, message.with_addresses padding, message.consumed padding]
  rfl

end ArpMessage

namespace IcmpDatagram

variable (datagram : IcmpDatagram)

theorem decode_layer3_icmp (out : Packet) (padding : List UInt8) :
    decodeLayer3 (datagram.encode ++ padding)
        (out.setNetworkFromEthertype Ethernet.ethertypeIpv4) true =
      ⟨.none, ({ out with network := .v4 datagram.ipHeader } : Packet).setTransportFromProtocol
        Ip.protocolIcmp, datagram.segment⟩ := by
  have reads : ReadsDatagram (datagram.ipBytes ++ (datagram.segment ++ padding))
      (out.setNetworkFromEthertype Ethernet.ethertypeIpv4) true _ :=
    .v4 rfl (datagram.ip_accepts padding)
  rw [encode, List.append_assoc, reads.eq, ip_header_of, ip_payload]
  rfl

theorem decode_layer4_icmp (out : Packet) (network : out.network = .v4 datagram.ipHeader) :
    ∃ transport, datagram.Shows transport ∧
      decodeLayer4 datagram.segment (out.setTransportFromProtocol Ip.protocolIcmp) true =
        ⟨.none, { out with transport := transport }, datagram.payload⟩ := by
  obtain ⟨type, code, checksum, shown⟩ := header_read datagram
  have reads : ReadsSegment datagram.segment (out.setTransportFromProtocol Ip.protocolIcmp)
      true _ := .icmp network rfl datagram.accepts
  refine ⟨.icmp (Icmp.Header.ofWire datagram.segment).toHost,
    ⟨_, rfl, type, code, checksum, shown⟩, ?_⟩
  rw [reads.eq, datagram.consumed]
  rfl

end IcmpDatagram

namespace EthernetFrame

variable (frame : EthernetFrame)

theorem ethertype_plain (datagram : Datagram) :
    ¬ (datagram.ethertype = Ethernet.ethertypeVlan ∨
      datagram.ethertype = Ethernet.ethertypeVlanQq) := by
  cases datagram with
  | arp message => simp only [Datagram.ethertype]; decide
  | icmp datagram => simp only [Datagram.ethertype]; decide
  | chained datagram => simp only [Datagram.ethertype]; decide

/-- The packet behind the link layer. -/
def linked (pkt : Packet) : Packet :=
  { pkt.reset with
    datalink := .ethernet {
      dstMac := frame.dstMac.val
      srcMac := frame.srcMac.val
      ethertype := frame.datagram.ethertype }
    vlanTags := Frame.tagHeaders frame.tags frame.datagram.ethertype }

/-- Decoding an encoded frame with its checksums verified gives back what was encoded: the
addresses, the list of tags, the chain of extension headers, the message or transport header
and exactly the payload. -/
theorem decode_undoes_encode (pkt : Packet) (header : Ethernet.Header) :
    ∃ transport, frame.datagram.Shows transport ∧
      decodePacket frame.encode ({ pkt with datalink := .ethernet header } : Packet).reset true =
        ⟨.none, frame.packet transport pkt.payload, frame.datagram.rest frame.padding⟩ := by
  have layer2 : decodeLayer2 frame.encode
      ({ pkt with datalink := .ethernet header } : Packet).reset =
        ⟨.none, (frame.linked pkt).setNetworkFromEthertype frame.datagram.ethertype,
          frame.datagram.encode frame.padding⟩ :=
    Frame.decode_layer2_tagged frame.dstMac frame.srcMac frame.tags frame.tagsFit
      (ethertype_plain frame.datagram) header _ rfl rfl _
  cases carried : frame.datagram with
  | arp message =>
      rw [carried] at layer2
      have layer3 := message.decode_layer3_arp (frame.linked pkt) frame.padding
      refine ⟨.monostate, rfl, ?_⟩
      rw [decodePacket, layer2]
      simp only [Datagram.encode, Datagram.ethertype, layer3, ne_eq, not_true_eq_false, if_false,
        Packet.isArp, if_true]
      simp only [linked, packet, carried, Datagram.networkHeader, Datagram.ipv6Ext,
        Datagram.payload, Datagram.rest, Packet.reset]
  | icmp datagram =>
      rw [carried] at layer2
      obtain ⟨transport, shows, layer4⟩ := datagram.decode_layer4_icmp
        { frame.linked pkt with network := .v4 datagram.ipHeader } rfl
      have layer3 := datagram.decode_layer3_icmp (frame.linked pkt) frame.padding
      refine ⟨transport, shows, ?_⟩
      rw [Frame.decode_packet_layers layer2 layer3 rfl layer4]
      simp only [linked, packet, carried, Datagram.networkHeader, Datagram.ipv6Ext,
        Datagram.payload, Datagram.rest, Packet.reset]
  | chained datagram =>
      rw [carried] at layer2
      obtain ⟨transport, shows, layer4⟩ := datagram.decode_layer4_chained
        { frame.linked pkt with
          network := .v6 (datagram.packet []).header
          ipv6Ext := (datagram.packet []).headers } rfl rfl
      have layer3 := datagram.decode_layer3_chained (frame.linked pkt) rfl frame.padding
      refine ⟨transport, shows, ?_⟩
      rw [Frame.decode_packet_layers layer2 layer3 rfl layer4]
      simp only [linked, packet, carried, Datagram.networkHeader, Datagram.ipv6Ext,
        Datagram.payload, Datagram.rest, Packet.reset]

/-- An echo request behind a tag and a chain that leads on to another destination. -/
def routedEcho : EthernetFrame where
  dstMac := ⟨[2, 0, 0, 0, 0, 3], rfl⟩
  srcMac := ⟨[2, 0, 0, 0, 0, 4], rfl⟩
  tags := [{ double := false, tci := 9, notReserved := by decide }]
  tagsFit := by decide
  datagram := .chained {
    fixed := Ip.V6.Ext.routed.fixed
    exts := Ip.V6.Ext.routed.exts
    placed := Ip.V6.Ext.routed_placed
    upper := .icmpv6 (.echo false 7 1)
    payload := [9]
    fits := by decide }
  padding := [0, 0]

theorem decode_undoes_encode_routed :
    let read := decodePacket routedEcho.encode ({ datalink := .ethernet {} } : Packet).reset true
    read.err = .none ∧ read.header.ipv6Ext.length = 3 ∧ read.span = [9] ∧
      ∃ header : Icmpv6.Header, read.header.transport = .icmpv6 header ∧
        header.echoId = 7 ∧ header.echoSeq = 1 := by
  intro read
  obtain ⟨transport, ⟨header, icmpv6, -, -, -, shown⟩, decoded⟩ :=
    decode_undoes_encode routedEcho {} {}
  have decoded : read = _ := decoded
  rw [decoded]
  exact ⟨rfl, rfl, rfl, header, icmpv6, shown⟩

end EthernetFrame

end PcapAnalyzer
