import PcapAnalyzer.Decode.RoundTrip
import PcapAnalyzer.Protocols.Accepted

/-!
# The checksum of a UDP datagram

A datagram may be shorter than the payload of its IP packet. Its checksum covers a pseudo
header with the length of the datagram, whereas the parser sums the length the IP header
leaves, so the two agree where the lengths do and nearly nowhere else.
-/

namespace PcapAnalyzer

open OnesComplement

set_option autoImplicit false

/-- The IP header a datagram is parsed with. -/
inductive IpHeader where
  | v4 (header : Ip.V4.Header)
  | v6 (header : Ip.V6.Header)

namespace IpHeader

/-- The header length is within the total length, and an address has its sixteen octets. -/
def WellFormed : IpHeader → Prop
  | .v4 header => header.headerLength ≤ header.totalLength.toNat
  | .v6 header => header.srcIp.length = 16 ∧ header.dstIp.length = 16

/-- The length of the payload by the lengths of the header. -/
def payloadLength : IpHeader → Nat
  | .v4 header => header.totalLength.toNat - header.headerLength
  | .v6 header => header.payloadLength.toNat

def protocol : IpHeader → UInt8
  | .v4 header => header.protocol
  | .v6 header => header.nextHeader

def addressBytes : IpHeader → List UInt8
  | .v4 header => wire32 header.srcIp ++ wire32 header.dstIp
  | .v6 header => header.srcIp ++ header.dstIp

/-- The pseudo headers of UDP: the addresses, the length of the datagram, protocol 17. -/
def pseudoHeader (ip : IpHeader) (length : Nat) : List UInt8 :=
  ip.addressBytes ++
    match ip with
    | .v4 _ => [0, Ip.protocolUdp] ++ wire16 (UInt16.ofNat length)
    | .v6 _ => wire32 (UInt32.ofNat length) ++ [0, 0, 0, Ip.protocolUdp]

def parseUdp (ip : IpHeader) (span : List UInt8) (before : Udp.Header) (verify : Bool) :
    Parsed Udp.Header :=
  match ip with
  | .v4 header => Udp.parseV4 span before header .big verify
  | .v6 header => Udp.parseV6 span before header .big verify

def pseudoHeaderSum : IpHeader → UInt64
  | .v4 header => Ip.V4.computePseudoHeaderSum header
  | .v6 header => Ip.V6.computePseudoHeaderSum header

end IpHeader

namespace Udp

open IpHeader

variable {ip : IpHeader} {span : List UInt8}

/-- The length field of the datagram. -/
def lengthOf (span : List UInt8) : Nat := (headerOf span).length.toNat

/-- A datagram with a checksum, whose length field is within the span. -/
structure Datagram (span : List UInt8) : Prop where
  header : headerLen ≤ lengthOf span
  inside : lengthOf span ≤ span.length
  summed : (Header.ofWire span).checksum ≠ 0

/-- The checksum over the pseudo header and the datagram comes out wrong. -/
def ChecksumWrong (ip : IpHeader) (span : List UInt8) : Prop :=
  internetChecksum (ip.pseudoHeader (lengthOf span) ++ span.take (lengthOf span)) ≠ 0

/-- What both sums have in common: the addresses and the datagram. -/
def commonSum (ip : IpHeader) (span : List UInt8) : Nat :=
  wordSum ip.addressBytes + wordSum (span.take (lengthOf span))

section Sums

theorem internet_checksum_zero_iff (data : List UInt8) :
    internetChecksum data = 0 ↔ Same 65535 (wordSum data) 65535 := by
  have stands := checksum_stands data
  have bounded := stands.bounded
  rw [← UInt16.toNat_inj, internet_checksum_to_nat, complement, UInt16.toNat_zero]
  constructor
  · intro none
    have full : OnesComplement.sum 65535 (words data) = 65535 := by omega
    have same := stands.toSame.symm
    rw [full] at same
    exact same
  · intro same
    have full := (stands.all_ones (by decide)).mpr
      ⟨same.residue.trans (by decide), fun zero => absurd (same.zero.mp zero) (by decide)⟩
    omega

/-- The parser sums the addresses, the length the IP header leaves, and its protocol. -/
theorem pseudo_header_sum_to_nat (formed : ip.WellFormed) :
    ip.pseudoHeaderSum.toNat =
      wordSum ip.addressBytes + (ip.payloadLength + ip.protocol.toNat) := by
  cases ip with
  | v4 header => exact Frame.v4_sum_to_nat formed
  | v6 header => exact Frame.v6_sum_to_nat formed.1 formed.2

theorem payload_length_lt (ip : IpHeader) : ip.payloadLength < 65536 := by
  cases ip with
  | v4 header =>
      have bound := header.totalLength.toNat_lt
      simp only [payloadLength]
      omega
  | v6 header => exact header.payloadLength.toNat_lt

theorem address_bytes_even (formed : ip.WellFormed) : ip.addressBytes.length % 2 = 0 ∧
    ip.addressBytes.length ≤ 32 := by
  cases ip with
  | v4 header => simp [addressBytes]
  | v6 header => simp [addressBytes, formed.1, formed.2]

/-- The pseudo header adds the length of the datagram and the number 17. -/
theorem pseudo_header_word_sum (formed : ip.WellFormed) {length : Nat} (small : length < 65536) :
    wordSum (ip.pseudoHeader length) = wordSum ip.addressBytes + (length + 17) ∧
      (ip.pseudoHeader length).length % 2 = 0 := by
  have even := (address_bytes_even formed).1
  have udp : Ip.protocolUdp.toNat = 17 := rfl
  unfold pseudoHeader
  rw [word_sum_append _ _ even, List.length_append]
  cases ip with
  | v4 header =>
      simp only [Frame.v4_length_part _ small, udp, List.length_append, wire16_length, List.length_cons,
        List.length_nil, true_and]
      omega
  | v6 header =>
      simp only [Frame.v6_length_part _ small, udp, List.length_append, wire32_length, List.length_cons,
        List.length_nil, true_and]
      omega

/-- The checksum comes out right when the sum is a multiple of the all-ones word. -/
theorem checksum_wrong_iff (formed : ip.WellFormed) :
    ChecksumWrong ip span ↔
      ¬ commonSum ip span + (lengthOf span + 17) ≡ 0 [MOD 65535] := by
  have small : lengthOf span < 65536 := (headerOf span).length.toNat_lt
  obtain ⟨sum, even⟩ := pseudo_header_word_sum formed small
  have regrouped : wordSum ip.addressBytes + (lengthOf span + 17) +
      wordSum (span.take (lengthOf span)) = commonSum ip span + (lengthOf span + 17) := by
    unfold commonSum
    omega
  rw [ChecksumWrong, ne_eq, internet_checksum_zero_iff, word_sum_append _ _ even, sum, regrouped]
  constructor
  · intro wrong right
    exact wrong ⟨right.trans (by decide), by omega⟩
  · intro wrong same
    exact wrong (same.residue.trans (by decide))

/-- The length field alone makes the sum of a datagram positive. -/
theorem common_sum_positive (ip : IpHeader) (datagram : Datagram span) :
    commonSum ip span ≠ 0 := by
  have header := datagram.header
  have inside := datagram.inside
  have field : lengthOf span = 256 * (byteAt span 4).toNat + (byteAt span 5).toNat :=
    to_host16_load span 4
  simp only [headerLen] at header
  have size : (span.take (lengthOf span)).length = lengthOf span := List.length_take_of_le inside
  have byte : ∀ i < 8, byteAt (span.take (lengthOf span)) i = byteAt span i := by
    intro i small
    simp only [byteAt, List.getD_eq_getElem?_getD, List.getElem?_take]
    rw [if_pos (by omega)]
  have pair := word_sum_pair (span.take (lengthOf span)) 4 (by omega)
  have front := word_sum_take (span.take (lengthOf span)) 4 2 (by decide) (by omega)
  have whole := word_sum_append ((span.take (lengthOf span)).take 6)
    ((span.take (lengthOf span)).drop 6) (by rw [List.length_take_of_le (by omega)])
  rw [List.take_append_drop] at whole
  rw [byte 4 (by decide), byte 5 (by decide), ← field] at pair
  simp only [Nat.reduceAdd] at front
  unfold commonSum
  omega

/-- The parser compares the sum with the length the IP header leaves and its protocol. -/
theorem verify_iff (formed : ip.WellFormed) (datagram : Datagram span) :
    verifyChecksum (span.take (lengthOf span)) ip.pseudoHeaderSum = true ↔
      commonSum ip span + (ip.payloadLength + ip.protocol.toNat) ≡ 0 [MOD 65535] := by
  have total := pseudo_header_sum_to_nat formed
  have positive := common_sum_positive ip datagram
  have addresses := word_sum_bound ip.addressBytes
  have few := (address_bytes_even formed).2
  have protocol := ip.protocol.toNat_lt
  have length := payload_length_lt ip
  have small : lengthOf span < 65536 := (headerOf span).length.toNat_lt
  have short : (span.take (lengthOf span)).length < 2 ^ 32 := by
    rw [List.length_take]
    omega
  rw [verify_checksum_iff _ _ short (by omega), total]
  have regrouped : wordSum ip.addressBytes + (ip.payloadLength + ip.protocol.toNat) +
      wordSum (span.take (lengthOf span)) =
        commonSum ip span + (ip.payloadLength + ip.protocol.toNat) := by
    unfold commonSum
    omega
  rw [regrouped]
  constructor
  · intro same
    exact same.residue.trans (by decide)
  · intro residue
    exact ⟨residue.trans (by decide), by omega⟩

end Sums

section Parser

theorem parse_mismatch_iff (datagram : Datagram span) (before : Header)
    (pseudoHeaderSum : UInt64) (acceptZeroChecksum : Bool) :
    (parse span before pseudoHeaderSum .big acceptZeroChecksum true).err = .checksumMismatch ↔
      ¬ verifyChecksum (span.take (lengthOf span)) pseudoHeaderSum = true := by
  have header := datagram.header
  have inside := datagram.inside
  have field : (toHost16 (Header.ofWire span).length .big).toNat = lengthOf span := rfl
  have summed := datagram.summed
  simp only [headerLen] at header
  unfold parse
  simp only [field, headerLen]
  rw [if_neg (by omega), if_neg (by omega)]
  cases verifyChecksum (span.take (lengthOf span)) pseudoHeaderSum with
  | true => simp [summed]
  | false => simp [summed]

/-- The parser reports a mismatch exactly when its own sum does not come out. -/
theorem parse_udp_mismatch_iff (formed : ip.WellFormed) (datagram : Datagram span)
    (before : Header) : (ip.parseUdp span before true).err = .checksumMismatch ↔
      ¬ commonSum ip span + (ip.payloadLength + ip.protocol.toNat) ≡ 0 [MOD 65535] := by
  rw [← verify_iff formed datagram]
  cases ip with
  | v4 header => exact parse_mismatch_iff datagram before _ true
  | v6 header => exact parse_mismatch_iff datagram before _ false

/-- Two sums that come out alike are the same, or neither comes out. -/
theorem come_out_alike (common first second : Nat) :
    (¬ common + first ≡ 0 [MOD 65535] ↔ ¬ common + second ≡ 0 [MOD 65535]) ↔
      first ≡ second [MOD 65535] ∨
        ¬ common + first ≡ 0 [MOD 65535] ∧ ¬ common + second ≡ 0 [MOD 65535] := by
  unfold Nat.ModEq
  omega

/-- With the protocol of UDP, the lengths are the same when nothing follows the datagram. -/
theorem lengths_same_iff (datagram : Datagram span)
    (udp : ip.protocol = Ip.protocolUdp) (payload : ip.payloadLength = span.length) :
    ip.payloadLength + ip.protocol.toNat ≡ lengthOf span + 17 [MOD 65535] ↔
      lengthOf span = span.length := by
  have header := datagram.header
  have inside := datagram.inside
  have small := payload_length_lt ip
  have number : Ip.protocolUdp.toNat = 17 := rfl
  simp only [headerLen] at header
  rw [payload] at small
  rw [udp, payload, number]
  unfold Nat.ModEq
  omega

end Parser

/-- The verdict on a datagram agrees with its checksum exactly when the length the IP header
leaves counts like the length of the datagram, or no sum comes out with either length. In a
packet of protocol 17 the former means that nothing follows the datagram. -/
theorem checksum_agrees_iff (formed : ip.WellFormed) (datagram : Datagram span)
    (before : Header) :
    (((ip.parseUdp span before true).err = .checksumMismatch ↔ ChecksumWrong ip span) ↔
      (ip.payloadLength + ip.protocol.toNat ≡ lengthOf span + 17 [MOD 65535] ∨
        ¬ commonSum ip span + (ip.payloadLength + ip.protocol.toNat) ≡ 0 [MOD 65535] ∧
          ¬ commonSum ip span + (lengthOf span + 17) ≡ 0 [MOD 65535])) ∧
    (ip.protocol = Ip.protocolUdp → ip.payloadLength = span.length →
      (ip.payloadLength + ip.protocol.toNat ≡ lengthOf span + 17 [MOD 65535] ↔
        lengthOf span = span.length)) := by
  refine ⟨?_, lengths_same_iff datagram⟩
  rw [parse_udp_mismatch_iff formed datagram before, checksum_wrong_iff formed]
  exact come_out_alike _ _ _

/-- A datagram of eight octets from 10.0.0.1, port 40000, to 10.0.0.2, port 53, with its
checksum. -/
def shortDatagram : List UInt8 := [0x9C, 0x40, 0, 53, 0, 8, 0x4F, 0x66]

def addressed (totalLength : UInt16) : Ip.V4.Header :=
  { versionIhl := 0x45
    totalLength := totalLength
    protocol := Ip.protocolUdp
    srcIp := 0x0A000001
    dstIp := 0x0A000002 }

theorem addressed_formed : IpHeader.WellFormed (.v4 (addressed 28)) ∧
    IpHeader.WellFormed (.v4 (addressed 29)) := by
  simp only [IpHeader.WellFormed]
  decide

theorem checksum_agrees_iff_short :
    (IpHeader.parseUdp (.v4 (addressed 28)) shortDatagram {} true).err = .checksumMismatch ↔
      ChecksumWrong (.v4 (addressed 28)) shortDatagram := by
  have datagram : Datagram shortDatagram := ⟨by decide, by decide, by decide⟩
  have agrees := checksum_agrees_iff addressed_formed.1 datagram {}
  exact agrees.1.mpr (.inl ((agrees.2 rfl rfl).mpr rfl))

/-- One octet behind the datagram, within the IP packet, and the right checksum is refused. -/
theorem trailing_octet_is_counted :
    ¬ ∀ (ip : IpHeader) (span : List UInt8) (before : Header), ip.WellFormed →
      ip.payloadLength = span.length → Datagram span →
        ((ip.parseUdp span before true).err = .checksumMismatch ↔ ChecksumWrong ip span) := by
  intro all
  have agrees := all (.v4 (addressed 29)) (shortDatagram ++ [0]) {} addressed_formed.2 rfl
    ⟨by decide, by decide, by decide⟩
  have refused : (IpHeader.parseUdp (.v4 (addressed 29)) (shortDatagram ++ [0]) {} true).err =
      .checksumMismatch := by decide +kernel
  exact agrees.mp refused (by decide +kernel)

end Udp

end PcapAnalyzer
