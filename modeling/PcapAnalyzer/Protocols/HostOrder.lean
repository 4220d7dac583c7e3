import PcapAnalyzer.Protocols.Accepted

/-!
# Host order

The fixed part of a header is copied as it stands on the wire, and every field of several
octets has to be swapped exactly once. Then the header written back in network byte order is
the bytes it was read from.
-/

namespace PcapAnalyzer

set_option autoImplicit false

/-- A header with a fixed part. -/
inductive FixedHeader where
  | ethernet (header : Ethernet.Header)
  | vlan (header : Vlan.Header)
  | arp (header : Arp.Header)
  | v4 (header : Ip.V4.Header)
  | v6 (header : Ip.V6.Header)
  | tcp (header : Tcp.Header)
  | udp (header : Udp.Header)

namespace FixedHeader

def isTcp : FixedHeader → Bool
  | .tcp _ => true
  | _ => false

def fixedLen : FixedHeader → Nat
  | .ethernet _ => Ethernet.headerLen
  | .vlan _ => Vlan.headerLen
  | .arp _ => Arp.minHeaderLen
  | .v4 _ => Ip.V4.minHeaderLen
  | .v6 _ => Ip.V6.headerLen
  | .tcp _ => Tcp.minHeaderLen
  | .udp _ => Udp.headerLen

/-- The fixed part in network byte order. -/
def written : FixedHeader → List UInt8
  | .ethernet header => header.dstMac ++ header.srcMac ++ wire16 header.ethertype
  | .vlan header => wire16 header.tci ++ wire16 header.ethertype
  | .arp header =>
      wire16 header.htype ++ wire16 header.ptype ++ [header.hlen, header.plen] ++
        wire16 header.oper
  | .v4 header =>
      [header.versionIhl, header.tos] ++ wire16 header.totalLength ++
        wire16 header.identification ++ wire16 header.flagsFragment ++
        [header.ttl, header.protocol] ++ wire16 header.checksum ++ wire32 header.srcIp ++
        wire32 header.dstIp
  | .v6 header =>
      wire32 header.versionTcFl ++ wire16 header.payloadLength ++
        [header.nextHeader, header.hopLimit] ++ header.srcIp ++ header.dstIp
  | .tcp header =>
      wire16 header.srcPort ++ wire16 header.dstPort ++ wire32 header.seqNumber ++
        wire32 header.ackNumber ++ [header.dataOffsetReserved, header.flags] ++
        wire16 header.windowSize ++ wire16 header.checksum ++ wire16 header.urgentPointer
  | .udp header =>
      wire16 header.srcPort ++ wire16 header.dstPort ++ wire16 header.length ++
        wire16 header.checksum

/-- The header a parser returns for a span it accepts, whatever it was called with. -/
inductive ParsedFrom (span : List UInt8) : FixedHeader → Prop where
  | ethernet (before : Ethernet.Header)
      (passed : (Ethernet.parse span before .big).err = .none) :
      ParsedFrom span (.ethernet (Ethernet.parse span before .big).header)
  | vlan (before : Vlan.Header) (passed : (Vlan.parse span before .big).err = .none) :
      ParsedFrom span (.vlan (Vlan.parse span before .big).header)
  | arp (before : Arp.Header) (passed : (Arp.parse span before .big).err = .none) :
      ParsedFrom span (.arp (Arp.parse span before .big).header)
  | v4 (before : Ip.V4.Header) (verify : Bool)
      (passed : (Ip.V4.parse span before .big verify).err = .none) :
      ParsedFrom span (.v4 (Ip.V4.parse span before .big verify).header)
  | v6 (before : Ip.V6.Header) (passed : (Ip.V6.parse span before .big).err = .none) :
      ParsedFrom span (.v6 (Ip.V6.parse span before .big).header)
  | tcp (before : Tcp.Header) (length : Nat) (pseudoHeaderSum : UInt64) (verify : Bool)
      (passed : (Tcp.parse span before length pseudoHeaderSum .big verify).err = .none) :
      ParsedFrom span (.tcp (Tcp.parse span before length pseudoHeaderSum .big verify).header)
  | udp (before : Udp.Header) (pseudoHeaderSum : UInt64) (acceptZeroChecksum verify : Bool)
      (passed : (Udp.parse span before pseudoHeaderSum .big acceptZeroChecksum verify).err =
        .none) :
      ParsedFrom span
        (.udp (Udp.parse span before pseudoHeaderSum .big acceptZeroChecksum verify).header)

/-- Writing the header back gives the bytes it was parsed from. -/
def InHostOrder (span : List UInt8) (header : FixedHeader) : Prop :=
  header.written = span.take header.fixedLen

section Pieces

theorem slice_join (span : List UInt8) (offset first second : Nat) :
    slice span offset first ++ slice span (offset + first) second =
      slice span offset (first + second) := by
  simp only [slice, List.take_add, List.drop_drop]

theorem byte_pair_slice (span : List UInt8) (offset : Nat) (inside : offset + 1 < span.length) :
    [byteAt span offset, byteAt span (offset + 1)] = slice span offset 2 := by
  rw [slice_succ span offset 1 (by omega), slice_succ span (offset + 1) 0 inside, slice_zero]

/-- A field left in wire order is written back the other way round. -/
theorem wire16_load (span : List UInt8) (offset : Nat) :
    wire16 (load16 span offset) = [byteAt span (offset + 1), byteAt span offset] := by
  have low := (byteAt span offset).toNat_lt
  have high := (byteAt span (offset + 1)).toNat_lt
  rw [wire16, load16_to_nat]
  simp only [List.cons.injEq, ← UInt8.toNat_inj, UInt8.toNat_ofNat', and_true]
  omega

end Pieces

section Parsers

variable {span : List UInt8}

theorem ethernet_written (fits : Ethernet.headerLen ≤ span.length) :
    InHostOrder span (.ethernet (Ethernet.Header.ofWire span).toHost) := by
  simp only [Ethernet.headerLen] at fits
  simp only [InHostOrder, written, fixedLen, Ethernet.Header.toHost, Ethernet.Header.ofWire,
    wire16_to_host span 12 (by omega)]
  rw [slice_join span 0 6 6, slice_join span 0 12 2]
  rfl

theorem vlan_written (fits : Vlan.headerLen ≤ span.length) :
    InHostOrder span (.vlan (Vlan.Header.ofWire span).toHost) := by
  simp only [Vlan.headerLen] at fits
  simp only [InHostOrder, written, fixedLen, Vlan.Header.toHost, Vlan.Header.ofWire,
    wire16_to_host span 0 (by omega),
    wire16_to_host span 2 (by omega)]
  exact slice_join span 0 2 2

theorem arp_written (before : Arp.Header) (fits : Arp.minHeaderLen ≤ span.length) :
    InHostOrder span (.arp ((Arp.Header.ofWire span before).toHost.withAddresses span)) := by
  simp only [Arp.minHeaderLen] at fits
  simp only [InHostOrder, written, fixedLen, Arp.Header.withAddresses, Arp.Header.toHost,
    Arp.Header.ofWire, wire16_to_host span 0 (by omega),
    wire16_to_host span 2 (by omega),
    wire16_to_host span 6 (by omega),
    byte_pair_slice span 4 (by omega)]
  rw [slice_join span 0 2 2, slice_join span 0 4 2, slice_join span 0 6 2]
  rfl

theorem v4_written (fits : Ip.V4.minHeaderLen ≤ span.length) :
    InHostOrder span (.v4 (Ip.V4.headerOf span)) := by
  simp only [Ip.V4.minHeaderLen] at fits
  simp only [InHostOrder, written, fixedLen, Ip.V4.headerOf, Ip.V4.Header.toHost,
    Ip.V4.Header.ofWire, wire16_to_host span 2 (by omega),
    wire16_to_host span 4 (by omega),
    wire16_to_host span 6 (by omega),
    wire16_to_host span 10 (by omega),
    wire32_to_host span 12 (by omega),
    wire32_to_host span 16 (by omega),
    byte_pair_slice span 0 (by omega),
    byte_pair_slice span 8 (by omega)]
  rw [slice_join span 0 2 2, slice_join span 0 4 2, slice_join span 0 6 2, slice_join span 0 8 2,
    slice_join span 0 10 2, slice_join span 0 12 4, slice_join span 0 16 4]
  rfl

theorem v6_written (fits : Ip.V6.headerLen ≤ span.length) :
    InHostOrder span (.v6 (Ip.V6.headerOf span)) := by
  simp only [Ip.V6.headerLen] at fits
  simp only [InHostOrder, written, fixedLen, Ip.V6.headerOf, Ip.V6.Header.toHost,
    Ip.V6.Header.ofWire, wire32_to_host span 0 (by omega),
    wire16_to_host span 4 (by omega),
    byte_pair_slice span 6 (by omega)]
  rw [slice_join span 0 4 2, slice_join span 0 6 2, slice_join span 0 8 16,
    slice_join span 0 24 16]
  rfl

theorem udp_written (fits : Udp.headerLen ≤ span.length) :
    InHostOrder span (.udp (Udp.headerOf span)) := by
  simp only [Udp.headerLen] at fits
  simp only [InHostOrder, written, fixedLen, Udp.headerOf, Udp.Header.toHost, Udp.Header.ofWire,
    wire16_to_host span 0 (by omega),
    wire16_to_host span 2 (by omega),
    wire16_to_host span 4 (by omega),
    wire16_to_host span 6 (by omega)]
  rw [slice_join span 0 2 2, slice_join span 0 4 2, slice_join span 0 6 2]
  rfl

/-- The checksum of a segment is not swapped, so its two octets have to be equal. -/
theorem tcp_written (fits : Tcp.minHeaderLen ≤ span.length) :
    InHostOrder span (.tcp (Tcp.headerOf span)) ↔ byteAt span 16 = byteAt span 17 := by
  simp only [Tcp.minHeaderLen] at fits
  have parts : span.take 20 = slice span 0 16 ++ slice span 16 2 ++ slice span 18 2 := by
    rw [slice_join span 0 16 2, slice_join span 0 18 2]
    rfl
  simp only [InHostOrder, written, fixedLen, Tcp.headerOf, Tcp.Header.toHost, Tcp.Header.ofWire,
    Tcp.minHeaderLen, wire16_to_host span 0 (by omega),
    wire16_to_host span 2 (by omega),
    wire32_to_host span 4 (by omega),
    wire32_to_host span 8 (by omega),
    wire16_to_host span 14 (by omega),
    wire16_to_host span 18 (by omega),
    byte_pair_slice span 12 (by omega)]
  rw [slice_join span 0 2 2, slice_join span 0 4 4, slice_join span 0 8 4, slice_join span 0 12 2,
    slice_join span 0 14 2, parts, wire16_load, ← byte_pair_slice span 16 (by omega),
    List.append_left_inj, List.append_right_inj]
  simp only [List.cons.injEq, and_true]
  exact ⟨fun same => same.2, fun same => ⟨same.symm, same⟩⟩

end Parsers

/-- Every header is returned in host order, but for the checksum of a TCP segment. -/
theorem in_host_order_iff (span : List UInt8) (header : FixedHeader)
    (parsed : ParsedFrom span header) :
    InHostOrder span header ↔ (header.isTcp = true → byteAt span 16 = byteAt span 17) := by
  cases parsed with
  | ethernet before passed =>
      have reads := Ethernet.parse_reads span before
      rw [reads.eq passed]
      exact iff_of_true (ethernet_written (reads.err_iff.mp passed)) (by simp [isTcp])
  | vlan before passed =>
      have reads := Vlan.parse_reads span before
      rw [reads.eq passed]
      exact iff_of_true (vlan_written (reads.err_iff.mp passed).fits) (by simp [isTcp])
  | arp before passed =>
      have reads := Arp.parse_reads span before
      rw [reads.eq passed]
      exact iff_of_true (arp_written before (reads.err_iff.mp passed).fixed) (by simp [isTcp])
  | v4 before verify passed =>
      have reads := Ip.V4.parse_reads span before verify
      rw [reads.eq passed]
      exact iff_of_true (v4_written (reads.err_iff.mp passed).fixed) (by simp [isTcp])
  | v6 before passed =>
      have reads := Ip.V6.parse_reads span before
      rw [reads.eq passed]
      exact iff_of_true (v6_written (reads.err_iff.mp passed).fixed) (by simp [isTcp])
  | tcp before length pseudoHeaderSum verify passed =>
      have reads := Tcp.parse_reads span before length pseudoHeaderSum verify
      rw [reads.eq passed, tcp_written (reads.err_iff.mp passed).fixed]
      simp [isTcp]
  | udp before pseudoHeaderSum acceptZeroChecksum verify passed =>
      have reads := Udp.parse_reads span before pseudoHeaderSum acceptZeroChecksum verify
      rw [reads.eq passed]
      exact iff_of_true (udp_written (reads.err_iff.mp passed).fixed) (by simp [isTcp])

/-- A segment without options or payload. -/
def plainSegment : List UInt8 :=
  [0x9C, 0x40, 0, 80, 0, 0, 0, 1, 0, 0, 0, 0, 0x50, 0x02, 0x20, 0, 0x12, 0x34, 0, 0]

theorem in_host_order_iff_segment :
    ∃ header, ParsedFrom plainSegment header ∧
      (InHostOrder plainSegment header ↔
        (header.isTcp = true → byteAt plainSegment 16 = byteAt plainSegment 17)) :=
  ⟨_, .tcp {} 20 0 false rfl, in_host_order_iff _ _ (.tcp {} 20 0 false rfl)⟩

/-- The checksum 0x1234 is returned as 0x3412. -/
theorem checksum_stays_in_wire_order :
    ¬ ∀ (span : List UInt8) (header : FixedHeader), ParsedFrom span header →
      InHostOrder span header := by
  intro all
  have ordered := all plainSegment _ (.tcp {} 20 0 false rfl)
  revert ordered
  unfold InHostOrder
  decide

end FixedHeader

end PcapAnalyzer
