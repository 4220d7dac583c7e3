import PcapAnalyzer.Decode.Frame

/-!
# Decoding undoes encoding

Each layer reads back what the encoder wrote and narrows the span to what the next layer
wrote; the checksums verify because each was computed over the same words.
-/

namespace PcapAnalyzer

open OnesComplement

set_option autoImplicit false

section Reading

variable (x : UInt16) (y : UInt32) (byte : UInt8) (left rest : List UInt8) (i : Nat)

theorem byte_at_skip16 : byteAt (wire16 x ++ rest) (i + 2) = byteAt rest i := by
  simp [wire16]

theorem byte_at_skip32 : byteAt (wire32 y ++ rest) (i + 4) = byteAt rest i := by
  simp [wire32]

theorem load16_skip16 : load16 (wire16 x ++ rest) (i + 2) = load16 rest i := by
  simp [load16, wire16]

theorem load16_skip32 : load16 (wire32 y ++ rest) (i + 4) = load16 rest i := by
  simp [load16, wire32]

theorem load16_skip8 : load16 (byte :: rest) (i + 1) = load16 rest i := by
  simp [load16]

theorem load32_skip16 : load32 (wire16 x ++ rest) (i + 2) = load32 rest i := by
  simp [load32, wire16]

theorem load32_skip32 : load32 (wire32 y ++ rest) (i + 4) = load32 rest i := by
  simp [load32, wire32]

theorem load32_skip8 : load32 (byte :: rest) (i + 1) = load32 rest i := by
  simp [load32]

theorem slice_skip16 (count : Nat) :
    slice (wire16 x ++ rest) (i + 2) count = slice rest i count := by
  simp [slice, wire16]

theorem slice_skip32 (count : Nat) :
    slice (wire32 y ++ rest) (i + 4) count = slice rest i count := by
  simp [slice, wire32]

theorem slice_skip8 (count : Nat) : slice (byte :: rest) (i + 1) count = slice rest i count := by
  simp [slice]

/-- A field that is read in the order of the host has its bytes exchanged. -/
theorem load16_wire : load16 (wire16 x ++ rest) 0 = bswap16 x := by
  apply UInt16.toNat_inj.mp
  have bound := x.toNat_lt
  rw [load16_to_nat, bswap16_to_nat]
  simp only [wire16, List.cons_append, byte_at_cons_zero, byte_at_cons_succ, UInt8.toNat_ofNat']
  omega

theorem to_host16_bswap16 : toHost16 (bswap16 x) .big = x := by
  rw [← load16_wire x [], to_host16_wire]

theorem load16_behind (beyond : left.length ≤ i) :
    load16 (left ++ rest) i = load16 rest (i - left.length) := by
  rw [load16, load16, byte_at_append_right _ _ _ beyond,
    byte_at_append_right _ _ _ (Nat.le_succ_of_le beyond), Nat.succ_sub beyond]

theorem slice_front (count : Nat) (bytes : Bytes count) :
    slice (bytes.val ++ rest) 0 count = bytes.val :=
  slice_append_left _ _ count bytes.property

theorem slice_behind (offset count : Nat) (beyond : left.length ≤ offset) :
    slice (left ++ rest) offset count = slice rest (offset - left.length) count :=
  slice_append_right left rest offset count beyond

end Reading

namespace Frame

section Layer2

variable (frame : Frame)

theorem tag_vid (tag : Tag) (ethertype : UInt16) :
    ({ tci := tag.tci, ethertype := ethertype } : Vlan.Header).vid ≠ Vlan.vidReserved :=
  tag.notReserved

theorem tag_ethertype (tag : Tag) :
    tag.ethertype = Ethernet.ethertypeVlan ∨ tag.ethertype = Ethernet.ethertypeVlanQq := by
  unfold Tag.ethertype
  split_ifs
  · exact Or.inr rfl
  · exact Or.inl rfl

theorem network_ethertype (network : Network) :
    ¬ (network.ethertype = Ethernet.ethertypeVlan ∨
      network.ethertype = Ethernet.ethertypeVlanQq) := by
  cases network <;> simp only [Network.ethertype] <;> decide

theorem vlan_parse_encoded (tag : Tag) (ethertype : UInt16) (rest : List UInt8) :
    Vlan.parse (wire16 tag.tci ++ wire16 ethertype ++ rest) {} .big =
      ⟨.none, { tci := tag.tci, ethertype := ethertype }, rest⟩ := by
  have long : ¬ (wire16 tag.tci ++ wire16 ethertype ++ rest).length < Vlan.headerLen := by
    simp [Vlan.headerLen]
    omega
  have second := load16_skip16 tag.tci (wire16 ethertype ++ rest) 0
  rw [Vlan.parse, if_neg long]
  simp only [Vlan.Header.ofWire, List.append_assoc, to_host16_wire]
  rw [show (2 : Nat) = 0 + 2 from rfl, second, to_host16_wire, if_neg (tag_vid tag ethertype)]
  rfl

/-- The loop takes off the tags one by one and stops at the ethertype behind them. -/
theorem vlan_loop_encoded (tags : List Tag) {ethertype : UInt16}
    (plain : ¬ (ethertype = Ethernet.ethertypeVlan ∨ ethertype = Ethernet.ethertypeVlanQq))
    (rest : List UInt8) (out : Packet) (fuel : Nat) (enough : tags.length < fuel)
    (room : out.vlanTags.length + tags.length ≤ Vlan.maxTags) :
    vlanLoop fuel (tagBytes tags ethertype ++ rest) out (outerType tags ethertype) =
      (.none, rest, { out with vlanTags := out.vlanTags ++ tagHeaders tags ethertype },
        ethertype) := by
  induction tags generalizing out fuel with
  | nil =>
      cases fuel with
      | zero => simp at enough
      | succ fuel =>
          simp [vlanLoop, outerType, plain, tagBytes, tagHeaders]
  | cons tag tags ih =>
      cases fuel with
      | zero => simp at enough
      | succ fuel =>
          have parsed := vlan_parse_encoded tag (outerType tags ethertype)
            (tagBytes tags ethertype ++ rest)
          have notFull : ¬ out.vlanTags.length ≥ Vlan.maxTags := by
            simp only [List.length_cons] at room
            omega
          simp only [tagBytes, List.append_assoc] at parsed ⊢
          rw [vlanLoop, outerType, if_pos (tag_ethertype tag), if_neg notFull]
          simp only [parsed, ne_eq, not_true_eq_false, if_false]
          rw [ih _ fuel (by simp only [List.length_cons] at enough; omega)
            (by simp only [List.length_cons, List.length_append, List.length_nil] at room ⊢; omega)]
          simp [tagHeaders]

theorem ethernet_parse_encoded (dstMac srcMac : Bytes 6) (header : Ethernet.Header)
    (ethertype : UInt16) (rest : List UInt8) :
    Ethernet.parse (dstMac.val ++ (srcMac.val ++ (wire16 ethertype ++ rest))) header .big =
      ⟨.none, { dstMac := dstMac.val, srcMac := srcMac.val, ethertype := ethertype }, rest⟩ := by
  have dst := dstMac.property
  have src := srcMac.property
  have long : ¬ (dstMac.val ++ (srcMac.val ++ (wire16 ethertype ++ rest))).length <
      Ethernet.headerLen := by
    simp only [Ethernet.headerLen, List.length_append, dst, src, wire16_length]
    omega
  have type : load16 (dstMac.val ++ (srcMac.val ++ (wire16 ethertype ++ rest))) 12 =
      load16 (wire16 ethertype ++ rest) 0 := by
    rw [load16_behind _ _ _ (by omega), load16_behind _ _ _ (by omega), dst, src]
  have second : slice (dstMac.val ++ (srcMac.val ++ (wire16 ethertype ++ rest))) 6 6 =
      srcMac.val := by
    rw [slice_behind _ _ _ _ dst.le, dst]
    exact slice_front _ 6 srcMac
  have consumed : (dstMac.val ++ (srcMac.val ++ (wire16 ethertype ++ rest))).drop
      Ethernet.headerLen = rest := by
    rw [← List.append_assoc, ← List.append_assoc]
    exact List.drop_left' (by simp [dst, src, Ethernet.headerLen])
  rw [Ethernet.parse, if_neg long]
  simp only [Ethernet.Header.ofWire, type, to_host16_wire, second, consumed]
  rw [slice_front _ 6 dstMac]

/-- The link layer leaves what stands behind the tags. -/
theorem decode_layer2_tagged (dstMac srcMac : Bytes 6) (tags : List Tag)
    (few : tags.length ≤ Vlan.maxTags) {ethertype : UInt16}
    (plain : ¬ (ethertype = Ethernet.ethertypeVlan ∨ ethertype = Ethernet.ethertypeVlanQq))
    (header : Ethernet.Header) (out : Packet) (link : out.datalink = .ethernet header)
    (fresh : out.vlanTags = []) (rest : List UInt8) :
    decodeLayer2 (dstMac.val ++ (srcMac.val ++ (wire16 (outerType tags ethertype) ++
        (tagBytes tags ethertype ++ rest)))) out =
      ⟨.none, ({ out with
        datalink := .ethernet
          { dstMac := dstMac.val, srcMac := srcMac.val, ethertype := ethertype }
        vlanTags := tagHeaders tags ethertype } : Packet).setNetworkFromEthertype ethertype,
        rest⟩ := by
  have loop := vlan_loop_encoded tags plain rest
    { out with datalink := .ethernet ⟨dstMac.val, srcMac.val, outerType tags ethertype⟩ }
    (Vlan.maxTags + 1) (Nat.lt_succ_of_le few) (by simpa [fresh] using few)
  simp only [decodeLayer2, link, ethernet_parse_encoded, ne_eq, not_true_eq_false, if_false, loop]
  simp [fresh]

/-- The link layer leaves the datagram and the padding. -/
theorem decode_layer2_encoded (header : Ethernet.Header) (out : Packet)
    (link : out.datalink = .ethernet header) (fresh : out.vlanTags = []) (rest : List UInt8) :
    decodeLayer2 (frame.dstMac.val ++ (frame.srcMac.val ++
        (wire16 (outerType frame.tags frame.network.ethertype) ++
          (tagBytes frame.tags frame.network.ethertype ++ rest)))) out =
      ⟨.none, ({ out with
        datalink := frame.packet.datalink
        vlanTags := frame.packet.vlanTags } : Packet).setNetworkFromEthertype
          frame.network.ethertype, rest⟩ :=
  decode_layer2_tagged frame.dstMac frame.srcMac frame.tags frame.tagsFit
    (network_ethertype frame.network) header out link fresh rest

end Layer2

section Checksums

theorem word_sum_wire16 (x : UInt16) (rest : List UInt8) :
    wordSum (wire16 x ++ rest) = x.toNat + wordSum rest := by
  have bound := x.toNat_lt
  simp only [wordSum, wire16, List.cons_append, List.nil_append, words, List.sum_cons,
    UInt8.toNat_ofNat']
  omega

theorem word_sum_wire32 (y : UInt32) (rest : List UInt8) :
    wordSum (wire32 y ++ rest) = y.toNat / 65536 + y.toNat % 65536 + wordSum rest := by
  have bound := y.toNat_lt
  simp only [wordSum, wire32, List.cons_append, List.nil_append, words, List.sum_cons,
    UInt8.toNat_ofNat']
  omega

/-- The words with the checksum in its place sum to the all-ones word. -/
theorem checksum_between_same (pseudoHeader front back : List UInt8)
    (pseudoEven : pseudoHeader.length % 2 = 0) (frontEven : front.length % 2 = 0) :
    Same 65535 (wordSum pseudoHeader + wordSum (front ++
      (wire16 (checksumBetween pseudoHeader front back) ++ back))) 65535 := by
  have completes := (checksum_completes (pseudoHeader ++ front ++ wire16 0 ++ back)).toSame.symm
  rw [List.append_assoc, word_sum_append _ _ (by rw [List.length_append]; omega),
    word_sum_append _ _ pseudoEven, word_sum_wire16] at completes
  rw [word_sum_append _ _ frontEven, word_sum_wire16, checksumBetween]
  simp only [UInt16.toNat_zero, Nat.zero_add, List.append_assoc] at completes ⊢
  convert completes using 1
  omega

/-- Sending a checksum of zero as the all-ones word changes nothing. -/
theorem sent_same (transport : Transport) (number : Nat) (checksum : UInt16)
    (same : Same 65535 (number + checksum.toNat) 65535) :
    Same 65535 (number + (transport.sent checksum).toNat) 65535 := by
  cases transport with
  | tcp header => exact same
  | udp header =>
      simp only [Transport.sent]
      split_ifs with zero
      · have ones : (0xFFFF : UInt16).toNat = 65535 := rfl
        rw [zero.1] at same
        have residue := same.residue
        rw [ones]
        simp only [Nat.ModEq, UInt16.toNat_zero, Nat.add_zero] at residue
        exact ⟨by unfold Nat.ModEq; omega, by omega⟩
      · exact same

end Checksums

section Layer3

variable (frame : Frame)

/-- Two nibbles of one byte. -/
theorem nibbles : ∀ high low : Fin 16,
    (UInt8.ofNat (16 * high.val + low.val) >>> 4).toNat = high.val ∧
      (UInt8.ofNat (16 * high.val + low.val) &&& 0x0F).toNat = low.val := by
  decide +kernel

theorem header_words_bound (options : Options) :
    options.headerWords < 16 ∧ 4 * options.headerWords = 20 + options.bytes.length := by
  have aligned := options.aligned
  have fits := options.fits
  unfold Options.headerWords
  omega

theorem front_even (transport : Transport) (length : Nat) :
    (transport.front length).length % 2 = 0 := by
  cases transport <;> simp [Transport.front]

theorem segment_length : frame.segment.length = frame.segmentLen := by
  unfold segment segmentLen
  cases transport : frame.transport with
  | tcp header =>
      have words := (header_words_bound header.options).2
      simp only [Transport.front, Transport.back, Transport.headerLen, List.length_append,
        wire16_length, wire32_length, List.length_cons, List.length_nil]
      omega
  | udp header =>
      simp only [Transport.front, Transport.back, Transport.headerLen, Udp.headerLen,
        List.length_append, wire16_length, List.length_nil]
      omega

theorem v4_front_length (header : V4) : (frame.v4Front header).length = 10 := by
  simp [v4Front]

theorem v4_back_length (header : V4) :
    (v4Back header).length = 8 + header.options.bytes.length := by
  simp only [v4Back, List.length_append, wire32_length]

/-- The fields of the fixed header, as they are read from the wire. -/
theorem v4_of_wire (header : V4) (rest : List UInt8) {read : Ip.V4.Header}
    (wire : Ip.V4.Header.ofWire (frame.v4Front header ++
      (wire16 (frame.v4Checksum header) ++ (v4Back header ++ rest))) = read) :
    { read with
      totalLength := toHost16 read.totalLength .big
      identification := toHost16 read.identification .big
      flagsFragment := toHost16 read.flagsFragment .big
      checksum := toHost16 read.checksum .big
      srcIp := toHost32 read.srcIp .big
      dstIp := toHost32 read.dstIp .big } = frame.v4Header header := by
  rw [← wire]
  simp only [Ip.V4.Header.ofWire, v4Front, v4Back, List.append_assoc, List.cons_append,
    List.nil_append, byte_at_skip16, load16_skip16, load16_skip8,
    load32_skip16, load32_skip32, load32_skip8, byte_at_cons_succ, byte_at_cons_zero,
    to_host16_wire, to_host32_wire]
  rfl

/-- What the length field of the frame counts fits into it. -/
theorem counted_bound : frame.network.countedLen + frame.segmentLen ≤ 65535 := frame.fits

theorem v4_header_length (header : V4) :
    (frame.v4Header header).headerLength = 4 * header.options.headerWords ∧
      (frame.v4Header header).version = Ip.V4.supportedVersion := by
  have bound := (header_words_bound header.options).1
  have split := nibbles 4 ⟨header.options.headerWords, bound⟩
  constructor
  · exact congrArg (4 * ·) split.2
  · exact UInt8.toNat_inj.mp split.1

theorem v4_checksum_verifies (header : V4) :
    verifyChecksum (frame.v4Front header ++ (wire16 (frame.v4Checksum header) ++
      v4Back header)) 0 = true := by
  have lengths := header_words_bound header.options
  have front := v4_front_length frame header
  have back := v4_back_length header
  rw [verify_checksum_iff _ _ _ (by decide)]
  · exact checksum_between_same [] _ _ rfl (by rw [front])
  · simp only [List.length_append, front, back, wire16_length]
    omega

theorem v4_total_length {header : V4} (network : frame.network = .v4 header) :
    (frame.v4Header header).totalLength.toNat =
      4 * header.options.headerWords + frame.segmentLen := by
  have bound := counted_bound frame
  simp only [network, Network.countedLen] at bound
  simp only [v4Header, UInt16.toNat_ofNat']
  omega

/-- The IPv4 layer leaves the segment without options and padding. -/
theorem v4_parse_encoded {header : V4} (network : frame.network = .v4 header)
    (out : Ip.V4.Header) (padding : List UInt8) :
    Ip.V4.parse (frame.v4Front header ++ (wire16 (frame.v4Checksum header) ++
        (v4Back header ++ (frame.segment ++ padding)))) out .big true =
      ⟨.none, frame.v4Header header, frame.segment⟩ := by
  have lengths := header_words_bound header.options
  have front := v4_front_length frame header
  have back := v4_back_length header
  have segment := segment_length frame
  have verified := v4_checksum_verifies frame header
  obtain ⟨headerLength, version⟩ := v4_header_length frame header
  have total := v4_total_length frame network
  have length : (frame.v4Front header ++ (wire16 (frame.v4Checksum header) ++
      v4Back header)).length = 4 * header.options.headerWords := by
    simp only [List.length_append, front, back, wire16_length]
    omega
  generalize wire : Ip.V4.Header.ofWire (frame.v4Front header ++
    (wire16 (frame.v4Checksum header) ++ (v4Back header ++ (frame.segment ++ padding)))) = read
  have fields := v4_of_wire frame header (frame.segment ++ padding) wire
  have readVersion : read.versionIhl = (frame.v4Header header).versionIhl := by
    rw [← fields]
  have readLength : read.headerLength = 4 * header.options.headerWords := by
    rw [← headerLength, Ip.V4.Header.headerLength, Ip.V4.Header.ihl, readVersion]
    rfl
  have readSupported : read.version = Ip.V4.supportedVersion := by
    rw [← version, Ip.V4.Header.version, readVersion]
    rfl
  have regrouped : frame.v4Front header ++ (wire16 (frame.v4Checksum header) ++
      (v4Back header ++ (frame.segment ++ padding))) =
        (frame.v4Front header ++ (wire16 (frame.v4Checksum header) ++ v4Back header)) ++
          (frame.segment ++ padding) := by
    simp only [List.append_assoc]
  rw [regrouped] at wire ⊢
  generalize frame.v4Front header ++ (wire16 (frame.v4Checksum header) ++ v4Back header) = head
    at verified length wire ⊢
  have whole : (head ++ (frame.segment ++ padding)).length =
      4 * header.options.headerWords + (frame.segmentLen + padding.length) := by
    simp only [List.length_append, length, segment]
  have checked : (head ++ (frame.segment ++ padding)).take (4 * header.options.headerWords) =
      head := List.take_left' length
  have rest : slice (head ++ (frame.segment ++ padding)) (4 * header.options.headerWords)
      frame.segmentLen = frame.segment := by
    rw [slice_behind _ _ _ _ length.le, length, Nat.sub_self]
    exact slice_append_left _ _ _ segment
  have readTotal : toHost16 read.totalLength .big = (frame.v4Header header).totalLength := by
    rw [← fields]
  rw [readTotal] at fields
  simp only [Ip.V4.parse, wire, readLength, readSupported, checked, verified, fields, readTotal,
    headerLength, total, whole, Ip.V4.minHeaderLen, Ip.V4.maxHeaderLen]
  rw [if_neg (by omega), if_neg (by omega), if_neg (by omega)]
  simp only [ne_eq, not_true_eq_false, if_false, Bool.not_true, Bool.and_false,
    Bool.false_eq_true, Nat.add_sub_cancel_left, rest]
  rw [if_neg (by omega), if_neg (by omega)]

theorem v6_payload_length {header : V6} (network : frame.network = .v6 header) :
    (frame.v6Header header).payloadLength.toNat = frame.segmentLen := by
  have bound := counted_bound frame
  simp only [network, Network.countedLen] at bound
  simp only [v6Header, UInt16.toNat_ofNat']
  omega

theorem v6_version (header : V6) : (frame.v6Header header).version = Ip.V6.supportedVersion := by
  have small := header.small
  have shift : (28 : UInt32).toNat % 32 = 28 := rfl
  apply UInt32.toNat_inj.mp
  rw [Ip.V6.Header.version, UInt32.toNat_shiftRight, shift, Nat.shiftRight_eq_div_pow, v6Header,
    UInt32.toNat_ofNat', show Ip.V6.supportedVersion.toNat = 6 from rfl]
  omega

theorem v6_of_wire (header : V6) (rest : List UInt8) {read : Ip.V6.Header}
    (wire : Ip.V6.Header.ofWire (wire32 (frame.v6Header header).versionTcFl ++
      (wire16 (frame.v6Header header).payloadLength ++
        (frame.transport.protocol :: header.hopLimit :: (header.srcIp.val ++
          (header.dstIp.val ++ rest))))) = read) :
    { read with
      versionTcFl := toHost32 read.versionTcFl .big
      payloadLength := toHost16 read.payloadLength .big } = frame.v6Header header := by
  have src := header.srcIp.property
  have second : slice (header.srcIp.val ++ (header.dstIp.val ++ rest)) 16 16 =
      header.dstIp.val := by
    rw [slice_behind _ _ _ _ src.le, src]
    exact slice_front _ 16 header.dstIp
  rw [← wire]
  simp only [Ip.V6.Header.ofWire, load16_skip32, byte_at_skip16, byte_at_skip32, slice_skip16,
    slice_skip32, slice_skip8, byte_at_cons_succ, byte_at_cons_zero, to_host16_wire,
    to_host32_wire, second, slice_front _ 16 header.srcIp]
  rfl

/-- The IPv6 layer leaves the segment without padding. -/
theorem v6_parse_encoded {header : V6} (network : frame.network = .v6 header)
    (out : Ip.V6.Header) (padding : List UInt8) :
    Ip.V6.parse (wire32 (frame.v6Header header).versionTcFl ++
        (wire16 (frame.v6Header header).payloadLength ++
          (frame.transport.protocol :: header.hopLimit :: (header.srcIp.val ++
            (header.dstIp.val ++ (frame.segment ++ padding)))))) out .big =
      ⟨.none, frame.v6Header header, frame.segment⟩ := by
  have src := header.srcIp.property
  have dst := header.dstIp.property
  have segment := segment_length frame
  have version := v6_version frame header
  have total := v6_payload_length frame network
  generalize wire : Ip.V6.Header.ofWire (wire32 (frame.v6Header header).versionTcFl ++
    (wire16 (frame.v6Header header).payloadLength ++
      (frame.transport.protocol :: header.hopLimit :: (header.srcIp.val ++
        (header.dstIp.val ++ (frame.segment ++ padding)))))) = read
  have fields := v6_of_wire frame header (frame.segment ++ padding) wire
  have consumed : (wire32 (frame.v6Header header).versionTcFl ++
      (wire16 (frame.v6Header header).payloadLength ++
        (frame.transport.protocol :: header.hopLimit :: (header.srcIp.val ++
          (header.dstIp.val ++ (frame.segment ++ padding)))))).drop Ip.V6.headerLen =
            frame.segment ++ padding := by
    have regrouped : wire32 (frame.v6Header header).versionTcFl ++
        (wire16 (frame.v6Header header).payloadLength ++
          (frame.transport.protocol :: header.hopLimit :: (header.srcIp.val ++
            (header.dstIp.val ++ (frame.segment ++ padding))))) =
        (wire32 (frame.v6Header header).versionTcFl ++
          (wire16 (frame.v6Header header).payloadLength ++
            (frame.transport.protocol :: header.hopLimit ::
              (header.srcIp.val ++ header.dstIp.val)))) ++ (frame.segment ++ padding) := by
      simp only [List.append_assoc, List.cons_append]
    rw [regrouped]
    exact List.drop_left' (by simp [src, dst, Ip.V6.headerLen])
  have long : ¬ (wire32 (frame.v6Header header).versionTcFl ++
      (wire16 (frame.v6Header header).payloadLength ++
        (frame.transport.protocol :: header.hopLimit :: (header.srcIp.val ++
          (header.dstIp.val ++ (frame.segment ++ padding)))))).length < Ip.V6.headerLen := by
    simp only [Ip.V6.headerLen, List.length_append, List.length_cons, wire16_length,
      wire32_length, src, dst]
    omega
  have readTotal : toHost16 read.payloadLength .big = (frame.v6Header header).payloadLength := by
    rw [← fields]
  rw [readTotal] at fields
  rw [Ip.V6.parse, if_neg long]
  simp only [wire, consumed, readTotal, fields, version, total, ne_eq, not_true_eq_false, if_false,
    List.length_append, segment]
  rw [if_neg (by omega), ← segment, List.take_left']
  rfl

end Layer3

section Layer4

variable (frame : Frame)

theorem pseudo_header_length (network : Network) (protocol : UInt8) (length : Nat) :
    (network.pseudoHeader protocol length).length % 2 = 0 ∧
      (network.pseudoHeader protocol length).length ≤ 40 := by
  cases network with
  | v4 header => simp [Network.pseudoHeader]
  | v6 header => simp [Network.pseudoHeader, header.srcIp.property, header.dstIp.property]

/-- The transport checksum verifies against the pseudo header it was computed with. -/
theorem segment_verifies (pseudoHeaderSum : UInt64)
    (same : pseudoHeaderSum.toNat =
      wordSum (frame.network.pseudoHeader frame.transport.protocol frame.segmentLen)) :
    verifyChecksum frame.segment pseudoHeaderSum = true := by
  have bound := counted_bound frame
  have length := segment_length frame
  have pseudo := pseudo_header_length frame.network frame.transport.protocol frame.segmentLen
  have small := word_sum_bound
    (frame.network.pseudoHeader frame.transport.protocol frame.segmentLen)
  have even := front_even frame.transport frame.segmentLen
  have completes := checksum_between_same _ _ (frame.transport.back ++ frame.payload) pseudo.1
    even
  rw [verify_checksum_iff _ _ (by omega) (by omega), same]
  rw [word_sum_append _ _ even, word_sum_wire16] at completes
  rw [segment, checksum, List.append_assoc, word_sum_append _ _ even, word_sum_wire16]
  generalize checksumBetween _ _ (frame.transport.back ++ frame.payload) = plain at completes ⊢
  have regroup : ∀ pseudo front back field : Nat,
      pseudo + (front + (field + back)) = pseudo + (front + back) + field := by omega
  rw [regroup] at completes ⊢
  exact sent_same frame.transport _ plain completes

/-- The words of a pseudo header that follow the addresses: the protocol and the length. -/
theorem v4_length_part (protocol : UInt8) {length : Nat} (small : length < 65536) :
    wordSum ([0, protocol] ++ wire16 (UInt16.ofNat length)) = length + protocol.toNat := by
  have alone := word_sum_wire16 (UInt16.ofNat length) []
  rw [List.append_nil, UInt16.toNat_ofNat'] at alone
  rw [word_sum_append _ _ (by simp), alone]
  simp only [wordSum, words, List.sum_cons, List.sum_nil, UInt8.toNat_zero]
  omega

theorem v6_length_part (protocol : UInt8) {length : Nat} (small : length < 65536) :
    wordSum (wire32 (UInt32.ofNat length) ++ [0, 0, 0, protocol]) = length + protocol.toNat := by
  rw [word_sum_wire32, UInt32.toNat_ofNat']
  simp only [wordSum, words, List.sum_cons, List.sum_nil, UInt8.toNat_zero]
  omega

/-- The sum the parsers begin with: the addresses, the length the IP header leaves, and its
protocol. -/
theorem v4_sum_to_nat {header : Ip.V4.Header}
    (covers : header.headerLength ≤ header.totalLength.toNat) :
    (Ip.V4.computePseudoHeaderSum header).toNat =
      wordSum (wire32 header.srcIp ++ wire32 header.dstIp) +
        (header.totalLength.toNat - header.headerLength + header.protocol.toNat) := by
  have src := header.srcIp.toNat_lt
  have dst := header.dstIp.toNat_lt
  have protocol := header.protocol.toNat_lt
  have total := header.totalLength.toNat_lt
  have ihl := header.ihl.toNat_lt
  have mask : (0xFFFF : UInt32).toNat = 2 ^ 16 - 1 := rfl
  have shift : (16 : UInt32).toNat % 32 = 16 := rfl
  have four : (4 : UInt64).toNat = 4 := rfl
  have alone := word_sum_wire32 header.dstIp []
  rw [List.append_nil] at alone
  rw [Ip.V4.Header.headerLength] at covers ⊢
  have left : (header.totalLength.toUInt64 - 4 * header.ihl.toUInt64).toNat =
      header.totalLength.toNat - 4 * header.ihl.toNat := by
    simp only [UInt64.toNat_sub, UInt64.toNat_mul, UInt16.toNat_toUInt64, UInt8.toNat_toUInt64,
      four]
    omega
  rw [word_sum_wire32, alone]
  simp only [Ip.V4.computePseudoHeaderSum, UInt64.toNat_add, left, UInt32.toNat_toUInt64,
    UInt32.toNat_shiftRight, UInt32.toNat_and, UInt8.toNat_toUInt64, mask, shift,
    Nat.and_two_pow_sub_one_eq_mod, Nat.shiftRight_eq_div_pow, wordSum, words, List.sum_nil]
  omega

theorem v4_pseudo_header_sum {header : V4} (network : frame.network = .v4 header) :
    (Ip.V4.computePseudoHeaderSum (frame.v4Header header)).toNat =
      wordSum (frame.network.pseudoHeader frame.transport.protocol frame.segmentLen) := by
  have bound := counted_bound frame
  have total := v4_total_length frame network
  have length := (v4_header_length frame header).1
  rw [v4_sum_to_nat (by omega), total, length, Nat.add_sub_cancel_left, network,
    Network.pseudoHeader, List.append_assoc, word_sum_append (_ ++ _) ([0, _] ++ _) (by simp),
    v4_length_part _ (by omega)]
  rfl

theorem address_sum_to_nat (address : Bytes 16) :
    (Ip.V6.addressSum address.val).toNat = wordSum address.val := by
  have length := address.property
  have loop : ∀ pairs, pairs ≤ 8 →
      let sum := (List.range pairs).foldl (fun sum pair =>
        sum + (((byteAt address.val (2 * pair)).toUInt32 <<< 8) |||
          (byteAt address.val (2 * pair + 1)).toUInt32).toUInt64) (0 : UInt64)
      sum.toNat = wordSum (address.val.take (2 * pairs)) ∧ sum.toNat ≤ pairs * 65535 := by
    intro pairs
    induction pairs with
    | zero => exact fun _ => ⟨by simp [wordSum, words], by simp⟩
    | succ pairs ih =>
        intro inside
        obtain ⟨summed, bound⟩ := ih (by omega)
        have cut := word_sum_take address.val (2 * pairs) 2 (by omega) (by omega)
        have pair := word_sum_pair address.val (2 * pairs) (by omega)
        have high := (byteAt address.val (2 * pairs)).toNat_lt
        have low := (byteAt address.val (2 * pairs + 1)).toNat_lt
        rw [List.range_succ, List.foldl_append, List.foldl_cons, List.foldl_nil,
          show 2 * (pairs + 1) = 2 * pairs + 2 by omega]
        generalize (List.range pairs).foldl _ (0 : UInt64) = sum at *
        simp only [UInt64.toNat_add, pair_to_nat]
        omega
  have whole := (loop 8 le_rfl).1
  rwa [List.take_of_length_le length.le] at whole

theorem v6_sum_to_nat {header : Ip.V6.Header} (srcSized : header.srcIp.length = 16)
    (dstSized : header.dstIp.length = 16) :
    (Ip.V6.computePseudoHeaderSum header).toNat = wordSum (header.srcIp ++ header.dstIp) +
      (header.payloadLength.toNat + header.nextHeader.toNat) := by
  have src := address_sum_to_nat ⟨header.srcIp, srcSized⟩
  have dst := address_sum_to_nat ⟨header.dstIp, dstSized⟩
  have srcSmall := word_sum_bound header.srcIp
  have dstSmall := word_sum_bound header.dstIp
  have length := header.payloadLength.toNat_lt
  have protocol := header.nextHeader.toNat_lt
  rw [word_sum_append _ _ (by rw [srcSized])]
  simp only [Ip.V6.computePseudoHeaderSum, UInt64.toNat_add, src, dst, UInt16.toNat_toUInt64,
    UInt8.toNat_toUInt64]
  omega

theorem v6_pseudo_header_sum {header : V6} (network : frame.network = .v6 header) :
    (Ip.V6.computePseudoHeaderSum (frame.v6Header header)).toNat =
      wordSum (frame.network.pseudoHeader frame.transport.protocol frame.segmentLen) := by
  have bound := counted_bound frame
  have even : (header.srcIp.val ++ header.dstIp.val).length % 2 = 0 := by
    rw [List.length_append, header.srcIp.property, header.dstIp.property]
  have payload : (frame.v6Header header).payloadLength.toNat = frame.segmentLen := by
    rw [v6Header, UInt16.toNat_ofNat']
    omega
  rw [v6_sum_to_nat header.srcIp.property header.dstIp.property, payload, network,
    Network.pseudoHeader, List.append_assoc, word_sum_append _ _ even, v6_length_part _ (by omega)]
  rfl

theorem tcp_of_wire (header : Tcp) (transport : frame.transport = .tcp header)
    {read : PcapAnalyzer.Tcp.Header}
    (wire : PcapAnalyzer.Tcp.Header.ofWire frame.segment = read) :
    { read with
      srcPort := toHost16 read.srcPort .big
      dstPort := toHost16 read.dstPort .big
      seqNumber := toHost32 read.seqNumber .big
      ackNumber := toHost32 read.ackNumber .big
      windowSize := toHost16 read.windowSize .big
      urgentPointer := toHost16 read.urgentPointer .big } = frame.tcpHeader header := by
  rw [← wire]
  simp only [segment, transport, Transport.front, Transport.back, PcapAnalyzer.Tcp.Header.ofWire,
    List.append_assoc, List.cons_append, List.nil_append, byte_at_skip16, byte_at_skip32,
    load16_skip16, load16_skip32, load16_skip8, load32_skip16, load32_skip32, byte_at_cons_succ,
    byte_at_cons_zero, to_host16_bswap16, to_host32_wire, load16_wire]
  rfl

theorem udp_of_wire (header : Udp) (transport : frame.transport = .udp header)
    {read : PcapAnalyzer.Udp.Header}
    (wire : PcapAnalyzer.Udp.Header.ofWire frame.segment = read) :
    ({ srcPort := toHost16 read.srcPort .big
       dstPort := toHost16 read.dstPort .big
       length := toHost16 read.length .big
       checksum := toHost16 read.checksum .big } : PcapAnalyzer.Udp.Header) =
      frame.udpHeader header := by
  rw [← wire]
  simp only [segment, transport, Transport.front, Transport.back, PcapAnalyzer.Udp.Header.ofWire,
    List.append_assoc, List.nil_append, load16_skip16, to_host16_wire]
  rfl

/-- The TCP layer leaves the payload without options. -/
theorem tcp_parse_encoded {header : Tcp} (transport : frame.transport = .tcp header)
    (out : PcapAnalyzer.Tcp.Header) {pseudoHeaderSum : UInt64}
    (same : pseudoHeaderSum.toNat =
      wordSum (frame.network.pseudoHeader frame.transport.protocol frame.segmentLen)) :
    PcapAnalyzer.Tcp.parse frame.segment out frame.segmentLen pseudoHeaderSum .big true =
      ⟨.none, frame.tcpHeader header, frame.payload⟩ := by
  have verified := segment_verifies frame pseudoHeaderSum same
  have length := segment_length frame
  have lengths := header_words_bound header.options
  have split := (nibbles ⟨header.options.headerWords, lengths.1⟩
    ⟨header.reserved, header.small⟩).1
  have headerLength : (frame.tcpHeader header).headerLength = 4 * header.options.headerWords :=
    congrArg (4 * ·) split
  generalize wire : PcapAnalyzer.Tcp.Header.ofWire frame.segment = read
  have fields := tcp_of_wire frame header transport wire
  have readOffset : read.dataOffsetReserved = (frame.tcpHeader header).dataOffsetReserved := by
    rw [← fields]
  have readLength : read.headerLength = 4 * header.options.headerWords := by
    rw [← headerLength, PcapAnalyzer.Tcp.Header.headerLength, PcapAnalyzer.Tcp.Header.dataOffset,
      readOffset]
    rfl
  have counted : frame.segmentLen = 4 * header.options.headerWords + frame.payload.length := by
    rw [segmentLen, transport, Transport.headerLen]
  have rest : frame.segment.drop (4 * header.options.headerWords) = frame.payload := by
    rw [segment, ← List.append_assoc]
    refine List.drop_left' ?_
    simp only [transport, Transport.front, Transport.back, List.length_append, wire16_length,
      wire32_length, List.length_cons, List.length_nil]
    omega
  have whole : frame.segment.take frame.segmentLen = frame.segment := by
    rw [← length, List.take_length]
  simp only [PcapAnalyzer.Tcp.parse, wire, readLength, whole, verified, length, fields,
    headerLength, rest, PcapAnalyzer.Tcp.minHeaderLen, PcapAnalyzer.Tcp.maxHeaderLen]
  rw [if_neg (by omega), if_neg (by omega), if_neg (by omega)]
  rfl

/-- The UDP layer leaves the payload. -/
theorem udp_parse_encoded {header : Udp} (transport : frame.transport = .udp header)
    (out : PcapAnalyzer.Udp.Header) {pseudoHeaderSum : UInt64} (acceptZeroChecksum : Bool)
    (same : pseudoHeaderSum.toNat =
      wordSum (frame.network.pseudoHeader frame.transport.protocol frame.segmentLen)) :
    PcapAnalyzer.Udp.parse frame.segment out pseudoHeaderSum .big acceptZeroChecksum true =
      ⟨.none, frame.udpHeader header, frame.payload⟩ := by
  have verified := segment_verifies frame pseudoHeaderSum same
  have length := segment_length frame
  have bound := counted_bound frame
  generalize wire : PcapAnalyzer.Udp.Header.ofWire frame.segment = read
  have fields := udp_of_wire frame header transport wire
  have total : (frame.udpHeader header).length.toNat = frame.segmentLen := by
    simp only [udpHeader, UInt16.toNat_ofNat']
    omega
  have readTotal : toHost16 read.length .big = (frame.udpHeader header).length := by
    rw [← fields]
  have counted : frame.segmentLen = PcapAnalyzer.Udp.headerLen + frame.payload.length := by
    rw [segmentLen, transport, Transport.headerLen]
  have rest : slice frame.segment PcapAnalyzer.Udp.headerLen
      (frame.segmentLen - PcapAnalyzer.Udp.headerLen) = frame.payload := by
    have beyond : (frame.transport.front frame.segmentLen ++ wire16 frame.checksum).length =
        PcapAnalyzer.Udp.headerLen := by
      simp [transport, Transport.front, PcapAnalyzer.Udp.headerLen]
    rw [segment, slice_behind _ _ _ _ beyond.le, beyond, Nat.sub_self, counted,
      Nat.add_sub_cancel_left, transport]
    simp [Transport.back, slice]
  have whole : frame.segment.take frame.segmentLen = frame.segment := by
    rw [← length, List.take_length]
  rw [readTotal] at fields
  simp only [PcapAnalyzer.Udp.parse, wire, readTotal, total, whole, verified, length, fields, rest]
  rw [if_neg (by omega), if_neg (by omega)]
  simp

end Layer4

section Layers

variable (frame : Frame)

/-- The network layer keeps what the link layer left in the packet and narrows the span to the
segment. -/
theorem decode_layer3_encoded (out : Packet) (padding : List UInt8) :
    decodeLayer3 (frame.networkBytes ++ (frame.segment ++ padding))
        (out.setNetworkFromEthertype frame.network.ethertype) true =
      ⟨.none, ({ out with network := frame.networkHeader } : Packet).setTransportFromProtocol
        frame.transport.protocol, frame.segment⟩ := by
  cases network : frame.network with
  | v4 header =>
      have parsed := v4_parse_encoded frame network {} padding
      simp only [networkBytes, network, List.append_assoc, Packet.setNetworkFromEthertype,
        Network.ethertype, decodeLayer3, networkHeader, parsed, ne_eq, not_true_eq_false, if_false,
        if_true]
      rfl
  | v6 header =>
      have parsed := v6_parse_encoded frame network {} padding
      have plain : Ip.V6.Ext.isExtension (frame.v6Header header).nextHeader = false := by
        simp only [v6Header]
        cases frame.transport <;> rfl
      have notV4 : ¬ Ethernet.ethertypeIpv6 = Ethernet.ethertypeIpv4 := by decide
      simp only [v6Header] at parsed plain
      simp only [networkBytes, network, List.append_assoc, List.cons_append, List.nil_append,
        Packet.setNetworkFromEthertype, Network.ethertype, decodeLayer3, networkHeader, parsed,
        ne_eq, not_true_eq_false, if_false, if_true, notV4, extLoop, plain, v6Header]
      simp

/-- The transport layer leaves the payload. -/
theorem decode_layer4_encoded (out : Packet) (fresh : out.ipv6Ext = [])
    (network : out.network = frame.networkHeader) :
    decodeLayer4 frame.segment (out.setTransportFromProtocol frame.transport.protocol) true =
      ⟨.none, { out with transport := frame.transportHeader }, frame.payload⟩ := by
  have notTcp : ¬ Ip.protocolUdp = Ip.protocolTcp := by decide
  cases version : frame.network with
  | v4 header =>
      have same := v4_pseudo_header_sum frame version
      have total := v4_total_length frame version
      have length := (v4_header_length frame header).1
      simp only [networkHeader, version] at network
      cases transport : frame.transport with
      | tcp tcp =>
          have parsed := tcp_parse_encoded frame transport {} same
          simp only [decodeLayer4, Packet.setTransportFromProtocol, Transport.protocol, network,
            if_true, PcapAnalyzer.Tcp.parseV4, total, length, Nat.add_sub_cancel_left, parsed,
            transportHeader, transport]
      | udp udp =>
          have parsed := udp_parse_encoded frame transport {} true same
          simp only [decodeLayer4, Packet.setTransportFromProtocol, Transport.protocol, network,
            notTcp, if_true, if_false, PcapAnalyzer.Udp.parseV4, parsed, transportHeader,
            transport]
  | v6 header =>
      have same := v6_pseudo_header_sum frame version
      have total := v6_payload_length frame version
      simp only [networkHeader, version] at network
      cases transport : frame.transport with
      | tcp tcp =>
          have parsed := tcp_parse_encoded frame transport {} same
          simp only [decodeLayer4, Packet.setTransportFromProtocol, Transport.protocol, network,
            fresh, ne_eq, not_true_eq_false, if_true, if_false, PcapAnalyzer.Tcp.parseV6, total,
            parsed, transportHeader, transport]
      | udp udp =>
          have parsed := udp_parse_encoded frame transport {} false same
          simp only [decodeLayer4, Packet.setTransportFromProtocol, Transport.protocol, network,
            fresh, ne_eq, not_true_eq_false, notTcp, if_true, if_false,
            PcapAnalyzer.Udp.parseV6, parsed, transportHeader, transport]

end Layers

/-- Layers that all succeed. -/
theorem decode_packet_layers {span span2 span3 span4 : List UInt8} {out out2 out3 out4 : Packet}
    (layer2 : decodeLayer2 span out = ⟨.none, out2, span2⟩)
    (layer3 : decodeLayer3 span2 out2 true = ⟨.none, out3, span3⟩) (ip : out3.isArp = false)
    (layer4 : decodeLayer4 span3 out3 true = ⟨.none, out4, span4⟩) :
    decodePacket span out true = ⟨.none, { out4 with payload := span4 }, span4⟩ := by
  simp [decodePacket, layer2, layer3, ip, layer4]

theorem network_header_not_arp (frame : Frame) (out : Packet) :
    (({ out with network := frame.networkHeader } : Packet).setTransportFromProtocol
      frame.transport.protocol).isArp = false := by
  cases network : frame.network <;>
    simp [networkHeader, network, Packet.isArp, Packet.setTransportFromProtocol]

/-- Decoding an encoded frame with its checksums verified gives back what was encoded: the
headers, the list of tags and exactly the payload. -/
theorem decode_packet_encode (frame : Frame) (pkt : Packet) (header : Ethernet.Header) :
    decodePacket frame.encode ({ pkt with datalink := .ethernet header } : Packet).reset true =
      ⟨.none, frame.packet, frame.payload⟩ := by
  have wire : frame.encode = frame.dstMac.val ++ (frame.srcMac.val ++
      (wire16 (outerType frame.tags frame.network.ethertype) ++
        (tagBytes frame.tags frame.network.ethertype ++
          (frame.networkBytes ++ (frame.segment ++ frame.padding))))) := by
    simp only [encode, List.append_assoc]
  have layer2 := decode_layer2_encoded frame header
    ({ pkt with datalink := .ethernet header } : Packet).reset rfl rfl
    (frame.networkBytes ++ (frame.segment ++ frame.padding))
  rw [wire]
  exact decode_packet_layers layer2 (decode_layer3_encoded frame _ frame.padding)
    (network_header_not_arp frame _)
    (decode_layer4_encoded frame _ rfl rfl)

/-- A datagram behind two tags and a header with options. -/
def taggedQuery : Frame where
  dstMac := ⟨[2, 0, 0, 0, 0, 1], rfl⟩
  srcMac := ⟨[2, 0, 0, 0, 0, 2], rfl⟩
  tags := [{ double := true, tci := 0x2005, notReserved := by decide },
    { double := false, tci := 7, notReserved := by decide }]
  tagsFit := by decide
  network := .v4 {
    tos := 0
    identification := 1
    flagsFragment := 0x4000
    unfragmented := by decide
    ttl := 64
    srcIp := 0x0A000001
    dstIp := 0x0A000002
    options := { bytes := [1, 1, 1, 0], aligned := rfl, fits := by decide } }
  transport := .udp { srcPort := 5000, dstPort := 53, zeroAsOnes := true }
  payload := [7]
  fits := by decide
  padding := [0, 0]

example : taggedQuery.encode = [2, 0, 0, 0, 0, 1, 2, 0, 0, 0, 0, 2, 0x88, 0xA8, 0x20, 5,
    0x81, 0, 0, 7, 8, 0, 0x46, 0, 0, 33, 0, 1, 0x40, 0, 64, 17, 35, 200, 10, 0, 0, 1, 10, 0, 0, 2,
    1, 1, 1, 0, 0x13, 0x88, 0, 53, 0, 9, 0xD1, 0x1C, 7, 0, 0] := by
  decide +kernel

theorem decode_packet_encode_tagged :
    let read := decodePacket taggedQuery.encode ({ datalink := .ethernet {} } : Packet).reset true
    read.err = .none ∧
      read.header.vlanTags = [{ tci := 0x2005, ethertype := 0x8100 },
        { tci := 7, ethertype := 0x0800 }] ∧
      read.header.transport =
        .udp { srcPort := 5000, dstPort := 53, length := 9, checksum := 0xD11C } ∧
      read.span = [7] := by
  intro read
  have decoded : read = _ := decode_packet_encode taggedQuery {} {}
  have checksum : taggedQuery.checksum = 0xD11C := by decide +kernel
  rw [decoded]
  refine ⟨rfl, by decide, ?_, rfl⟩
  simp only [packet, transportHeader, udpHeader, checksum]
  rfl

end Frame

end PcapAnalyzer
