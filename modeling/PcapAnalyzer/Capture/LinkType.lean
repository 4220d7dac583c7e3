import PcapAnalyzer.Capture.DecodeCalls
import PcapAnalyzer.Capture.FileEncoding

/-!
# The link type of a capture

The file header is accepted by the low 28 bits of the link type; the packets are given
their data link by the whole word. Only the layer below Ethernet reports an unsupported
link type, so the two agree exactly where the word has no other bit.
-/

namespace PcapAnalyzer

open Pcap (Capture)

set_option autoImplicit false

section Errors

/-- A check with another error in front of a parser without this one. -/
theorem Parsed.guarded {Header : Type} {check : Prop} [Decidable check] {err kind : ParseError}
    {before : Header} {span : List UInt8} {parsed : Parsed Header} (other : err ≠ kind)
    (later : parsed.err ≠ kind) :
    (if check then ⟨err, before, span⟩ else parsed : Parsed Header).err ≠ kind := by
  by_cases failed : check
  · rw [if_pos failed]
    exact other
  · rw [if_neg failed]
    exact later

variable (span : List UInt8) (verify : Bool)

theorem vlan_loop_link (fuel : Nat) (out : Packet) (ethertype : UInt16) :
    (vlanLoop fuel span out ethertype).1 ≠ .unsupportedLinktype := by
  induction fuel generalizing span out ethertype with
  | zero => simp [vlanLoop]
  | succ fuel ih =>
      have tag : (Vlan.parse span {} .big).err ≠ .unsupportedLinktype := by
        unfold Vlan.parse
        repeat refine Parsed.guarded (by decide) ?_
        exact ParseError.noConfusion
      simp only [vlanLoop]
      split_ifs
      · simp
      · exact tag
      · exact ih _ _ _
      · simp

/-- With an Ethernet data link the link type is supported. -/
theorem decode_layer2_link (out : Packet) (header : Ethernet.Header)
    (link : out.datalink = .ethernet header) :
    (decodeLayer2 span out).err ≠ .unsupportedLinktype := by
  have parsed : (Ethernet.parse span header .big).err ≠ .unsupportedLinktype := by
    unfold Ethernet.parse
    refine Parsed.guarded (by decide) ?_
    exact ParseError.noConfusion
  simp only [decodeLayer2, link]
  split_ifs
  · exact parsed
  · exact vlan_loop_link _ _ _ _
  · simp

theorem ext_loop_link (fuel : Nat) (out : Packet) (nextHeader : UInt8) :
    (extLoop fuel span out nextHeader).1 ≠ .unsupportedLinktype := by
  induction fuel generalizing span out nextHeader with
  | zero => simp [extLoop]
  | succ fuel ih =>
      have parsed : Ip.V6.Ext.parse span nextHeader .big ≠ .error .unsupportedLinktype := by
        unfold Ip.V6.Ext.parse
        simp only
        split_ifs <;> simp
      simp only [extLoop]
      split_ifs
      · simp
      · simp
      · cases read : Ip.V6.Ext.parse span nextHeader .big with
        | error err =>
            rw [read] at parsed
            simpa using parsed
        | ok result =>
            simp only
            split_ifs
            · simp
            · exact ih _ _ _
      · simp

theorem decode_layer3_link (out : Packet) :
    (decodeLayer3 span out verify).err ≠ .unsupportedLinktype := by
  cases network : out.network with
  | monostate => simp [decodeLayer3, network]
  | v4 header =>
      have parsed : (Ip.V4.parse span header .big verify).err ≠ .unsupportedLinktype := by
        unfold Ip.V4.parse
        repeat refine Parsed.guarded (by decide) ?_
        exact ParseError.noConfusion
      simp only [decodeLayer3, network]
      split_ifs
      · exact parsed
      · simp
  | v6 header =>
      have parsed : (Ip.V6.parse span header .big).err ≠ .unsupportedLinktype := by
        unfold Ip.V6.parse
        repeat refine Parsed.guarded (by decide) ?_
        exact ParseError.noConfusion
      simp only [decodeLayer3, network]
      split_ifs
      · exact parsed
      · exact ext_loop_link _ _ _ _
      · simp
      · simp
  | arp header =>
      simp only [decodeLayer3, network]
      unfold Arp.parse
      repeat refine Parsed.guarded (by decide) ?_
      exact ParseError.noConfusion

theorem tcp_parse_link (header : Tcp.Header) (length : Nat) (sum : UInt64) (endian : Endian) :
    (Tcp.parse span header length sum endian verify).err ≠ .unsupportedLinktype := by
  unfold Tcp.parse
  repeat refine Parsed.guarded (by decide) ?_
  exact ParseError.noConfusion

theorem udp_parse_link (header : Udp.Header) (sum : UInt64) (endian : Endian)
    (acceptZeroChecksum : Bool) :
    (Udp.parse span header sum endian acceptZeroChecksum verify).err ≠ .unsupportedLinktype := by
  unfold Udp.parse
  repeat refine Parsed.guarded (by decide) ?_
  exact ParseError.noConfusion

theorem icmp_parse_link (header : Icmp.Header) (endian : Endian) :
    (Icmp.parse span header endian verify).err ≠ .unsupportedLinktype := by
  unfold Icmp.parse
  repeat refine Parsed.guarded (by decide) ?_
  exact ParseError.noConfusion

theorem icmpv6_parse_link (header : Icmpv6.Header) (ip : Ip.V6.Header) (endian : Endian) :
    (Icmpv6.parse span header ip endian verify).err ≠ .unsupportedLinktype := by
  unfold Icmpv6.parse
  repeat refine Parsed.guarded (by decide) ?_
  exact ParseError.noConfusion

theorem decode_layer4_link (out : Packet) :
    (decodeLayer4 span out verify).err ≠ .unsupportedLinktype := by
  cases network : out.network with
  | monostate => simp [decodeLayer4, network]
  | arp header => simp [decodeLayer4, network]
  | v4 ip =>
      cases transport : out.transport with
      | tcp header =>
          simp only [decodeLayer4, network, transport]
          exact tcp_parse_link _ _ _ _ _ _
      | udp header =>
          simp only [decodeLayer4, network, transport]
          exact udp_parse_link _ _ _ _ _ _
      | icmp header =>
          simp only [decodeLayer4, network, transport]
          exact icmp_parse_link _ _ _ _
      | icmpv6 header => simp [decodeLayer4, network, transport]
      | monostate => simp [decodeLayer4, network, transport]
  | v6 fixed =>
      cases transport : out.transport with
      | tcp header =>
          simp only [decodeLayer4, network, transport]
          exact tcp_parse_link _ _ _ _ _ _
      | udp header =>
          simp only [decodeLayer4, network, transport]
          exact udp_parse_link _ _ _ _ _ _
      | icmp header => simp [decodeLayer4, network, transport]
      | icmpv6 header =>
          simp only [decodeLayer4, network, transport]
          exact icmpv6_parse_link _ _ _ _ _
      | monostate => simp [decodeLayer4, network, transport]

theorem decode_packet_link (out : Packet) (header : Ethernet.Header)
    (link : out.datalink = .ethernet header) :
    (decodePacket span out verify).err ≠ .unsupportedLinktype := by
  unfold decodePacket
  simp only
  split_ifs
  · exact decode_layer2_link _ _ _ link
  · exact decode_layer3_link _ _ _
  · exact decode_layer3_link _ _ _
  · exact decode_layer4_link _ _ _
  · simp

end Errors

namespace Decoder

theorem decode_capture_link (decoder : Decoder) (capture : Capture) :
    (decoder.decodeCapture capture).1 ≠ .unsupportedLinktype := by
  have added : (decoder.flowTable.addPacket capture).1.err ≠ .unsupportedLinktype := by
    unfold FlowTable.addPacket
    by_cases arp : capture.pkt.isArp = true
    · simp [arp]
    · cases key : FlowTable.keyFromPacket capture.pkt {} with
      | ok key => simp [arp, FlowTable.addToFlow]
      | error err =>
          unfold FlowTable.keyFromPacket at key
          simp only [arp]
          cases network : FlowTable.setNetwork capture.pkt.network {} with
          | none =>
              rw [network] at key
              cases key
              simp
          | some out =>
              rw [network] at key
              cases transport : FlowTable.setPorts capture.pkt.transport out with
              | none =>
                  simp only [transport] at key
                  cases key
                  simp
              | some out =>
                  simp only [transport] at key
                  cases key
  simp only [decodeCapture]
  split_ifs
  · simp
  · exact added
  · simp
  · simp

/-- `decode` reports an unsupported link type exactly for a packet without a data link. -/
theorem decode_link (decoder : Decoder) (span : List UInt8) (capture : Capture)
    (linktype : UInt32) (link : capture.pkt.datalink =
      (({} : Packet).setDatatypeFromLinktype linktype).datalink) :
    (decoder.decode span capture).1 = .unsupportedLinktype ↔
      linktype ≠ Packet.linktypeEthernet := by
  have kept : capture.pkt.reset.datalink = capture.pkt.datalink := rfl
  by_cases ethernet : linktype = Packet.linktypeEthernet
  · have header : capture.pkt.reset.datalink = .ethernet {} := by
      rw [kept, link, Packet.setDatatypeFromLinktype, if_pos ethernet]
    have parsed := decode_packet_link span decoder.config.verifyChecksum capture.pkt.reset {} header
    refine ⟨fun failed => absurd failed ?_, fun other => absurd ethernet other⟩
    simp only [decode]
    split_ifs
    · exact parsed
    · exact decode_capture_link _ _
  · have header : capture.pkt.reset.datalink = .monostate := by
      rw [kept, link, Packet.setDatatypeFromLinktype, if_neg ethernet]
    refine ⟨fun _ => ethernet, fun _ => ?_⟩
    simp [decode, decodePacket, decodeLayer2, header]

end Decoder

namespace Pcap

/-- The same capture with another link type in its file header. -/
def withLinktype (data : List UInt8) (endian : Endian) (linktype : UInt32) : List UInt8 :=
  data.take 20 ++ (store32 linktype endian ++ data.drop fileHeaderLen)

/-- Storing what was loaded writes the same bytes. -/
theorem store32_load (b0 b1 b2 b3 : UInt8) (endian : Endian) :
    store32 (toHost32 (load32 [b0, b1, b2, b3] 0) endian) endian = [b0, b1, b2, b3] := by
  have h0 := b0.toNat_lt
  have h1 := b1.toNat_lt
  have h2 := b2.toNat_lt
  have h3 := b3.toNat_lt
  cases endian with
  | big =>
      have value := to_host32_load [b0, b1, b2, b3] 0
      simp only [byte_at_cons_zero, byte_at_cons_succ] at value
      simp only [store32, wire32, value, List.cons.injEq, ← UInt8.toNat_inj, UInt8.toNat_ofNat',
        and_true]
      omega
  | little =>
      have value := load32_to_nat [b0, b1, b2, b3] 0
      simp only [byte_at_cons_zero, byte_at_cons_succ] at value
      simp only [store32, wire32, toHost32, value, List.reverse_cons, List.reverse_nil,
        List.nil_append, List.cons_append, List.cons.injEq, ← UInt8.toNat_inj,
        UInt8.toNat_ofNat', reduceCtorEq, if_false, and_true]
      omega

theorem four_bytes : ∀ span : List UInt8, 4 ≤ span.length →
    ∃ b0 b1 b2 b3 rest, span = b0 :: b1 :: b2 :: b3 :: rest
  | b0 :: b1 :: b2 :: b3 :: rest, _ => ⟨b0, b1, b2, b3, rest, rfl⟩
  | [], long | [_], long | [_, _], long | [_, _, _], long => by simp at long

theorem with_linktype_self (data : List UInt8) (endian : Endian)
    (long : fileHeaderLen ≤ data.length) :
    withLinktype data endian (toHost32 (load32 data 20) endian) = data := by
  simp only [fileHeaderLen] at long
  obtain ⟨b0, b1, b2, b3, rest, split⟩ := four_bytes (data.drop 20)
    (by rw [List.length_drop]; omega)
  have joined : data.take 20 ++ (b0 :: b1 :: b2 :: b3 :: rest) = data := by
    rw [← split, List.take_append_drop]
  have start : (data.take 20).length = 20 := by
    rw [List.length_take]
    omega
  have loaded : load32 data 20 = load32 [b0, b1, b2, b3] 0 := by
    have shifted := load32_shift (data.take 20) (b0 :: b1 :: b2 :: b3 :: rest)
    rw [joined, start] at shifted
    rw [shifted]
    simp only [load32, byte_at_cons_zero, byte_at_cons_succ]
  have after : data.drop fileHeaderLen = rest := by
    have more : data.drop fileHeaderLen = (data.drop 20).drop 4 := by rw [List.drop_drop]; rfl
    rw [more, split]
    rfl
  rw [withLinktype, loaded, store32_load, after]
  exact joined

/-- What the parser makes of a file it accepts. -/
theorem parse_file_header_ok (data : List UInt8) (header : FileHeader) (endian : Endian)
    (accepted : (parseFileHeader data header endian).1.err = .none) :
    fileHeaderLen ≤ data.length ∧
      ∃ order, magicEndian (loadFileHeader data).magicNumber = some order ∧
        toHost16 (loadFileHeader data).majorVersion order = supportedMajorVersion ∧
        toHost16 (loadFileHeader data).minorVersion order = supportedMinorVersion ∧
        toHost32 (loadFileHeader data).snaplen order ≠ 0 ∧
        parseFileHeader data header endian =
          (⟨.none, (loadFileHeader data).toHost order, data.drop fileHeaderLen⟩, order) := by
  unfold parseFileHeader at accepted ⊢
  by_cases short : data.length < fileHeaderLen
  · simp [short] at accepted
  refine ⟨by omega, ?_⟩
  cases magic : magicEndian (loadFileHeader data).magicNumber with
  | none => simp [short, magic] at accepted
  | some order =>
      simp only [short, if_false, magic] at accepted ⊢
      split_ifs at accepted ⊢ with version snaplen
      rw [not_or, not_ne_iff, not_ne_iff] at version
      exact ⟨order, rfl, version.1, version.2, snaplen, rfl⟩

/-- The file with an Ethernet link type is accepted too, and goes on with the same records. -/
theorem parse_with_linktype (data : List UInt8) (header : FileHeader) (endian : Endian)
    (accepted : (parseFileHeader data header endian).1.err = .none) :
    let order := (parseFileHeader data header endian).2
    let parsed := parseFileHeader (withLinktype data order Packet.linktypeEthernet) header endian
    parsed.1.err = .none ∧ parsed.2 = order ∧
      parsed.1.span = (parseFileHeader data header endian).1.span := by
  obtain ⟨long, order, magic, major, minor, snaplen, parsed⟩ :=
    parse_file_header_ok data header endian accepted
  have start : (data.take 20).length = 20 := by
    rw [List.length_take]
    simp only [fileHeaderLen] at long
    omega
  have before : ∀ i < 20, byteAt (withLinktype data order Packet.linktypeEthernet) i =
      byteAt data i := by
    intro i inside
    have joined := byte_at_append_left (data.take 20) (data.drop 20) i (by omega)
    rw [List.take_append_drop] at joined
    rw [joined]
    exact byte_at_append_left _ _ i (by omega)
  have linktype : toHost32 (load32 (withLinktype data order Packet.linktypeEthernet) 20) order =
      Packet.linktypeEthernet := to_host32_store _ _ _ _ _ start
  have sameHeader : loadFileHeader (withLinktype data order Packet.linktypeEthernet) =
      { loadFileHeader data with
        linktype := load32 (withLinktype data order Packet.linktypeEthernet) 20 } := by
    simp only [loadFileHeader, FileHeader.mk.injEq, and_true]
    refine ⟨?_, ?_, ?_, ?_, ?_, ?_⟩ <;>
      simp only [load32, load16] <;> simp (disch := decide) only [before]
  have longToo : ¬ (withLinktype data order Packet.linktypeEthernet).length < fileHeaderLen := by
    simp only [withLinktype, List.length_append, start, store32_length, fileHeaderLen]
    omega
  have after : (withLinktype data order Packet.linktypeEthernet).drop fileHeaderLen =
      data.drop fileHeaderLen := by
    rw [withLinktype, ← List.append_assoc]
    exact List.drop_left' (by rw [List.length_append, start, store32_length]; rfl)
  have masked : ¬ Packet.linktypeEthernet &&& (0x0FFFFFFF : UInt32) ≠ Packet.linktypeEthernet := by
    decide
  rw [parsed] at accepted ⊢
  simp only [parseFileHeader, if_neg longToo, sameHeader, magic, FileHeader.toHost, linktype, after,
    major, minor, if_neg snaplen, ne_eq, not_true_eq_false, or_self, if_false]
  rw [if_neg masked]
  exact ⟨rfl, rfl, rfl⟩

namespace Reader

def decodedPackets (reader : Reader) : List Packet :=
  reader.decodeCalls.filterMap DecodeCall.decoded

theorem call_link (reader : Reader) (record : Record) :
    (callOf reader.decoder record.packet (reader.captureOf record)).err = .unsupportedLinktype ↔
      reader.fileHeader.linktype ≠ Packet.linktypeEthernet :=
  reader.decoder.decode_link record.packet (reader.captureOf record) reader.fileHeader.linktype rfl

theorem calls_for_link (reader : Reader) (records : List Record) :
    (∀ call ∈ reader.callsFor records, call.err ≠ .unsupportedLinktype) ↔
      reader.fileHeader.linktype = Packet.linktypeEthernet ∨ records = [] := by
  induction records generalizing reader with
  | nil => simp [callsFor]
  | cons record records ih =>
      have frame := deliver_frame reader record
      have later := ih (reader.deliver record).2
      have first := call_link reader record
      rw [frame.2.2.2.2] at later
      simp only [callsFor, List.mem_cons, forall_eq_or_imp, later, ne_eq, first, not_not,
        reduceCtorEq, or_false]
      exact ⟨fun both => both.1, fun ethernet => ⟨ethernet, Or.inl ethernet⟩⟩

theorem new_accepted (data : List UInt8) (config : Config)
    (accepted : (parseFileHeader data {} .little).1.err = .none) :
    (new data config).headerErr = .none ∧
      (new data config).span = (parseFileHeader data {} .little).1.span ∧
      (new data config).endian = (parseFileHeader data {} .little).2 ∧
      (new data config).fileHeader = (parseFileHeader data {} .little).1.header ∧
      (new data config).decoder = Decoder.new config := by
  have long := (parse_file_header_ok data {} .little accepted).1
  simp only [new, readFileHeader, if_neg (Nat.not_lt.mpr long), accepted, ne_eq,
    not_true_eq_false, if_false, and_self]

/-- An accepted capture is decoded as an Ethernet capture exactly if no other bit of its link
type is set or it holds no complete record. -/
theorem decoded_as_accepted_iff (config : Config) (data : List UInt8)
    (accepted : (parseFileHeader data {} .little).1.err = .none) :
    let reader := new data config
    let ethernet := new (withLinktype data reader.endian Packet.linktypeEthernet) config
    ((∀ call ∈ reader.decodeCalls, call.err ≠ .unsupportedLinktype) ∧
        reader.decodedPackets = ethernet.decodedPackets ∧
        reader.readAllPackets.decoder = ethernet.readAllPackets.decoder) ↔
      (reader.fileHeader.linktype = Packet.linktypeEthernet ∨
        (completeRecords reader.endian reader.span).1 = []) := by
  intro reader ethernet
  obtain ⟨valid, span, endian, header, decoder⟩ := new_accepted data config accepted
  have cut := complete_records_cut reader.endian reader.span
  have calls := decode_calls_cut cut reader valid rfl rfl
  have link := calls_for_link reader (completeRecords reader.endian reader.span).1
  rw [← calls] at link
  rw [← link]
  refine ⟨fun all => all.1, fun supported => ⟨supported, ?_⟩⟩
  rcases link.mp supported with exact | none
  · obtain ⟨long, order, _, _, _, _, parsed⟩ := parse_file_header_ok data {} .little accepted
    have word : toHost32 (load32 data 20) reader.endian = Packet.linktypeEthernet := by
      rw [← exact]
      simp only [reader, header, endian, parsed]
      rfl
    have same : withLinktype data reader.endian Packet.linktypeEthernet = data := by
      rw [← word]
      exact with_linktype_self data reader.endian long
    have twin : ethernet = reader := by
      simp only [ethernet, same, reader]
    rw [twin]
    exact ⟨rfl, rfl⟩
  · obtain ⟨acceptedToo, sameEndian, sameSpan⟩ := parse_with_linktype data {} .little accepted
    rw [← endian] at acceptedToo sameEndian sameSpan
    obtain ⟨validToo, spanToo, endianToo, _, decoderToo⟩ := new_accepted
      (withLinktype data reader.endian Packet.linktypeEthernet) config acceptedToo
    have cutToo : Cut ethernet.endian ethernet.span []
        (completeRecords reader.endian reader.span).2 := by
      have whole := cut
      rw [none] at whole
      rw [endianToo, sameEndian, spanToo, sameSpan, ← span]
      exact whole
    rw [none] at calls cut
    have delivered := read_all_delivers cut reader valid rfl rfl
    have deliveredToo := read_all_delivers cutToo ethernet validToo rfl rfl
    have callsToo := decode_calls_cut cutToo ethernet validToo rfl rfl
    refine ⟨?_, ?_⟩
    · rw [decodedPackets, decodedPackets, calls, callsToo]
      rfl
    · rw [delivered.1, deliveredToo.1]
      exact decoder.trans decoderToo.symm

/-- One ARP request in a little-endian capture whose link type word is the given one. -/
def arpCapture (linktype : UInt32) : List UInt8 :=
  [0xd4, 0xc3, 0xb2, 0xa1, 2, 0, 4, 0, 0, 0, 0, 0, 0, 0, 0, 0, 0, 0, 1, 0] ++
    store32 linktype .little ++
    [1, 0, 0, 0, 2, 0, 0, 0, 42, 0, 0, 0, 42, 0, 0, 0] ++
    [255, 255, 255, 255, 255, 255, 2, 0, 0, 0, 0, 1, 8, 6,
      0, 1, 8, 0, 6, 4, 0, 1, 2, 0, 0, 0, 0, 1, 10, 0, 0, 1, 0, 0, 0, 0, 0, 0, 10, 0, 0, 2]

theorem decoded_as_accepted_iff_arp :
    let reader := new (arpCapture 1) {}
    (∀ call ∈ reader.decodeCalls, call.err ≠ .unsupportedLinktype) ∧
      reader.decodeCalls.map DecodeCall.err = [.none] :=
  ⟨((decoded_as_accepted_iff {} (arpCapture 1) (by decide)).mpr (Or.inl (by decide))).1,
    by decide +kernel⟩

/-- A bit of the top nibble is accepted with the file, and every packet is then skipped. -/
theorem masked_linktype_is_skipped :
    let data := arpCapture 0x10000001
    let reader := new data {}
    (parseFileHeader data {} .little).1.err = .none ∧
      withLinktype data reader.endian Packet.linktypeEthernet = arpCapture 1 ∧
      reader.decodeCalls.map DecodeCall.err = [.unsupportedLinktype] ∧
      reader.decodedPackets.length = 0 ∧
      (new (arpCapture 1) {}).decodedPackets.length = 1 := by
  decide +kernel

end Reader

end Pcap

end PcapAnalyzer
