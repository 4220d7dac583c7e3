import PcapAnalyzer.Capture.DecodeCalls
import PcapAnalyzer.Capture.FileEncoding

/-!
# Reading back what was written

Every written file is cut into exactly its records, and a file that ends early into the
first of them. What the decoder is handed depends on the frames and their times, not on
the byte order or the time resolution in which they were written.
-/

namespace PcapAnalyzer.Decoder

open Pcap (Capture)

set_option autoImplicit false

/-- Of the record header only the captured length is read. -/
theorem decode_capture_alike (decoder : Decoder) {left right : Capture}
    (tsUs : left.tsUs = right.tsUs) (pkt : left.pkt = right.pkt)
    (inclLen : left.packetHeader.inclLen = right.packetHeader.inclLen) :
    decoder.decodeCapture left = decoder.decodeCapture right := by
  have counted : ∀ flow isReverse, FlowTable.countPacket flow isReverse left =
      FlowTable.countPacket flow isReverse right := by
    intro flow isReverse
    simp only [FlowTable.countPacket, tsUs, inclLen]
  have added : decoder.flowTable.addPacket left = decoder.flowTable.addPacket right := by
    simp only [FlowTable.addPacket, FlowTable.addToFlow, tsUs, pkt, inclLen, counted]
  have polled : ∀ (state : Decoder) (key : FlowKey) (isNew : Bool),
      state.decodeFlow left key isNew = state.decodeFlow right key isNew := by
    intro state key isNew
    simp only [decodeFlow, pkt]
  simp only [decodeCapture, added, polled, pkt]

theorem decode_alike (decoder : Decoder) (span : List UInt8) {left right : Capture}
    (tsUs : left.tsUs = right.tsUs) (pkt : left.pkt = right.pkt)
    (inclLen : left.packetHeader.inclLen = right.packetHeader.inclLen) :
    (decoder.decode span left).1 = (decoder.decode span right).1 ∧
      (decoder.decode span left).2.1.pkt = (decoder.decode span right).2.1.pkt ∧
      (decoder.decode span left).2.2 = (decoder.decode span right).2.2 := by
  simp only [decode, pkt]
  generalize decodePacket span right.pkt.reset decoder.config.verifyChecksum = parsed
  by_cases failed : parsed.err ≠ .none
  · simp [failed]
  · have same : decoder.decodeCapture { left with pkt := parsed.header } =
        decoder.decodeCapture { right with pkt := parsed.header } :=
      decoder.decode_capture_alike tsUs rfl inclLen
    simp [failed, same]

end PcapAnalyzer.Decoder

namespace PcapAnalyzer.Pcap

set_option autoImplicit false

namespace FileFormat

section Cut

variable (format : FileFormat) (entry : Entry) (rest : List UInt8)

theorem incl_len_of_entry (entry : Entry) :
    (headerOf entry).inclLen.toNat = entry.frame.length := by
  have bound := entry.origLen.toNat_lt
  have captured := entry.captured
  rw [headerOf, UInt32.toNat_ofNat']
  omega

@[simp] theorem encode_entry_length :
    (format.encodeEntry entry).length = packetHeaderLen + entry.frame.length := by
  simp [encodeEntry]

theorem splits_encoded :
    Splits format.endian (format.encodeEntry entry ++ rest) (format.recordOf entry) rest := by
  have inclLen := incl_len_of_entry entry
  have nonempty := entry.nonempty
  have captured := entry.captured
  have loaded : loadPacketHeader (format.encodeEntry entry ++ rest) format.endian =
      headerOf entry := by
    rw [encodeEntry, List.append_assoc]
    exact format.load_encoded_packet_header (headerOf entry) (entry.frame ++ rest)
  have size : (format.encodeEntry entry).length =
      packetHeaderLen + (headerOf entry).inclLen.toNat := by
    rw [encode_entry_length, inclLen]
  have long : ¬ (format.encodeEntry entry ++ rest).length < packetHeaderLen := by
    rw [List.length_append]
    omega
  have present : ¬ ((headerOf entry).inclLen = 0 ∨ (headerOf entry).origLen = 0) := by
    have origLen : (headerOf entry).origLen = entry.origLen := rfl
    have zeroNat : (0 : UInt32).toNat = 0 := rfl
    rintro (zero | zero)
    · rw [zero, zeroNat] at inclLen
      omega
    · rw [← origLen, zero, zeroNat] at captured
      omega
  have within : ¬ (headerOf entry).inclLen > (headerOf entry).origLen := by
    rw [gt_iff_lt, UInt32.lt_iff_toNat_lt, inclLen]
    exact Nat.not_lt.mpr captured
  exact {
    valid := by simp only [parsePacketHeader, if_neg long, loaded, if_neg present, if_neg within]
    header := loaded.symm
    raw := (List.take_left' size).symm
    packet := by
      rw [encodeEntry, List.append_assoc,
        List.drop_left' (format.encode_packet_header_length (headerOf entry))]
      exact (List.take_left' inclLen.symm).symm
    rest := (List.drop_left' size).symm
    complete := by
      have same : (format.recordOf entry).header = headerOf entry := rfl
      rw [same, List.length_append, size]
      omega }

theorem split_record_nil (endian : Endian) : splitRecord endian [] = none := rfl

theorem cut_encoded (entries : List Entry) :
    Cut format.endian (format.encodeEntries entries) (entries.map format.recordOf) [] := by
  induction entries with
  | nil => exact .stop (split_record_nil format.endian)
  | cons entry entries ih =>
      exact .next (format.splits_encoded entry (format.encodeEntries entries)).split ih

/-- A record that ends early is no record. -/
theorem split_record_early (count : Nat) (early : count < (format.encodeEntry entry).length) :
    splitRecord format.endian ((format.encodeEntry entry).take count) = none := by
  cases split : splitRecord format.endian ((format.encodeEntry entry).take count) with
  | none => rfl
  | some found =>
      rcases found with ⟨record, tail⟩
      exfalso
      have splits := split_record_some split
      have complete := splits.complete
      rw [encode_entry_length] at early
      rw [List.length_take, encode_entry_length] at complete
      have header : record.header = headerOf entry := by
        have whole := (format.splits_encoded entry []).header
        have joined : loadPacketHeader ((format.encodeEntry entry).take count ++
            (format.encodeEntry entry).drop count) format.endian =
              loadPacketHeader ((format.encodeEntry entry).take count) format.endian :=
          load_packet_header_append _ _ (by rw [List.length_take, encode_entry_length]; omega)
        rw [List.take_append_drop] at joined
        rw [List.append_nil] at whole
        rw [splits.header, ← joined, ← whole]
        rfl
      rw [header, incl_len_of_entry] at complete
      omega

theorem cut_truncated (entries : List Entry) (count : Nat) :
    ∃ kept tail, Cut format.endian ((format.encodeEntries entries).take count)
      ((entries.take kept).map format.recordOf) tail := by
  induction entries generalizing count with
  | nil =>
      refine ⟨0, [], ?_⟩
      rw [encodeEntries, List.map_nil, List.flatten_nil, List.take_nil]
      exact .stop (split_record_nil format.endian)
  | cons entry entries ih =>
      have split : format.encodeEntries (entry :: entries) =
          format.encodeEntry entry ++ format.encodeEntries entries := rfl
      by_cases early : count < (format.encodeEntry entry).length
      · refine ⟨0, (format.encodeEntry entry).take count, ?_⟩
        rw [split, List.take_append_of_le_length (Nat.le_of_lt early)]
        exact .stop (format.split_record_early entry count early)
      · obtain ⟨kept, tail, cut⟩ := ih (count - (format.encodeEntry entry).length)
        refine ⟨kept + 1, tail, ?_⟩
        rw [split, List.take_append, List.take_of_length_le (by omega)]
        exact .next (format.splits_encoded entry _).split cut

end Cut

end FileFormat

namespace Reader

open FileFormat

/-- What `decode` is handed: the bytes of the packet and its time. -/
def handed (reader : Reader) : List (List UInt8 × Nat) :=
  reader.decodeCalls.map fun call => (call.packetSpan, call.tsUs.toNat)

theorem timestamp_of_entry (format : FileFormat) (entry : Entry) :
    (timestampUs format.nanoseconds (headerOf entry)).toNat = format.tsUs entry := by
  have sec := entry.tsSec.toNat_lt
  have sub := entry.tsSub.toNat_lt
  rw [timestampUs, FileFormat.tsUs]
  by_cases nanoseconds : format.nanoseconds = true
  · rw [if_pos nanoseconds, if_pos nanoseconds]
    simp only [headerOf, UInt64.toNat_add, UInt64.toNat_mul, UInt32.toNat_toUInt64,
      UInt32.toNat_div, UInt64.reduceToNat, UInt32.reduceToNat]
    omega
  · rw [if_neg nanoseconds, if_neg nanoseconds]
    simp only [headerOf, UInt64.toNat_add, UInt64.toNat_mul, UInt32.toNat_toUInt64,
      UInt64.reduceToNat]
    omega

theorem calls_for_entries (format : FileFormat) (entries : List Entry) (reader : Reader)
    (resolution : reader.isNsec = format.nanoseconds) :
    (reader.callsFor (entries.map format.recordOf)).map
        (fun call => (call.packetSpan, call.tsUs.toNat)) =
      format.frames entries := by
  induction entries generalizing reader with
  | nil => rfl
  | cons entry entries ih =>
      have frame := deliver_frame reader (format.recordOf entry)
      have call : (callOf reader.decoder (format.recordOf entry).packet
          (reader.captureOf (format.recordOf entry))).tsUs.toNat = format.tsUs entry := by
        rw [← timestamp_of_entry, ← resolution]
        rfl
      simp only [List.map_cons, callsFor, frames]
      rw [ih _ (frame.2.2.2.1.trans resolution), call]
      rfl

/-- The reader of a file that begins with a written header. -/
structure Opened (format : FileFormat) (config : Config) (body : List UInt8)
    (reader : Reader) : Prop where
  valid : reader.headerErr = .none
  endian : reader.endian = format.endian
  resolution : reader.isNsec = format.nanoseconds
  linktype : reader.fileHeader.linktype = Packet.linktypeEthernet
  span : reader.span = body
  decoder : reader.decoder = Decoder.new config
  pkt : reader.capture.pkt = {}
  skipped : reader.skipped = 0
  lastSkipErr : reader.lastSkipErr = .none

theorem opened (format : FileFormat) (config : Config) (body : List UInt8) :
    Opened format config body (new (format.encodeHeader ++ body) config) := by
  obtain ⟨err, span, endian, linktype, nanoseconds⟩ :=
    format.parse_encoded_file_header body {} .little
  have long : ¬ (format.encodeHeader ++ body).length < fileHeaderLen := by simp
  have opens : new (format.encodeHeader ++ body) config =
      { span := body
        decoder := Decoder.new config
        fileHeader := (parseFileHeader (format.encodeHeader ++ body) {} .little).1.header
        endian := format.endian
        isNsec := format.nanoseconds } := by
    simp only [new, readFileHeader, if_neg long, err, span, endian, nanoseconds, ne_eq,
      not_true_eq_false, if_false]
  rw [opens]
  exact ⟨rfl, rfl, rfl, linktype, rfl, rfl, rfl, rfl, rfl⟩

/-- Two readers that differ in the format of what they read only. -/
structure Alike (left right : Reader) : Prop where
  decoder : left.decoder = right.decoder
  pkt : left.capture.pkt = right.capture.pkt
  linktype : left.fileHeader.linktype = right.fileHeader.linktype
  skipped : left.skipped = right.skipped
  lastSkipErr : left.lastSkipErr = right.lastSkipErr

theorem Alike.deliver {left right : Reader} (alike : Alike left right) (first second : Record)
    (packet : first.packet = second.packet)
    (tsUs : timestampUs left.isNsec first.header = timestampUs right.isNsec second.header)
    (inclLen : first.header.inclLen = second.header.inclLen) :
    callOf left.decoder first.packet (left.captureOf first) =
        callOf right.decoder second.packet (right.captureOf second) ∧
      Alike (left.deliver first).2 (right.deliver second).2 := by
  have samePkt : (left.captureOf first).pkt = (right.captureOf second).pkt := by
    simp only [captureOf, alike.pkt, alike.linktype]
  have outcome := right.decoder.decode_alike second.packet
    (show (left.captureOf first).tsUs = (right.captureOf second).tsUs from tsUs) samePkt inclLen
  have sameTs : (left.captureOf first).tsUs = (right.captureOf second).tsUs := tsUs
  have frame := deliver_frame left first
  have frameToo := deliver_frame right second
  refine ⟨?_, ?_⟩
  · simp only [callOf, alike.decoder, packet, sameTs, outcome.1, outcome.2.1]
  · have linktype : (left.deliver first).2.fileHeader.linktype =
        (right.deliver second).2.fileHeader.linktype := by
      rw [frame.2.2.2.2, frameToo.2.2.2.2, alike.linktype]
    refine ⟨?_, ?_, linktype, ?_, ?_⟩ <;>
      simp only [Reader.deliver, alike.decoder, packet, outcome.1] <;> split_ifs <;>
      simp only [outcome.2.1, outcome.2.2, alike.skipped, alike.lastSkipErr]

theorem Alike.deliver_entries {leftFormat rightFormat : FileFormat} {left right : Reader}
    (alike : Alike left right) (leftResolution : left.isNsec = leftFormat.nanoseconds)
    (rightResolution : right.isNsec = rightFormat.nanoseconds)
    (entries others : List Entry) (same : leftFormat.frames entries = rightFormat.frames others) :
    left.callsFor (entries.map leftFormat.recordOf) =
        right.callsFor (others.map rightFormat.recordOf) ∧
      Alike (left.deliverAll (entries.map leftFormat.recordOf))
        (right.deliverAll (others.map rightFormat.recordOf)) := by
  induction entries generalizing others left right with
  | nil =>
      cases others with
      | nil => exact ⟨rfl, alike⟩
      | cons other others => simp [frames] at same
  | cons entry entries ih =>
      cases others with
      | nil => simp [frames] at same
      | cons other others =>
          simp only [frames, List.map_cons, List.cons.injEq, Prod.mk.injEq] at same
          obtain ⟨⟨sameFrame, sameTime⟩, later⟩ := same
          have tsUs : timestampUs left.isNsec (leftFormat.recordOf entry).header =
              timestampUs right.isNsec (rightFormat.recordOf other).header := by
            apply UInt64.toNat_inj.mp
            rw [leftResolution, rightResolution]
            exact (timestamp_of_entry leftFormat entry).trans
              (sameTime.trans (timestamp_of_entry rightFormat other).symm)
          have inclLen : (leftFormat.recordOf entry).header.inclLen =
              (rightFormat.recordOf other).header.inclLen :=
            congrArg (fun frame : List UInt8 => UInt32.ofNat frame.length) sameFrame
          have step := alike.deliver (leftFormat.recordOf entry) (rightFormat.recordOf other)
            sameFrame tsUs inclLen
          have frame := deliver_frame left (leftFormat.recordOf entry)
          have frameToo := deliver_frame right (rightFormat.recordOf other)
          have rest := ih step.2 (frame.2.2.2.1.trans leftResolution)
            (frameToo.2.2.2.1.trans rightResolution) others later
          refine ⟨?_, rest.2⟩
          simp only [List.map_cons, callsFor, step.1, rest.1]

theorem decode_calls_invalid {reader : Reader} (invalid : reader.headerErr ≠ .none) :
    reader.decodeCalls = [] := by
  have read : reader.readPacket = (reader.headerErr, reader) := by
    rw [readPacket, if_pos invalid]
  have pass : packetTurn reader = .leave reader := by
    rw [packetTurn, read]
    cases failed : reader.headerErr <;> first | rfl | exact absurd failed invalid
  rw [decodeCalls, MeasuredLoop.visited_leave pass]
  simp [packetCalls, invalid]

/-- A written capture is handed to the decoder frame by frame, in order and with its times,
and read to its end; another form of the same capture has the same results; and a file that
ends early yields the first frames. -/
theorem capture_files_round_trip (config : Config) (format : FileFormat)
    (entries : List Entry) :
    let reader := new (format.encodeFile entries) config
    reader.headerErr = .none ∧
      reader.handed = format.frames entries ∧
      reader.readReturns.getLast? = some .unexpectedEofF ∧
      reader.readAllPackets.span = [] ∧
      (∀ (other : FileFormat) (others : List Entry),
        other.frames others = format.frames entries →
        let twin := new (other.encodeFile others) config
        twin.decodeCalls = reader.decodeCalls ∧
          twin.readAllPackets.decoder = reader.readAllPackets.decoder ∧
          twin.readAllPackets.skipped = reader.readAllPackets.skipped ∧
          twin.readAllPackets.lastSkipErr = reader.readAllPackets.lastSkipErr) ∧
      ∀ count : Nat,
        (new ((format.encodeFile entries).take count) config).handed <+:
          format.frames entries := by
  intro reader
  have fresh : Opened format config (format.encodeEntries entries) reader :=
    opened format config (format.encodeEntries entries)
  have cut := format.cut_encoded entries
  have complete := read_all_complete cut reader fresh.valid fresh.endian fresh.span rfl
  have calls := decode_calls_cut cut reader fresh.valid fresh.endian fresh.span
  refine ⟨fresh.valid, ?_, complete.1, complete.2.2, ?_, ?_⟩
  · rw [handed, calls]
    exact calls_for_entries format entries reader fresh.resolution
  · intro other others same twin
    have freshToo : Opened other config (other.encodeEntries others) twin :=
      opened other config (other.encodeEntries others)
    have cutToo := other.cut_encoded others
    have completeToo := read_all_complete cutToo twin freshToo.valid freshToo.endian
      freshToo.span rfl
    have callsToo := decode_calls_cut cutToo twin freshToo.valid freshToo.endian freshToo.span
    have alike : Alike twin reader := {
      decoder := by rw [fresh.decoder, freshToo.decoder]
      pkt := by rw [fresh.pkt, freshToo.pkt]
      linktype := by rw [fresh.linktype, freshToo.linktype]
      skipped := by rw [fresh.skipped, freshToo.skipped]
      lastSkipErr := by rw [fresh.lastSkipErr, freshToo.lastSkipErr] }
    have results := alike.deliver_entries freshToo.resolution fresh.resolution others entries same
    rw [calls, callsToo, complete.2.1, completeToo.2.1]
    exact ⟨results.1, results.2.decoder, results.2.skipped, results.2.lastSkipErr⟩
  · intro count
    by_cases short : count < fileHeaderLen
    · have invalid : (new ((format.encodeFile entries).take count) config).headerErr ≠ .none := by
        have size : ((format.encodeFile entries).take count).length < fileHeaderLen := by
          rw [List.length_take]
          omega
        rw [new, readFileHeader, if_pos size]
        simp
      rw [handed, decode_calls_invalid invalid]
      exact List.nil_prefix
    · obtain ⟨kept, tail, early⟩ := format.cut_truncated entries (count - fileHeaderLen)
      have body : (format.encodeFile entries).take count = format.encodeHeader ++
          (format.encodeEntries entries).take (count - fileHeaderLen) := by
        rw [encodeFile, List.take_append, encode_header_length,
          List.take_of_length_le (by rw [encode_header_length]; omega)]
      have opens := opened format config
        ((format.encodeEntries entries).take (count - fileHeaderLen))
      rw [body, handed, decode_calls_cut early _ opens.valid opens.endian opens.span,
        calls_for_entries format _ _ opens.resolution]
      exact (List.take_prefix kept entries).map fun entry => (entry.frame, format.tsUs entry)

end Reader

end PcapAnalyzer.Pcap
