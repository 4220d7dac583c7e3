import PcapAnalyzer.Capture.Reader
import PcapAnalyzer.Decode.Residue

/-!
# Skipped and filtered records leave no trace

The capture data is cut into its complete records. Reading it is a left fold of
`deliver` over these records, and a record whose decode failed or was filtered can be
taken out of the data without changing anything the decoder ends up with.
-/

namespace PcapAnalyzer.Pcap

set_option autoImplicit false

/-- A complete record: its bytes, and what they hold. -/
structure Record where
  raw : List UInt8
  header : PacketHeader
  packet : List UInt8

/-- The complete record at the front, if there is one, and what follows it. -/
def splitRecord (endian : Endian) (span : List UInt8) : Option (Record × List UInt8) :=
  let parsed := parsePacketHeader span {} endian
  if parsed.err ≠ .none then none else
  let inclLen := parsed.header.inclLen.toNat
  if parsed.span.length < inclLen then none else
  some ({ raw := span.take (packetHeaderLen + inclLen)
          header := parsed.header
          packet := parsed.span.take inclLen }, parsed.span.drop inclLen)

/-- The complete records before the first invalid header or the end of the data. -/
def recordsFrom (endian : Endian) : Nat → List UInt8 → List Record × List UInt8
  | 0, span => ([], span)
  | fuel + 1, span =>
      match splitRecord endian span with
      | none => ([], span)
      | some (record, rest) =>
          let (records, tail) := recordsFrom endian fuel rest
          (record :: records, tail)

def completeRecords (endian : Endian) (span : List UInt8) : List Record × List UInt8 :=
  recordsFrom endian (span.length + 1) span

section Split

variable {endian : Endian} {span rest : List UInt8} {record : Record}

theorem parse_packet_header_ok (header : PacketHeader)
    (ok : (parsePacketHeader span header endian).err = .none) :
    packetHeaderLen ≤ span.length ∧
      parsePacketHeader span header endian =
        ⟨.none, loadPacketHeader span endian, span.drop packetHeaderLen⟩ := by
  unfold parsePacketHeader at ok ⊢
  by_cases short : span.length < packetHeaderLen
  · simp [short] at ok
  by_cases zero : (loadPacketHeader span endian).inclLen = 0 ∨
      (loadPacketHeader span endian).origLen = 0
  · simp [short, zero] at ok
  by_cases large : (loadPacketHeader span endian).inclLen >
      (loadPacketHeader span endian).origLen
  · simp [short, zero, large] at ok
  · exact ⟨by omega, by simp [short, zero, large]⟩

/-- What the header in front says does not depend on the header it is read into. -/
theorem parse_packet_header_err (left right : PacketHeader) :
    (parsePacketHeader span left endian).err = (parsePacketHeader span right endian).err := by
  unfold parsePacketHeader
  by_cases short : span.length < packetHeaderLen <;> simp [short]

structure Splits (endian : Endian) (span : List UInt8) (record : Record)
    (rest : List UInt8) : Prop where
  valid : (parsePacketHeader span {} endian).err = .none
  header : record.header = loadPacketHeader span endian
  raw : record.raw = span.take (packetHeaderLen + record.header.inclLen.toNat)
  packet : record.packet = (span.drop packetHeaderLen).take record.header.inclLen.toNat
  rest : rest = span.drop (packetHeaderLen + record.header.inclLen.toNat)
  complete : packetHeaderLen + record.header.inclLen.toNat ≤ span.length

theorem split_record_some (split : splitRecord endian span = some (record, rest)) :
    Splits endian span record rest := by
  unfold splitRecord at split
  by_cases invalid : (parsePacketHeader span {} endian).err ≠ .none
  · simp [invalid] at split
  have valid : (parsePacketHeader span {} endian).err = .none := by simpa using invalid
  obtain ⟨long, parsed⟩ := parse_packet_header_ok {} valid
  simp only [parsed, ne_eq, not_true_eq_false, if_false] at split
  by_cases cut : (span.drop packetHeaderLen).length <
      (loadPacketHeader span endian).inclLen.toNat
  · rw [if_pos cut] at split
    cases split
  · rw [if_neg cut, Option.some.injEq, Prod.mk.injEq] at split
    obtain ⟨rfl, rfl⟩ := split
    rw [List.length_drop] at cut
    exact {
      valid := valid
      header := rfl
      raw := rfl
      packet := rfl
      rest := List.drop_drop
      complete := by simp only; omega }

theorem Splits.split (splits : Splits endian span record rest) :
    splitRecord endian span = some (record, rest) := by
  obtain ⟨long, parsed⟩ := parse_packet_header_ok {} splits.valid
  rcases record with ⟨raw, header, packet⟩
  have sameHeader : header = loadPacketHeader span endian := splits.header
  have sameRaw : raw = span.take (packetHeaderLen + header.inclLen.toNat) := splits.raw
  have samePacket : packet = (span.drop packetHeaderLen).take header.inclLen.toNat :=
    splits.packet
  have complete : packetHeaderLen + header.inclLen.toNat ≤ span.length := splits.complete
  subst samePacket sameRaw sameHeader
  have whole : ¬ (span.drop packetHeaderLen).length <
      (loadPacketHeader span endian).inclLen.toNat := by
    rw [List.length_drop]
    omega
  simp only [splitRecord, parsed, ne_eq, not_true_eq_false, if_false, whole, List.drop_drop,
    splits.rest]

theorem Splits.joined (splits : Splits endian span record rest) : record.raw ++ rest = span := by
  rw [splits.raw, splits.rest, List.take_append_drop]

theorem Splits.shorter (splits : Splits endian span record rest) : rest.length < span.length := by
  have complete := splits.complete
  rw [splits.rest, List.length_drop]
  simp only [packetHeaderLen] at complete ⊢
  omega

theorem load_packet_header_append (left right : List UInt8)
    (long : packetHeaderLen ≤ left.length) :
    loadPacketHeader (left ++ right) endian = loadPacketHeader left endian := by
  simp only [packetHeaderLen] at long
  rw [loadPacketHeader, load32_append_left _ _ _ (by omega), load32_append_left _ _ _ (by omega),
    load32_append_left _ _ _ (by omega), load32_append_left _ _ _ (by omega), loadPacketHeader]

/-- A record is the same one in front of other data. -/
theorem Splits.moved (splits : Splits endian span record rest) (other : List UInt8) :
    Splits endian (record.raw ++ other) record other := by
  have complete := splits.complete
  have size : record.raw.length = packetHeaderLen + record.header.inclLen.toNat := by
    rw [splits.raw, List.length_take]
    omega
  have loaded : loadPacketHeader (record.raw ++ other) endian = loadPacketHeader span endian := by
    rw [load_packet_header_append _ _ (by omega), ← splits.joined,
      load_packet_header_append _ _ (by omega)]
  have valid : (parsePacketHeader (record.raw ++ other) {} endian).err = .none := by
    have before := splits.valid
    unfold parsePacketHeader at before ⊢
    have long : ¬ span.length < packetHeaderLen := by omega
    have longToo : ¬ (record.raw ++ other).length < packetHeaderLen := by
      rw [List.length_append]
      omega
    rw [if_neg long] at before
    rw [if_neg longToo, loaded]
    simp only at before ⊢
    split_ifs at before ⊢
    rfl
  exact {
    valid := valid
    header := by rw [loaded, splits.header]
    raw := by rw [← size, List.take_left]
    packet := by
      have body : span.drop packetHeaderLen = record.raw.drop packetHeaderLen ++ rest := by
        rw [← splits.joined, List.drop_append_of_le_length (by omega)]
      have bodySize : (record.raw.drop packetHeaderLen).length = record.header.inclLen.toNat := by
        rw [List.length_drop]
        omega
      rw [splits.packet, body, List.drop_append_of_le_length (by omega), ← bodySize,
        List.take_left, List.take_left]
    rest := by rw [← size, List.drop_left]
    complete := by
      rw [List.length_append]
      omega }

end Split

/-- The complete records at the front of the data, and the rest, which does not start with one. -/
inductive Cut (endian : Endian) : List UInt8 → List Record → List UInt8 → Prop where
  | stop {tail : List UInt8} (none : splitRecord endian tail = none) : Cut endian tail [] tail
  | next {span rest tail : List UInt8} {record : Record} {records : List Record}
      (split : splitRecord endian span = some (record, rest))
      (after : Cut endian rest records tail) : Cut endian span (record :: records) tail

section Cut

variable {endian : Endian} {span tail : List UInt8} {records : List Record}

theorem records_from_cut (fuel : Nat) (span : List UInt8) (enough : span.length < fuel) :
    Cut endian span (recordsFrom endian fuel span).1 (recordsFrom endian fuel span).2 := by
  induction fuel generalizing span with
  | zero => omega
  | succ fuel ih =>
      simp only [recordsFrom]
      cases split : splitRecord endian span with
      | none => exact .stop split
      | some found =>
          rcases found with ⟨record, rest⟩
          have shorter := (split_record_some split).shorter
          exact .next split (ih rest (by omega))

theorem complete_records_cut (endian : Endian) (span : List UInt8) :
    Cut endian span (completeRecords endian span).1 (completeRecords endian span).2 :=
  records_from_cut (span.length + 1) span (Nat.lt_succ_self _)

/-- Taking records out of the data leaves data that is cut into the other ones. -/
theorem Cut.sublist (cut : Cut endian span records tail) {kept : List Record}
    (sublist : kept.Sublist records) :
    Cut endian ((kept.map Record.raw).flatten ++ tail) kept tail := by
  induction cut generalizing kept with
  | stop none =>
      rw [List.sublist_nil.mp sublist]
      exact .stop none
  | @next span rest tail record records split after ih =>
      rcases List.sublist_cons_iff.mp sublist with without | ⟨others, rfl, within⟩
      · exact ih without
      · have moved := (split_record_some split).moved ((others.map Record.raw).flatten ++ tail)
        rw [List.map_cons, List.flatten_cons, List.append_assoc]
        exact .next moved.split (ih within)

end Cut

namespace Reader

/-- The capture for a record: only the packet of the previous record is still in it. -/
def captureOf (reader : Reader) (record : Record) : Capture :=
  { tsUs := timestampUs reader.isNsec record.header
    packetHeader := record.header
    pkt := reader.capture.pkt.setDatatypeFromLinktype reader.fileHeader.linktype }

/-- What the loop of `readPacket` does for a complete record. -/
def deliver (reader : Reader) (record : Record) : ParseError × Reader :=
  let (err, capture, decoder) := reader.decoder.decode record.packet (reader.captureOf record)
  let reader := { reader with
    span := reader.span.drop (packetHeaderLen + record.header.inclLen.toNat)
    capture := capture
    decoder := decoder }
  if err = .none ∨ err = .filtered then (err, reader)
  else (err, { reader with skipped := reader.skipped + 1, lastSkipErr := err })

/-- What the decode of each record returns. -/
def results : Reader → List Record → List (Record × ParseError)
  | _, [] => []
  | reader, record :: rest =>
      (record, (reader.deliver record).1) :: (reader.deliver record).2.results rest

def deliverAll (reader : Reader) (records : List Record) : Reader :=
  records.foldl (fun reader record => (reader.deliver record).2) reader

section Turns

variable {reader : Reader} {record : Record} {rest : List UInt8}

theorem next_record_some (split : splitRecord reader.endian reader.span = some (record, rest)) :
    reader.nextRecord = (.none,
      { reader with
        span := reader.span.drop (packetHeaderLen + record.header.inclLen.toNat)
        capture := reader.captureOf record }, record.packet) := by
  have splits := split_record_some split
  have complete := splits.complete
  have valid : (parsePacketHeader reader.span reader.capture.packetHeader reader.endian).err =
      .none := by
    rw [parse_packet_header_err _ {}]
    exact splits.valid
  obtain ⟨long, parsed⟩ := parse_packet_header_ok _ valid
  have notShort : ¬ reader.span.length < packetHeaderLen := by omega
  have whole : ¬ (reader.span.drop packetHeaderLen).length <
      (loadPacketHeader reader.span reader.endian).inclLen.toNat := by
    rw [← splits.header, List.length_drop]
    omega
  simp only [nextRecord, notShort, if_false, parsed, ne_eq, not_true_eq_false, whole,
    captureOf, splits.packet, splits.header, List.drop_drop]

/-- Without a complete record the loop stops before it decodes anything. -/
theorem next_record_none (split : splitRecord reader.endian reader.span = none) :
    reader.nextRecord.1 ≠ .none ∧ reader.nextRecord.2.1.decoder = reader.decoder ∧
      reader.nextRecord.2.1.skipped = reader.skipped := by
  unfold nextRecord
  by_cases short : reader.span.length < packetHeaderLen
  · simp [short]
  by_cases invalid :
      (parsePacketHeader reader.span reader.capture.packetHeader reader.endian).err ≠ .none
  · simp [short, invalid]
  have valid : (parsePacketHeader reader.span {} reader.endian).err = .none := by
    rw [parse_packet_header_err _ reader.capture.packetHeader]
    simpa using invalid
  have parsed := (parse_packet_header_ok {} valid).2
  have found := (parse_packet_header_ok reader.capture.packetHeader
    (by simpa using invalid)).2
  have cut : (reader.span.drop packetHeaderLen).length <
      (loadPacketHeader reader.span reader.endian).inclLen.toNat := by
    by_contra whole
    simp [splitRecord, parsed] at split
    rw [List.length_drop] at whole
    omega
  simp only [found, short, if_false, ne_eq, not_true_eq_false, cut, if_true]
  decide

theorem record_turn_some (split : splitRecord reader.endian reader.span = some (record, rest)) :
    recordTurn reader =
      if (reader.deliver record).1 = .none then .leave (.none, (reader.deliver record).2)
      else .again (reader.deliver record).2 := by
  simp only [recordTurn, next_record_some split, deliver]
  generalize reader.decoder.decode record.packet (reader.captureOf record) = outcome
  rcases outcome with ⟨err, capture, decoder⟩
  by_cases accepted : err = .none
  · simp [accepted]
  · by_cases refused : err = .filtered
    · simp [refused]
    · simp [accepted, refused]

theorem record_turn_none (split : splitRecord reader.endian reader.span = none) :
    ∃ err stopped, recordTurn reader = .leave (err, stopped) ∧ err ≠ .none ∧
      stopped.decoder = reader.decoder ∧ stopped.skipped = reader.skipped := by
  have stops := next_record_none split
  rcases found : reader.nextRecord with ⟨err, stopped, packet⟩
  rw [found] at stops
  refine ⟨err, stopped, ?_, stops⟩
  unfold recordTurn
  rw [found]
  cases err <;> first | rfl | exact absurd rfl stops.1

theorem deliver_frame (reader : Reader) (record : Record) :
    (reader.deliver record).2.span =
        reader.span.drop (packetHeaderLen + record.header.inclLen.toNat) ∧
      (reader.deliver record).2.endian = reader.endian ∧
      (reader.deliver record).2.headerErr = reader.headerErr ∧
      (reader.deliver record).2.isNsec = reader.isNsec ∧
      (reader.deliver record).2.fileHeader = reader.fileHeader := by
  simp only [deliver]
  split_ifs <;> exact ⟨rfl, rfl, rfl, rfl, rfl⟩

theorem deliver_shorter (split : splitRecord reader.endian reader.span = some (record, rest)) :
    (reader.deliver record).2.span.length < reader.span.length := by
  have splits := split_record_some split
  rw [(deliver_frame reader record).1, ← splits.rest]
  exact splits.shorter

/-- Every turn that goes round again has consumed a record. -/
theorem record_turn_decreasing :
    MeasuredLoop.Decreasing recordTurn fun reader => reader.span.length := by
  intro reader next pass
  cases split : splitRecord reader.endian reader.span with
  | none =>
      obtain ⟨_, _, leaves, _⟩ := record_turn_none split
      rw [leaves] at pass
      cases pass
  | some found =>
      rw [record_turn_some split] at pass
      split_ifs at pass
      cases pass
      exact deliver_shorter split

theorem read_packet_shorter {next : Reader} (read : reader.readPacket = (.none, next)) :
    next.span.length < reader.span.length := by
  unfold readPacket at read
  by_cases invalid : reader.headerErr ≠ .none
  · rw [if_pos invalid, Prod.mk.injEq] at read
    exact absurd read.1 invalid
  rw [if_neg invalid] at read
  rw [← Prod.eta (MeasuredLoop.run _ _ _ _), Prod.mk.injEq] at read
  rw [← read.2]
  exact MeasuredLoop.run_invariant record_turn_decreasing
    (fun seen => seen.span.length ≤ reader.span.length)
    (fun result => result.1 = .none → result.2.span.length < reader.span.length)
    (by
      intro seen later bound pass
      have smaller := record_turn_decreasing seen later pass
      simp only at smaller
      omega)
    (by
      intro seen result bound pass accepted
      cases split : splitRecord seen.endian seen.span with
      | none =>
          obtain ⟨err, stopped, leaves, failed, _⟩ := record_turn_none split
          rw [leaves] at pass
          cases pass
          exact absurd accepted failed
      | some found =>
          rw [record_turn_some split] at pass
          have smaller := deliver_shorter split
          split_ifs at pass
          cases pass
          simp only
          omega)
    (reader.span.length + 1) reader (Nat.lt_succ_self _) le_rfl read.1

theorem packet_turn_decreasing :
    MeasuredLoop.Decreasing packetTurn fun reader => reader.span.length := by
  intro reader next pass
  unfold packetTurn at pass
  rcases read : reader.readPacket with ⟨err, later⟩
  rw [read] at pass
  cases err <;> simp only [reduceCtorEq] at pass
  cases pass
  exact read_packet_shorter read

/-- A record that is accepted ends the read and not the loop around it. -/
theorem read_packet_accepted (valid : reader.headerErr = .none)
    (split : splitRecord reader.endian reader.span = some (record, rest))
    (accepted : (reader.deliver record).1 = .none) :
    recordTurn reader = .leave (.none, (reader.deliver record).2) ∧
      reader.readPacket = (.none, (reader.deliver record).2) ∧
      packetTurn reader = .again (reader.deliver record).2 := by
  have turn := record_turn_some split
  rw [if_pos accepted] at turn
  have read : reader.readPacket = (.none, (reader.deliver record).2) := by
    rw [readPacket, if_neg (by simpa using valid)]
    exact MeasuredLoop.run_leave record_turn_decreasing (Nat.lt_succ_self _) turn
  refine ⟨turn, read, ?_⟩
  rw [packetTurn, read]

/-- A record that is refused is passed by, within the same read. -/
theorem read_packet_refused (valid : reader.headerErr = .none)
    (split : splitRecord reader.endian reader.span = some (record, rest))
    (refused : ¬ (reader.deliver record).1 = .none) :
    recordTurn reader = .again (reader.deliver record).2 ∧
      reader.readPacket = (reader.deliver record).2.readPacket ∧
      packetTurn reader = packetTurn (reader.deliver record).2 := by
  have frame := deliver_frame reader record
  have validNext : (reader.deliver record).2.headerErr = .none := by rw [frame.2.2.1, valid]
  have turn := record_turn_some split
  rw [if_neg refused] at turn
  have read : reader.readPacket = (reader.deliver record).2.readPacket := by
    rw [readPacket, readPacket, if_neg (by simpa using valid), if_neg (by simpa using validNext)]
    exact MeasuredLoop.run_again record_turn_decreasing (Nat.lt_succ_self _) turn
  refine ⟨turn, read, ?_⟩
  rw [packetTurn, packetTurn, read]

/-- Without a complete record in front both loops end. -/
theorem read_packet_stop (valid : reader.headerErr = .none)
    (split : splitRecord reader.endian reader.span = none) :
    ∃ err stopped, recordTurn reader = .leave (err, stopped) ∧
      reader.readPacket = (err, stopped) ∧ packetTurn reader = .leave stopped ∧
      stopped.decoder = reader.decoder ∧ stopped.skipped = reader.skipped := by
  obtain ⟨err, stopped, leaves, failed, same⟩ := record_turn_none split
  have read : reader.readPacket = (err, stopped) := by
    rw [readPacket, if_neg (by simpa using valid)]
    exact MeasuredLoop.run_leave record_turn_decreasing (Nat.lt_succ_self _) leaves
  refine ⟨err, stopped, leaves, read, ?_, same⟩
  rw [packetTurn, read]
  cases err <;> first | rfl | exact absurd rfl failed

/-- Reading all packets delivers the record in front and reads on. -/
theorem read_all_next (valid : reader.headerErr = .none)
    (split : splitRecord reader.endian reader.span = some (record, rest)) :
    reader.readAllPackets = (reader.deliver record).2.readAllPackets := by
  by_cases accepted : (reader.deliver record).1 = .none
  · obtain ⟨_, _, pass⟩ := read_packet_accepted valid split accepted
    exact MeasuredLoop.run_again packet_turn_decreasing (Nat.lt_succ_self _) pass
  · obtain ⟨_, _, pass⟩ := read_packet_refused valid split accepted
    unfold readAllPackets
    rw [MeasuredLoop.run_unfold packet_turn_decreasing _ _ (Nat.lt_succ_self _),
      MeasuredLoop.run_unfold packet_turn_decreasing _ _ (Nat.lt_succ_self _), pass]

theorem read_all_stop (valid : reader.headerErr = .none)
    (split : splitRecord reader.endian reader.span = none) :
    reader.readAllPackets.decoder = reader.decoder ∧
      reader.readAllPackets.skipped = reader.skipped := by
  obtain ⟨_, stopped, _, _, pass, same⟩ := read_packet_stop valid split
  have final : reader.readAllPackets = stopped :=
    MeasuredLoop.run_leave packet_turn_decreasing (Nat.lt_succ_self _) pass
  rw [final]
  exact same

/-- Reading all packets delivers the complete records, one after the other. -/
theorem read_all_delivers {endian : Endian} {span tail : List UInt8} {records : List Record}
    (cut : Cut endian span records tail) (reader : Reader) (valid : reader.headerErr = .none)
    (sameEndian : reader.endian = endian) (sameSpan : reader.span = span) :
    reader.readAllPackets.decoder = (reader.deliverAll records).decoder ∧
      reader.readAllPackets.skipped = (reader.deliverAll records).skipped := by
  induction cut generalizing reader with
  | stop none =>
      subst sameEndian sameSpan
      exact read_all_stop valid none
  | @next _ _ _ record _ split after ih =>
      subst sameEndian sameSpan
      have frame := deliver_frame reader record
      rw [read_all_next valid split]
      exact ih _ (frame.2.2.1.trans valid) frame.2.1
        (frame.1.trans (split_record_some split).rest.symm)

end Turns

/-- What the outcome for a record depends on. -/
structure Same (left right : Reader) : Prop where
  decoder : left.decoder = right.decoder
  isNsec : left.isNsec = right.isNsec
  fileHeader : left.fileHeader = right.fileHeader

section Outcomes

variable {left right : Reader} (record : Record)

theorem deliver_decode (reader : Reader) :
    (reader.deliver record).1 =
        (reader.decoder.decode record.packet (reader.captureOf record)).1 ∧
      (reader.deliver record).2.decoder =
        (reader.decoder.decode record.packet (reader.captureOf record)).2.2 := by
  simp only [deliver]
  split_ifs <;> exact ⟨rfl, rfl⟩

/-- The outcome for a record does not depend on what an earlier record left in the capture. -/
theorem Same.deliver (same : Same left right) :
    (left.deliver record).1 = (right.deliver record).1 ∧
      Same (left.deliver record).2 (right.deliver record).2 := by
  have sameRecord : Decoder.SameRecord (left.captureOf record) (right.captureOf record) := by
    refine ⟨?_, rfl, ?_⟩
    · simp only [captureOf, same.isNsec]
    · simp only [captureOf, Packet.setDatatypeFromLinktype, same.fileHeader]
  have outcome := left.decoder.decode_same_record record.packet sameRecord
  have leftDecode := deliver_decode record left
  have rightDecode := deliver_decode record right
  rw [← same.decoder] at rightDecode
  have leftFrame := deliver_frame left record
  have rightFrame := deliver_frame right record
  refine ⟨by rw [leftDecode.1, rightDecode.1, outcome.1], ?_⟩
  exact {
    decoder := by rw [leftDecode.2, rightDecode.2, outcome.2]
    isNsec := by rw [leftFrame.2.2.2.1, rightFrame.2.2.2.1, same.isNsec]
    fileHeader := by rw [leftFrame.2.2.2.2, rightFrame.2.2.2.2, same.fileHeader] }

/-- A record that fails or is filtered leaves the decoder as it was. -/
theorem Same.rejected (same : Same left right) (failed : (left.deliver record).1 ≠ .none) :
    Same (left.deliver record).2 right := by
  have decode := deliver_decode record left
  have frame := deliver_frame left record
  rw [decode.1] at failed
  exact {
    decoder := by rw [decode.2, Decoder.decode_error _ _ _ failed, same.decoder]
    isNsec := by rw [frame.2.2.2.1, same.isNsec]
    fileHeader := by rw [frame.2.2.2.2, same.fileHeader] }

theorem Same.results (same : Same left right) (records : List Record) :
    left.results records = right.results records := by
  induction records generalizing left right with
  | nil => rfl
  | cons record rest ih =>
      have next := same.deliver record
      simp only [Reader.results, next.1, ih next.2]

/-- The records whose decode succeeded. -/
def kept (reader : Reader) (records : List Record) : List Record :=
  ((reader.results records).filter fun result => result.2 = .none).map Prod.fst

theorem results_records (reader : Reader) (records : List Record) :
    (reader.results records).map Prod.fst = records := by
  induction records generalizing reader with
  | nil => rfl
  | cons record rest ih => simp only [Reader.results, List.map_cons, ih]

theorem kept_sublist (reader : Reader) (records : List Record) :
    (reader.kept records).Sublist records := by
  have sublist := (List.filter_sublist (p := fun result : Record × ParseError =>
    decide (result.2 = .none)) (l := reader.results records)).map Prod.fst
  rwa [results_records] at sublist

/-- Delivering only the records that succeed leads to the same decoder. -/
theorem Same.deliver_kept (same : Same left right) (records : List Record) :
    (left.deliverAll records).decoder = (right.deliverAll (left.kept records)).decoder := by
  induction records generalizing left right with
  | nil => exact same.decoder
  | cons record rest ih =>
      by_cases accepted : (left.deliver record).1 = .none
      · have split : left.kept (record :: rest) = record :: (left.deliver record).2.kept rest := by
          simp [kept, Reader.results, accepted]
        rw [split]
        exact ih (same.deliver record).2
      · have split : left.kept (record :: rest) = (left.deliver record).2.kept rest := by
          simp [kept, Reader.results, accepted]
        rw [split]
        exact ih (same.rejected record accepted)

def filteredCount (reader : Reader) (records : List Record) : Nat :=
  ((reader.results records).filter fun result => result.2 = .filtered).length

theorem deliver_counts (reader : Reader) :
    (reader.deliver record).2.decoder.decoded + (reader.deliver record).2.skipped +
        (if (reader.deliver record).1 = .filtered then 1 else 0) =
      reader.decoder.decoded + reader.skipped + 1 := by
  have accepts := reader.decoder.decode_decoded record.packet (reader.captureOf record)
  have rejects := reader.decoder.decode_error record.packet (reader.captureOf record)
  simp only [deliver]
  generalize reader.decoder.decode record.packet (reader.captureOf record) = outcome at *
  rcases outcome with ⟨err, capture, decoder⟩
  simp only at accepts rejects
  by_cases accepted : err = .none
  · simp [accepted, accepts accepted]
    omega
  · have unchanged := rejects accepted
    by_cases refused : err = .filtered
    · simp [refused, unchanged]
    · simp [accepted, refused, unchanged]
      omega

/-- Every delivered record is decoded, skipped or filtered. -/
theorem deliver_all_counts (reader : Reader) (records : List Record) :
    (reader.deliverAll records).decoder.decoded + (reader.deliverAll records).skipped +
        reader.filteredCount records =
      reader.decoder.decoded + reader.skipped + records.length := by
  induction records generalizing reader with
  | nil => rfl
  | cons record rest ih =>
      have step := deliver_counts record reader
      have later := ih (reader.deliver record).2
      have count : reader.filteredCount (record :: rest) =
          (if (reader.deliver record).1 = .filtered then 1 else 0) +
            (reader.deliver record).2.filteredCount rest := by
        by_cases refused : (reader.deliver record).1 = .filtered
        · simp [filteredCount, Reader.results, refused]
          omega
        · simp [filteredCount, Reader.results, refused]
      rw [count, List.length_cons]
      simp only [deliverAll, List.foldl_cons] at later ⊢
      omega

end Outcomes

section FileHeader

theorem load_file_header_append (left right : List UInt8) (long : fileHeaderLen ≤ left.length) :
    loadFileHeader (left ++ right) = loadFileHeader left := by
  have bytes : ∀ i < 24, byteAt (left ++ right) i = byteAt left i := by
    intro i small
    exact byte_at_append_left left right i (by simp only [fileHeaderLen] at long; omega)
  simp only [loadFileHeader, load32, load16]
  simp (disch := decide) only [bytes]

/-- A valid file header in front of other data. -/
theorem parse_file_header_moved (data other : List UInt8) (header : FileHeader) (endian : Endian)
    (valid : (parseFileHeader data header endian).1.err = .none) :
    fileHeaderLen ≤ data.length ∧ (parseFileHeader data header endian).1.span =
        data.drop fileHeaderLen ∧
      parseFileHeader (data.take fileHeaderLen ++ other) header endian =
        ({ (parseFileHeader data header endian).1 with span := other },
          (parseFileHeader data header endian).2) := by
  unfold parseFileHeader at valid ⊢
  by_cases short : data.length < fileHeaderLen
  · simp [short] at valid
  have size : (data.take fileHeaderLen).length = fileHeaderLen := by
    rw [List.length_take]
    omega
  have notShort : ¬ (data.take fileHeaderLen ++ other).length < fileHeaderLen := by
    rw [List.length_append]
    omega
  have sameHeader : loadFileHeader (data.take fileHeaderLen ++ other) = loadFileHeader data := by
    rw [load_file_header_append _ _ size.ge]
    have joined := load_file_header_append (data.take fileHeaderLen) (data.drop fileHeaderLen)
      size.ge
    rw [List.take_append_drop] at joined
    exact joined.symm
  have rest : (data.take fileHeaderLen ++ other).drop fileHeaderLen = other :=
    List.drop_left' size
  simp only [short, notShort, if_false, sameHeader, rest] at valid ⊢
  cases magic : magicEndian (loadFileHeader data).magicNumber with
  | none => simp [magic] at valid
  | some endian =>
      simp only [magic] at valid ⊢
      split_ifs at valid ⊢
      exact ⟨by omega, rfl, rfl⟩

theorem new_valid (data : List UInt8) (config : Config)
    (valid : (new data config).headerErr = .none) :
    ¬ data.length < fileHeaderLen ∧ (parseFileHeader data {} .little).1.err = .none := by
  unfold new readFileHeader at valid
  by_cases short : data.length < fileHeaderLen
  · simp [short] at valid
  · refine ⟨short, ?_⟩
    by_contra failed
    simp [short, failed] at valid

/-- The reader of the same file header in front of other data. -/
theorem new_moved (data other : List UInt8) (config : Config)
    (valid : (new data config).headerErr = .none) :
    new (data.take fileHeaderLen ++ other) config = { new data config with span := other } := by
  obtain ⟨long, ok⟩ := new_valid data config valid
  obtain ⟨_, _, moved⟩ := parse_file_header_moved data other {} .little ok
  have notShort : ¬ (data.take fileHeaderLen ++ other).length < fileHeaderLen := by
    rw [List.length_append, List.length_take]
    omega
  simp only [new, readFileHeader, notShort, long, moved, ok, if_false, ne_eq, not_true_eq_false]

end FileHeader

/-- Every complete record is decoded, skipped or filtered; the capture without the records
that were skipped or filtered ends with the same decoder; and no outcome depends on
what an earlier record left in the capture. -/
theorem skipped_records_leave_no_trace (config : Config) (data : List UInt8)
    (valid : (new data config).headerErr = .none) :
    let reader := new data config
    let final := reader.readAllPackets
    let records := (completeRecords reader.endian reader.span).1
    let tail := (completeRecords reader.endian reader.span).2
    let accepted := ((reader.kept records).map Record.raw).flatten
    final.decoder.decoded + final.skipped + reader.filteredCount records = records.length ∧
      (new (data.take fileHeaderLen ++ (accepted ++ tail)) config).readAllPackets.decoder =
        final.decoder ∧
      ∀ capture : Capture, { reader with capture := capture }.results records =
        reader.results records := by
  intro reader final records tail accepted
  have cut : Cut reader.endian reader.span records tail :=
    complete_records_cut reader.endian reader.span
  have delivered := read_all_delivers cut reader valid rfl rfl
  have counts := deliver_all_counts reader records
  have fresh : reader.decoder.decoded = 0 ∧ reader.skipped = 0 := by
    simp only [reader, new, readFileHeader]
    split_ifs <;> exact ⟨rfl, rfl⟩
  refine ⟨?_, ?_, ?_⟩
  · rw [delivered.1, delivered.2]
    omega
  · have moved := new_moved data (accepted ++ tail) config valid
    have same : Same reader { reader with span := accepted ++ tail } := ⟨rfl, rfl, rfl⟩
    have again := read_all_delivers (cut.sublist (kept_sublist reader records))
      { reader with span := accepted ++ tail } valid rfl rfl
    rw [moved, again.1, delivered.1]
    exact (same.deliver_kept records).symm
  · intro capture
    have same : Same { reader with capture := capture } reader := ⟨rfl, rfl, rfl⟩
    exact same.results records

/-- A file header, a record that is too short for an Ethernet header, and a cut one. -/
def shortCapture : List UInt8 :=
  [0xd4, 0xc3, 0xb2, 0xa1, 2, 0, 4, 0, 0, 0, 0, 0, 0, 0, 0, 0, 0, 0, 1, 0, 1, 0, 0, 0,
    1, 0, 0, 0, 2, 0, 0, 0, 3, 0, 0, 0, 3, 0, 0, 0, 7, 7, 7,
    1, 0, 0, 0, 2, 0, 0, 0, 9, 0]

/-- A record of a datagram from 10.0.0.1:5000 to a port of 10.0.0.2, without checksums. -/
def datagramRecord (port : UInt8) : List UInt8 :=
  [1, 0, 0, 0, 2, 0, 0, 0, 43, 0, 0, 0, 43, 0, 0, 0] ++
    [2, 0, 0, 0, 0, 1, 2, 0, 0, 0, 0, 2, 0x08, 0x00,
      0x45, 0, 0, 29, 0, 0, 0, 0, 64, 17, 0, 0, 10, 0, 0, 1, 10, 0, 0, 2,
      0x13, 0x88, 0, port, 0, 9, 0, 0, 7]

/-- Datagrams to port 53 around a record that is too short and a datagram to port 80. -/
def mixedCapture : List UInt8 :=
  shortCapture.take 24 ++ datagramRecord 53 ++ (shortCapture.drop 24).take 19 ++
    datagramRecord 80 ++ datagramRecord 53 ++ shortCapture.drop 43

/-- Only the records of the datagrams to port 53 leave something behind. -/
theorem skipped_records_leave_no_trace_mixed :
    let config : Config := { verifyChecksum := false, filter := { dstPort := 53 } }
    let final := (new mixedCapture config).readAllPackets
    (new (shortCapture.take 24 ++ datagramRecord 53 ++ datagramRecord 53 ++ shortCapture.drop 43)
        config).readAllPackets.decoder = final.decoder ∧
      final.decoder.decoded = 2 ∧ final.skipped = 1 ∧ final.decoder.flowTable.totalBytes = 86 := by
  intro config final
  have same := (skipped_records_leave_no_trace config mixedCapture (by decide +kernel)).2.1
  have accepted : mixedCapture.take fileHeaderLen ++
      (((new mixedCapture config).kept (completeRecords (new mixedCapture config).endian
        (new mixedCapture config).span).1).map Record.raw).flatten ++
        (completeRecords (new mixedCapture config).endian (new mixedCapture config).span).2 =
      shortCapture.take 24 ++ datagramRecord 53 ++ datagramRecord 53 ++ shortCapture.drop 43 := by
    decide +kernel
  rw [← List.append_assoc, accepted] at same
  exact ⟨same, by decide +kernel, by decide +kernel, by decide +kernel⟩

end Reader

end PcapAnalyzer.Pcap
