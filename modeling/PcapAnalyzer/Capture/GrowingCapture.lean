import PcapAnalyzer.Capture.FileRoundTrip

/-!
# Captures that grow

A capture that is still written is a file that is cut off anywhere. Reading the longer file is
reading the shorter one and going on with the complete records that the bytes it left unread and
the new ones make up.
-/

namespace PcapAnalyzer

open Pcap (Capture)

set_option autoImplicit false

theorem FlowTable.retire_expired_completed (table : FlowTable) (key : FlowKey) (tsUs : UInt64) :
    table.completed <+: (table.retireExpired key tsUs).completed := by
  unfold retireExpired
  split
  · split_ifs
    · exact List.prefix_append _ _
    · exact List.prefix_rfl
  · exact List.prefix_rfl

/-- Adding a packet retires flows behind those that were retired. -/
theorem FlowTable.add_packet_completed (table : FlowTable) (capture : Capture) :
    table.completed <+: (table.addPacket capture).2.completed := by
  unfold addPacket
  split_ifs
  · exact List.prefix_rfl
  · cases keyFromPacket capture.pkt {} with
    | error err => exact List.prefix_rfl
    | ok key =>
        exact FlowTable.retire_expired_completed { table with
          totalBytes := table.totalBytes + capture.packetHeader.inclLen.toNat } _ _

theorem Decoder.decode_flow_completed (decoder : Decoder) (capture : Capture) (key : FlowKey)
    (isNew : Bool) :
    (decoder.decodeFlow capture key isNew).flowTable.completed = decoder.flowTable.completed := by
  unfold decodeFlow
  cases decoder.flowTable.flows.lookup key with
  | none => rfl
  | some flow => rfl

theorem Decoder.decode_completed (decoder : Decoder) (span : List UInt8) (capture : Capture) :
    decoder.flowTable.completed <+: (decoder.decode span capture).2.2.flowTable.completed := by
  unfold decode decodeCapture
  have added := fun capture => decoder.flowTable.add_packet_completed capture
  simp only
  split_ifs
  · exact List.prefix_rfl
  · exact List.prefix_rfl
  · exact added _
  · simp only [decode_flow_completed]
    exact added _
  · exact added _

namespace Pcap

/-- What is left unread of some data is read with what follows. -/
theorem Cut.append {endian : Endian} {span tail more rest : List UInt8}
    {records later : List Record} (cut : Cut endian span records tail)
    (after : Cut endian (tail ++ more) later rest) :
    Cut endian (span ++ more) (records ++ later) rest := by
  induction cut with
  | stop none => exact after
  | @next _ rest _ _ _ split _ ih =>
      have splits := split_record_some split
      have moved := splits.moved (rest ++ more)
      rw [← List.append_assoc, splits.joined] at moved
      exact .next moved.split (ih after)

namespace Reader

section Alike

theorem Alike.refl (reader : Reader) : Alike reader reader := ⟨rfl, rfl, rfl, rfl, rfl⟩

theorem Alike.symm {left right : Reader} (alike : Alike left right) : Alike right left :=
  ⟨alike.decoder.symm, alike.pkt.symm, alike.linktype.symm, alike.skipped.symm,
    alike.lastSkipErr.symm⟩

theorem Alike.trans {left middle right : Reader} (first : Alike left middle)
    (second : Alike middle right) : Alike left right where
  decoder := first.decoder.trans second.decoder
  pkt := first.pkt.trans second.pkt
  linktype := first.linktype.trans second.linktype
  skipped := first.skipped.trans second.skipped
  lastSkipErr := first.lastSkipErr.trans second.lastSkipErr

theorem Alike.deliver_records {left right : Reader} (alike : Alike left right)
    (resolution : left.isNsec = right.isNsec) (records : List Record) :
    left.callsFor records = right.callsFor records ∧
      Alike (left.deliverAll records) (right.deliverAll records) := by
  induction records generalizing left right with
  | nil => exact ⟨rfl, alike⟩
  | cons record records ih =>
      have tsUs : timestampUs left.isNsec record.header = timestampUs right.isNsec record.header :=
        congrArg (timestampUs · record.header) resolution
      have step := alike.deliver record record rfl tsUs rfl
      have frame := deliver_frame left record
      have frameToo := deliver_frame right record
      have rest := ih step.2 (frame.2.2.2.1.trans (resolution.trans frameToo.2.2.2.1.symm))
      refine ⟨?_, rest.2⟩
      simp only [callsFor, step.1, rest.1]

/-- Where no complete record is in front, at most the packet header is read. -/
theorem next_record_none_alike {reader : Reader}
    (split : splitRecord reader.endian reader.span = none) :
    Alike reader.nextRecord.2.1 reader ∧ reader.nextRecord.2.1.isNsec = reader.isNsec := by
  have stops := (next_record_none split).1
  unfold nextRecord at stops ⊢
  simp only at stops ⊢
  split_ifs at stops ⊢
  · exact ⟨.refl reader, rfl⟩
  · exact ⟨⟨rfl, rfl, rfl, rfl, rfl⟩, rfl⟩
  · exact ⟨⟨rfl, rfl, rfl, rfl, rfl⟩, rfl⟩
  · exact absurd rfl stops

theorem read_all_stop_alike {reader : Reader} (valid : reader.headerErr = .none)
    (split : splitRecord reader.endian reader.span = none) :
    Alike reader.readAllPackets reader ∧ reader.readAllPackets.isNsec = reader.isNsec := by
  obtain ⟨err, stopped, leaves, -, pass, -⟩ := read_packet_stop valid split
  have final : reader.readAllPackets = stopped :=
    MeasuredLoop.run_leave packet_turn_decreasing (Nat.lt_succ_self _) pass
  have stops := next_record_none split
  have same := next_record_none_alike split
  rcases found : reader.nextRecord with ⟨failed, next, packet⟩
  rw [found] at stops same
  have read : recordTurn reader = .leave (failed, next) := by
    unfold recordTurn
    rw [found]
    cases failed <;> first | rfl | exact absurd rfl stops.1
  rw [read] at leaves
  cases leaves
  rw [final]
  exact same

/-- All packets are read as the complete records are delivered. -/
theorem read_all_alike {endian : Endian} {span tail : List UInt8} {records : List Record}
    (cut : Cut endian span records tail) (reader : Reader) (valid : reader.headerErr = .none)
    (sameEndian : reader.endian = endian) (sameSpan : reader.span = span) :
    Alike reader.readAllPackets (reader.deliverAll records) ∧
      reader.readAllPackets.isNsec = reader.isNsec := by
  induction cut generalizing reader with
  | stop none =>
      subst sameEndian sameSpan
      exact read_all_stop_alike valid none
  | @next _ _ _ record _ split after ih =>
      subst sameEndian sameSpan
      have frame := deliver_frame reader record
      rw [read_all_next valid split]
      have later := ih _ (frame.2.2.1.trans valid) frame.2.1
        (frame.1.trans (split_record_some split).rest.symm)
      exact ⟨later.1, later.2.trans frame.2.2.2.1⟩

end Alike

theorem calls_for_append (reader : Reader) (records later : List Record) :
    reader.callsFor (records ++ later) =
      reader.callsFor records ++ (reader.deliverAll records).callsFor later := by
  induction records generalizing reader with
  | nil => rfl
  | cons record records ih =>
      rw [List.cons_append, callsFor, ih, callsFor, List.cons_append]
      rfl

theorem deliver_all_resolution (reader : Reader) (records : List Record) :
    (reader.deliverAll records).isNsec = reader.isNsec := by
  induction records generalizing reader with
  | nil => rfl
  | cons record records ih => exact (ih _).trans (deliver_frame reader record).2.2.2.1

theorem deliver_all_append (reader : Reader) (records later : List Record) :
    reader.deliverAll (records ++ later) = (reader.deliverAll records).deliverAll later :=
  List.foldl_append

theorem deliver_all_completed (reader : Reader) (records : List Record) :
    reader.decoder.flowTable.completed <+:
      (reader.deliverAll records).decoder.flowTable.completed := by
  induction records generalizing reader with
  | nil => exact List.prefix_rfl
  | cons record records ih =>
      refine List.IsPrefix.trans ?_ (ih (reader.deliver record).2)
      have decoded := reader.decoder.decode_completed record.packet (reader.captureOf record)
      simp only [deliver]
      split_ifs <;> exact decoded

/-- Reading a longer capture is reading the shorter one and going on: the same calls first, with
the same results, then those for the records that the unread bytes begin; and the retired flows of
the shorter capture come first among those of the longer. -/
theorem capture_grows (config : Config) (data more : List UInt8)
    (valid : (new data config).headerErr = .none) :
    let part := new data config
    let whole := new (data ++ more) config
    let unread := (completeRecords part.endian part.span).2
    let later := (completeRecords part.endian (unread ++ more)).1
    whole.decodeCalls = part.decodeCalls ++ part.readAllPackets.callsFor later ∧
      Alike whole.readAllPackets (part.readAllPackets.deliverAll later) ∧
      part.readAllPackets.decoder.flowTable.completed <+:
        whole.readAllPackets.decoder.flowTable.completed := by
  intro part whole unread later
  have body : data.take fileHeaderLen ++ data.drop fileHeaderLen = data := List.take_append_drop _ _
  have partSpan : part.span = data.drop fileHeaderLen := by
    have moved := new_moved data (data.drop fileHeaderLen) config valid
    rw [body] at moved
    exact congrArg Reader.span moved
  have grown : whole = { part with span := part.span ++ more } := by
    have moved := new_moved data (data.drop fileHeaderLen ++ more) config valid
    rw [← List.append_assoc, body, ← partSpan] at moved
    exact moved
  have cut := complete_records_cut part.endian part.span
  have wholeCut : Cut part.endian (part.span ++ more)
      ((completeRecords part.endian part.span).1 ++ later) _ :=
    cut.append (complete_records_cut part.endian (unread ++ more))
  have start : Alike whole part := by
    rw [grown]
    exact ⟨rfl, rfl, rfl, rfl, rfl⟩
  have wholeValid : whole.headerErr = .none := by
    rw [grown]
    exact valid
  have wholeEndian : whole.endian = part.endian := by rw [grown]
  have wholeSpan : whole.span = part.span ++ more := by rw [grown]
  have resolution : whole.isNsec = part.isNsec := by rw [grown]
  have partRead := read_all_alike cut part valid rfl rfl
  have wholeRead := read_all_alike wholeCut whole wholeValid wholeEndian wholeSpan
  have delivered := start.deliver_records resolution (completeRecords part.endian part.span).1
  have resumed : Alike (whole.deliverAll (completeRecords part.endian part.span).1)
      part.readAllPackets := delivered.2.trans partRead.1.symm
  have sameResolution : (whole.deliverAll (completeRecords part.endian part.span).1).isNsec =
      part.readAllPackets.isNsec := by
    rw [deliver_all_resolution, resolution, partRead.2]
  have continued := resumed.deliver_records sameResolution later
  have read : Alike whole.readAllPackets (part.readAllPackets.deliverAll later) := by
    have all := wholeRead.1
    rw [deliver_all_append] at all
    exact all.trans continued.2
  refine ⟨?_, read, ?_⟩
  · rw [decode_calls_cut wholeCut whole wholeValid wholeEndian wholeSpan, calls_for_append,
      delivered.1, continued.1, decode_calls_cut cut part valid rfl rfl]
  · rw [read.decoder]
    exact deliver_all_completed part.readAllPackets later

/-- The short capture with the rest of its cut record. -/
theorem capture_grows_short :
    let part := new shortCapture {}
    let whole := new (shortCapture ++ [0, 0, 9, 0, 0, 0, 1, 1, 1, 1, 1, 1, 1, 1, 1]) {}
    (completeRecords part.endian part.span).1.length = 1 ∧
      (completeRecords whole.endian whole.span).1.length = 2 ∧
      part.readAllPackets.decoder.flowTable.completed <+:
        whole.readAllPackets.decoder.flowTable.completed :=
  ⟨by decide, by decide, (capture_grows {} shortCapture _ (by decide)).2.2⟩

end Reader

end Pcap

end PcapAnalyzer
