import PcapAnalyzer.Capture.NoTrace

/-!
# The calls of `decode` of a reader

What reaches `Decoder::decode` while all packets are read, taken from the passes of the
reader's two loops, and that these are the complete records of the data.
-/

namespace PcapAnalyzer.Pcap

set_option autoImplicit false

/-- One call: its arguments, its return code and, on success, the decoded packet. -/
structure DecodeCall where
  packetSpan : List UInt8
  tsUs : UInt64
  err : ParseError
  decoded : Option Packet

namespace Reader

def callOf (decoder : Decoder) (packetSpan : List UInt8) (capture : Capture) : DecodeCall :=
  let (err, captured, _) := decoder.decode packetSpan capture
  { packetSpan := packetSpan
    tsUs := capture.tsUs
    err := err
    decoded := if err = .none then some captured.pkt else none }

/-- The call of one pass of the loop of `readPacket`, if it gets that far. -/
def turnCall (reader : Reader) : Option DecodeCall :=
  match reader.nextRecord with
  | (.none, next, packetSpan) => some (callOf next.decoder packetSpan next.capture)
  | _ => none

def packetCalls (reader : Reader) : List DecodeCall :=
  if reader.headerErr ≠ .none then [] else
  (MeasuredLoop.visited recordTurn (reader.span.length + 1) reader).filterMap turnCall

/-- The calls of `readAllPackets`, in order. -/
def decodeCalls (reader : Reader) : List DecodeCall :=
  (MeasuredLoop.visited packetTurn (reader.span.length + 1) reader).flatMap packetCalls

/-- What the calls of `readPacket` by `readAllPackets` return. -/
def readReturns (reader : Reader) : List ParseError :=
  (MeasuredLoop.visited packetTurn (reader.span.length + 1) reader).map fun seen =>
    seen.readPacket.1

/-- The calls for a list of records that are delivered one after the other. -/
def callsFor : Reader → List Record → List DecodeCall
  | _, [] => []
  | reader, record :: rest =>
      callOf reader.decoder record.packet (reader.captureOf record) ::
        (reader.deliver record).2.callsFor rest

section Turns

variable {reader : Reader} {record : Record} {rest : List UInt8}

theorem turn_call_some (split : splitRecord reader.endian reader.span = some (record, rest)) :
    turnCall reader =
      some (callOf reader.decoder record.packet (reader.captureOf record)) := by
  rw [turnCall, next_record_some split]

theorem turn_call_none (split : splitRecord reader.endian reader.span = none) :
    turnCall reader = none := by
  have stops := next_record_none split
  rw [turnCall]
  split
  · next found =>
      rw [found] at stops
      exact absurd rfl stops.1
  · rfl

/-- One complete record is one call; then the reader goes on as if it began behind it. -/
theorem decode_calls_next (valid : reader.headerErr = .none)
    (split : splitRecord reader.endian reader.span = some (record, rest)) :
    reader.decodeCalls =
        callOf reader.decoder record.packet (reader.captureOf record) ::
          (reader.deliver record).2.decodeCalls ∧
      (reader.readReturns.getLast? = (reader.deliver record).2.readReturns.getLast?) := by
  have call := turn_call_some split
  by_cases accepted : (reader.deliver record).1 = .none
  · obtain ⟨turn, read, pass⟩ := read_packet_accepted valid split accepted
    have seen := MeasuredLoop.visited_again packet_turn_decreasing
      (Nat.lt_succ_self reader.span.length) pass
    have calls : reader.packetCalls =
        [callOf reader.decoder record.packet (reader.captureOf record)] := by
      rw [packetCalls, if_neg (by simpa using valid), MeasuredLoop.visited_leave turn]
      simp [call]
    refine ⟨?_, ?_⟩
    · rw [decodeCalls, seen, List.flatMap_cons, calls, List.singleton_append, decodeCalls]
    · rw [readReturns, seen, List.map_cons, readReturns]
      simp only [MeasuredLoop.visited, List.map_cons, List.getLast?_cons_cons]
  · obtain ⟨turn, read, pass⟩ := read_packet_refused valid split accepted
    have validNext : (reader.deliver record).2.headerErr = .none := by
      rw [(deliver_frame reader record).2.2.1, valid]
    have seenRecords := MeasuredLoop.visited_again record_turn_decreasing
      (Nat.lt_succ_self reader.span.length) turn
    have calls : reader.packetCalls =
        callOf reader.decoder record.packet (reader.captureOf record) ::
          (reader.deliver record).2.packetCalls := by
      rw [packetCalls, if_neg (by simpa using valid), seenRecords, List.filterMap_cons, call,
        packetCalls, if_neg (by simpa using validNext)]
    simp only [decodeCalls, readReturns]
    cases leaves : packetTurn (reader.deliver record).2 with
    | leave result =>
        rw [leaves] at pass
        rw [MeasuredLoop.visited_leave pass, MeasuredLoop.visited_leave leaves]
        simp [calls, read]
    | again later =>
        rw [leaves] at pass
        rw [MeasuredLoop.visited_again packet_turn_decreasing (Nat.lt_succ_self _) pass,
          MeasuredLoop.visited_again packet_turn_decreasing (Nat.lt_succ_self _) leaves]
        refine ⟨by simp [calls], ?_⟩
        simp only [MeasuredLoop.visited, List.map_cons, List.getLast?_cons_cons]

theorem decode_calls_stop (valid : reader.headerErr = .none)
    (split : splitRecord reader.endian reader.span = none) :
    reader.decodeCalls = [] ∧ reader.readReturns = [reader.readPacket.1] := by
  obtain ⟨_, _, leaves, _, pass, _⟩ := read_packet_stop valid split
  have calls : reader.packetCalls = [] := by
    rw [packetCalls, if_neg (by simpa using valid), MeasuredLoop.visited_leave leaves]
    simp [turn_call_none split]
  rw [decodeCalls, readReturns, MeasuredLoop.visited_leave pass]
  simp [calls]

/-- The calls of a reader are those for the complete records of its data. -/
theorem decode_calls_cut {endian : Endian} {span tail : List UInt8} {records : List Record}
    (cut : Cut endian span records tail) (reader : Reader) (valid : reader.headerErr = .none)
    (sameEndian : reader.endian = endian) (sameSpan : reader.span = span) :
    reader.decodeCalls = reader.callsFor records := by
  induction cut generalizing reader with
  | stop none =>
      subst sameEndian sameSpan
      exact (decode_calls_stop valid none).1
  | @next _ _ _ record _ split after ih =>
      subst sameEndian sameSpan
      have frame := deliver_frame reader record
      rw [(decode_calls_next valid split).1, callsFor]
      exact congrArg _ (ih _ (frame.2.2.1.trans valid) frame.2.1
        (frame.1.trans (split_record_some split).rest.symm))

/-- Data that is cut without a tail is read to its end, and the last read says so. -/
theorem read_all_complete {endian : Endian} {span tail : List UInt8} {records : List Record}
    (cut : Cut endian span records tail) (reader : Reader) (valid : reader.headerErr = .none)
    (sameEndian : reader.endian = endian) (sameSpan : reader.span = span) (whole : tail = []) :
    reader.readReturns.getLast? = some .unexpectedEofF ∧
      reader.readAllPackets = reader.deliverAll records ∧ reader.readAllPackets.span = [] := by
  induction cut generalizing reader with
  | stop none =>
      subst sameEndian whole
      have turn : recordTurn reader = .leave (.unexpectedEofF, reader) := by
        rw [recordTurn, nextRecord, sameSpan]
        rfl
      have read : reader.readPacket = (.unexpectedEofF, reader) := by
        rw [readPacket, if_neg (by simpa using valid)]
        exact MeasuredLoop.run_leave record_turn_decreasing (Nat.lt_succ_self _) turn
      have pass : packetTurn reader = .leave reader := by rw [packetTurn, read]
      have final : reader.readAllPackets = reader :=
        MeasuredLoop.run_leave packet_turn_decreasing (Nat.lt_succ_self _) pass
      rw [readReturns, MeasuredLoop.visited_leave pass, final]
      exact ⟨by simp [read], rfl, sameSpan⟩
  | @next _ _ _ record _ split after ih =>
      subst sameEndian sameSpan
      have frame := deliver_frame reader record
      rw [(decode_calls_next valid split).2, read_all_next valid split]
      exact ih _ (frame.2.2.1.trans valid) frame.2.1
        (frame.1.trans (split_record_some split).rest.symm) whole

end Turns

end Reader

end PcapAnalyzer.Pcap
