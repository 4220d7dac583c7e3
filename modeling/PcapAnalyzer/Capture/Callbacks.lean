import PcapAnalyzer.Capture.DecodeCalls

/-!
# Reading with a callback

`readAllPackets` with a callback is reading without one and a fold over the readers that
`readPacket` left behind, one for each record that was accepted.
-/

namespace PcapAnalyzer.Pcap

open MeasuredLoop (Turn Decreasing)

set_option autoImplicit false

namespace Reader

variable {Out : Type}

/-- A pass of the loop; the callback may look at the reader and changes its own state. -/
def callbackTurn (onPacket : Reader → Out → Out) (state : Reader × Out) :
    Turn (Reader × Out) (Reader × Out) :=
  match state.1.readPacket with
  | (.none, reader) => .again (reader, onPacket reader state.2)
  | (_, reader) => .leave (reader, state.2)

def readAllPacketsWith (onPacket : Reader → Out → Out) (reader : Reader) (out : Out) :
    Reader × Out :=
  MeasuredLoop.run (callbackTurn onPacket) id (reader.span.length + 1) (reader, out)

/-- The readers after the records that are accepted. -/
def accepted : Reader → List Record → List Reader
  | _, [] => []
  | reader, record :: rest =>
      (if (reader.deliver record).1 = .none then [(reader.deliver record).2] else []) ++
        (reader.deliver record).2.accepted rest

/-- The readers that the callback is called with. -/
def acceptedPackets (reader : Reader) : List Reader :=
  if reader.headerErr ≠ .none then []
  else reader.accepted (completeRecords reader.endian reader.span).1

section Rule

variable (onPacket : Reader → Out → Out)

theorem callback_turn_decreasing :
    Decreasing (callbackTurn onPacket) fun state => state.1.span.length := by
  intro state next pass
  unfold callbackTurn at pass
  rcases read : state.1.readPacket with ⟨err, later⟩
  rw [read] at pass
  cases err <;> simp only [reduceCtorEq] at pass
  cases pass
  exact read_packet_shorter read

theorem read_all_with_cut {endian : Endian} {span tail : List UInt8} {records : List Record}
    (cut : Cut endian span records tail) (reader : Reader) (out : Out)
    (valid : reader.headerErr = .none) (sameEndian : reader.endian = endian)
    (sameSpan : reader.span = span) :
    readAllPacketsWith onPacket reader out = (reader.readAllPackets,
      (reader.accepted records).foldl (fun out seen => onPacket seen out) out) := by
  induction cut generalizing reader out with
  | stop none =>
      subst sameEndian sameSpan
      obtain ⟨err, stopped, -, read, pass, -⟩ := read_packet_stop valid none
      have final : reader.readAllPackets = stopped :=
        MeasuredLoop.run_leave packet_turn_decreasing (Nat.lt_succ_self _) pass
      have leaves : callbackTurn onPacket (reader, out) = .leave (stopped, out) := by
        rw [packetTurn, read] at pass
        rw [callbackTurn, read]
        cases err with
        | none => cases pass
        | _ => rfl
      rw [final]
      exact MeasuredLoop.run_leave (callback_turn_decreasing onPacket) (Nat.lt_succ_self _) leaves
  | @next _ _ _ record records split after ih =>
      subst sameEndian sameSpan
      have frame := deliver_frame reader record
      have later := fun out => ih (reader.deliver record).2 out (frame.2.2.1.trans valid)
        frame.2.1 (frame.1.trans (split_record_some split).rest.symm)
      rw [read_all_next valid split, accepted]
      by_cases taken : (reader.deliver record).1 = .none
      · obtain ⟨-, read, -⟩ := read_packet_accepted valid split taken
        have again : callbackTurn onPacket (reader, out) =
            .again ((reader.deliver record).2, onPacket (reader.deliver record).2 out) := by
          rw [callbackTurn, read]
        rw [if_pos taken, List.singleton_append, List.foldl_cons, ← later]
        exact MeasuredLoop.run_again (callback_turn_decreasing onPacket) (Nat.lt_succ_self _) again
      · obtain ⟨-, read, -⟩ := read_packet_refused valid split taken
        have same : callbackTurn onPacket (reader, out) =
            callbackTurn onPacket ((reader.deliver record).2, out) := by
          rw [callbackTurn, callbackTurn, read]
        rw [if_neg taken, List.nil_append, ← later]
        unfold readAllPacketsWith
        have decreasing := callback_turn_decreasing onPacket
        cases pass : callbackTurn onPacket ((reader.deliver record).2, out) with
        | leave result =>
            rw [MeasuredLoop.run_leave decreasing (Nat.lt_succ_self _) (same.trans pass),
              MeasuredLoop.run_leave decreasing (Nat.lt_succ_self _) pass]
        | again next =>
            rw [MeasuredLoop.run_again decreasing (Nat.lt_succ_self _) (same.trans pass),
              MeasuredLoop.run_again decreasing (Nat.lt_succ_self _) pass]

theorem packet_turn_invalid {reader : Reader} (invalid : ¬ reader.headerErr = .none) :
    packetTurn reader = .leave reader := by
  have read : reader.readPacket = (reader.headerErr, reader) := by
    rw [readPacket, if_pos invalid]
  rw [packetTurn, read]
  cases err : reader.headerErr with
  | none => exact absurd err invalid
  | _ => rfl

/-- Reading with a callback is reading without, and the callback sees the accepted packets in
order. -/
theorem read_all_with (reader : Reader) (out : Out) : readAllPacketsWith onPacket reader out =
    (reader.readAllPackets,
      reader.acceptedPackets.foldl (fun out seen => onPacket seen out) out) := by
  unfold acceptedPackets
  by_cases valid : reader.headerErr = .none
  · rw [if_neg (by simpa using valid)]
    exact read_all_with_cut onPacket (complete_records_cut _ _) reader out valid rfl rfl
  · have read : reader.readPacket = (reader.headerErr, reader) := by
      rw [readPacket, if_pos valid]
    have pass := packet_turn_invalid valid
    have leaves : callbackTurn onPacket (reader, out) = .leave (reader, out) := by
      rw [callbackTurn, read]
      cases err : reader.headerErr with
      | none => exact absurd err valid
      | _ => rfl
    have final : reader.readAllPackets = reader :=
      MeasuredLoop.run_leave packet_turn_decreasing (Nat.lt_succ_self _) pass
    rw [if_pos valid, final]
    exact MeasuredLoop.run_leave (callback_turn_decreasing onPacket) (Nat.lt_succ_self _) leaves

end Rule

section Counting

/-- Only an accepted packet is counted. -/
theorem deliver_decoded (reader : Reader) (record : Record) :
    (reader.deliver record).2.decoder.decoded =
      reader.decoder.decoded + if (reader.deliver record).1 = .none then 1 else 0 := by
  have accepts := reader.decoder.decode_decoded record.packet (reader.captureOf record)
  have rejects := reader.decoder.decode_error record.packet (reader.captureOf record)
  simp only [deliver]
  generalize reader.decoder.decode record.packet (reader.captureOf record) = outcome at *
  rcases outcome with ⟨err, capture, decoder⟩
  simp only at accepts rejects
  by_cases taken : err = .none
  · simp [taken, accepts taken]
  · have unchanged := rejects taken
    by_cases refused : err = .filtered
    · simp [refused, unchanged]
    · simp [taken, refused, unchanged]

/-- The packets that are accepted are numbered in the order of the records. -/
theorem accepted_numbered (reader : Reader) (records : List Record) :
    (reader.accepted records).map (fun seen => seen.decoder.decoded) =
      List.range' (reader.decoder.decoded + 1) (reader.accepted records).length := by
  induction records generalizing reader with
  | nil => rfl
  | cons record records ih =>
      have counts := deliver_decoded reader record
      have later := ih (reader.deliver record).2
      rw [accepted]
      by_cases taken : (reader.deliver record).1 = .none
      · rw [if_pos taken] at counts ⊢
        rw [List.singleton_append, List.map_cons, List.length_cons, List.range'_succ, later, counts]
      · rw [if_neg taken] at counts ⊢
        rw [List.nil_append, later, counts, Nat.add_zero]

/-- What `deliver` leaves in the capture of an accepted record. -/
theorem deliver_capture (reader : Reader) (record : Record) :
    (reader.deliver record).2.capture.packetHeader = record.header ∧
      (callOf reader.decoder record.packet (reader.captureOf record)).decoded =
        if (reader.deliver record).1 = .none then some (reader.deliver record).2.capture.pkt
        else none := by
  have kept : (reader.decoder.decode record.packet (reader.captureOf record)).2.1.packetHeader =
      record.header := by
    simp only [Decoder.decode]
    split_ifs <;> rfl
  simp only [deliver, callOf]
  split_ifs <;> simp_all

/-- The headers and the packets that the callback sees are those of the accepted records. -/
theorem accepted_captures (reader : Reader) (records : List Record) :
    (reader.accepted records).map (fun seen => seen.capture.packetHeader) =
        ((reader.results records).filter fun result => result.2 = .none).map
          (fun result => result.1.header) ∧
      (reader.accepted records).map (fun seen => seen.capture.pkt) =
        (reader.callsFor records).filterMap DecodeCall.decoded := by
  induction records generalizing reader with
  | nil => exact ⟨rfl, rfl⟩
  | cons record records ih =>
      obtain ⟨header, decoded⟩ := deliver_capture reader record
      obtain ⟨headers, packets⟩ := ih (reader.deliver record).2
      rw [accepted, results, callsFor, List.filterMap_cons, decoded]
      by_cases taken : (reader.deliver record).1 = .none
      · simp [taken, headers, packets, header]
      · simp [taken, headers, packets]

theorem accepted_packets_decoded (reader : Reader) :
    reader.acceptedPackets.map (fun seen => seen.capture.pkt) =
      reader.decodeCalls.filterMap DecodeCall.decoded := by
  unfold acceptedPackets
  by_cases valid : reader.headerErr = .none
  · have cut := complete_records_cut reader.endian reader.span
    rw [if_neg (by simpa using valid), (accepted_captures _ _).2,
      decode_calls_cut cut reader valid rfl rfl]
  · rw [if_pos valid, decodeCalls, MeasuredLoop.visited_leave (packet_turn_invalid valid)]
    simp [packetCalls, valid]

end Counting

end Reader

end PcapAnalyzer.Pcap
