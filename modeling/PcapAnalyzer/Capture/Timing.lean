import PcapAnalyzer.Analysis.Benchmark
import PcapAnalyzer.Capture.DecodeCalls

/-!
# Timing a run

The reader and the decoder with the calls that start and stop the phases. Timing changes nothing
about a run, every phase is left on every path out of it, and the phases inside of another take
together no more time than that one.
-/

namespace PcapAnalyzer

open MeasuredLoop (Turn)
open Pcap (Capture)
open Stopwatch (Covers InTime Mark Nested count_start_within covers_untouched covers_within
  in_time_own within)

set_option autoImplicit false

section Timed

variable (clock : Nat → Nat)

/-- `decode`; reassembly and the application decoders are one step of the model, and both pairs
of calls stand in front of it. -/
def Decoder.decodeTimed (decoder : Decoder) (span : List UInt8) (capture : Capture)
    (benchmark : Benchmark) : (ParseError × Capture × Decoder) × Benchmark :=
  let benchmark := benchmark.start clock .decodePacket
  let parsed := decodePacket span capture.pkt.reset decoder.config.verifyChecksum
  let benchmark := benchmark.stop clock .decodePacket
  let capture := { capture with pkt := parsed.header }
  if parsed.err ≠ .none then ((parsed.err, capture, decoder), benchmark) else
  if filtered decoder.config.filter capture.pkt then ((.filtered, capture, decoder), benchmark) else
  let benchmark := benchmark.start clock .flowLookup
  let (added, flowTable) := decoder.flowTable.addPacket capture
  let benchmark := benchmark.stop clock .flowLookup
  let decoder := { decoder with flowTable := flowTable }
  if added.err ≠ .none then ((added.err, capture, decoder), benchmark) else
  let benchmark := if added.flow && capture.pkt.isTcp then
      (benchmark.start clock .tcpReassembly).stop clock .tcpReassembly
    else benchmark
  let benchmark := if added.flow then
      (benchmark.start clock .appDecode).stop clock .appDecode
    else benchmark
  let decoder := if added.flow then decoder.decodeFlow capture added.key added.isNew else decoder
  ((.none, capture, { decoder with decoded := decoder.decoded + 1 }), benchmark)

/-- The marks of a call of `decode`. -/
def Decoder.decodeMarks (decoder : Decoder) (span : List UInt8) (capture : Capture) :
    List (Mark Phase) :=
  let parsed := decodePacket span capture.pkt.reset decoder.config.verifyChecksum
  let capture := { capture with pkt := parsed.header }
  let added := (decoder.flowTable.addPacket capture).1
  within .decodePacket [] ++
    if parsed.err ≠ .none ∨ filtered decoder.config.filter capture.pkt then [] else
    within .flowLookup [] ++
      if added.err ≠ .none ∨ !added.flow then [] else
      (if capture.pkt.isTcp then within .tcpReassembly [] else []) ++ within .appDecode []

theorem Benchmark.stop_start (phase : Phase) (benchmark : Benchmark) :
    (benchmark.start clock phase).stop clock phase = benchmark.play clock (within phase []) := by
  rw [start_eq, stop_eq, play_play]
  rfl

theorem Decoder.decode_timed (decoder : Decoder) (span : List UInt8) (capture : Capture)
    (benchmark : Benchmark) : decoder.decodeTimed clock span capture benchmark =
      (decoder.decode span capture, benchmark.play clock (decoder.decodeMarks span capture)) := by
  unfold decodeTimed decode decodeCapture decodeMarks
  simp only [Benchmark.stop_start]
  generalize decodePacket span capture.pkt.reset decoder.config.verifyChecksum = parsed
  by_cases failed : parsed.err ≠ .none
  · simp [failed]
  by_cases refused : filtered decoder.config.filter parsed.header = true
  · simp [failed, refused]
  simp only [failed, refused, if_false, Benchmark.play_play]
  generalize decoder.flowTable.addPacket { capture with pkt := parsed.header } = posted
  obtain ⟨added, table⟩ := posted
  by_cases unposted : added.err ≠ .none
  · simp [unposted]
  cases inFlow : added.flow with
  | false => simp [unposted]
  | true =>
      cases parsed.header.isTcp with
      | false => simp [unposted, Benchmark.play_play]
      | true => simp [unposted, Benchmark.play_play]

namespace Pcap.Reader

/-- One pass of the loop of `readPacket`. -/
def recordTurnTimed (state : Reader × Benchmark) :
    Turn (Reader × Benchmark) ((ParseError × Reader) × Benchmark) :=
  let (reader, benchmark) := state
  if reader.span.length < packetHeaderLen then .leave ((.unexpectedEofF, reader), benchmark) else
  let benchmark := benchmark.start clock .packetHeader
  match reader.nextRecord with
  | (.none, reader, packetSpan) =>
      let benchmark := benchmark.stop clock .packetHeader
      let benchmark := benchmark.start clock .decode
      let ((err, capture, decoder), benchmark) :=
        reader.decoder.decodeTimed clock packetSpan reader.capture benchmark
      let benchmark := benchmark.stop clock .decode
      let reader := { reader with capture := capture, decoder := decoder }
      if err = .filtered then .again (reader, benchmark)
      else if err ≠ .none then
        .again ({ reader with skipped := reader.skipped + 1, lastSkipErr := err }, benchmark)
      else .leave ((.none, reader), benchmark)
  | (err, reader, _) => .leave ((err, reader), benchmark.stop clock .packetHeader)

def readPacketTimed (state : Reader × Benchmark) : (ParseError × Reader) × Benchmark :=
  if state.1.headerErr ≠ .none then ((state.1.headerErr, state.1), state.2) else
  MeasuredLoop.run (recordTurnTimed clock) (fun state => ((.unexpectedEofF, state.1), state.2))
    (state.1.span.length + 1) state

def packetTurnTimed (state : Reader × Benchmark) : Turn (Reader × Benchmark) (Reader × Benchmark) :=
  match readPacketTimed clock state with
  | ((.none, reader), benchmark) => .again (reader, benchmark)
  | ((_, reader), benchmark) => .leave (reader, benchmark)

def readAllPacketsTimed (reader : Reader) (benchmark : Benchmark) : Reader × Benchmark :=
  let benchmark := benchmark.start clock .total
  let (reader, benchmark) := MeasuredLoop.run (packetTurnTimed clock)
    (fun state => (state.1, state.2)) (reader.span.length + 1) (reader, benchmark)
  (reader, benchmark.stop clock .total)

/-- The constructor with `init`. -/
def newTimed (data : List UInt8) (config : Config) (detailedBench : Bool) : Reader × Benchmark :=
  let benchmark : Benchmark := { bytes := data.length, detailed := detailedBench }
  let benchmark := benchmark.start clock .fileHeader
  let reader := new data config
  (reader, benchmark.stop clock .fileHeader)

/-- The marks of a pass. -/
def turnMarks (reader : Reader) : List (Mark Phase) :=
  if reader.span.length < packetHeaderLen then [] else
  within .packetHeader [] ++
    match reader.nextRecord with
    | (.none, next, packetSpan) =>
        within .decode (next.decoder.decodeMarks packetSpan next.capture)
    | _ => []

def packetMarks (reader : Reader) : List (Mark Phase) :=
  if reader.headerErr ≠ .none then [] else
  (MeasuredLoop.visited recordTurn (reader.span.length + 1) reader).flatMap turnMarks

/-- The marks of `readAllPackets` between those of the whole. -/
def readMarks (reader : Reader) : List (Mark Phase) :=
  (MeasuredLoop.visited packetTurn (reader.span.length + 1) reader).flatMap packetMarks

theorem record_turn_timed : recordTurnTimed clock =
    MeasuredLoop.traced recordTurn fun reader benchmark =>
      benchmark.play clock (turnMarks reader) := by
  funext ⟨reader, benchmark⟩
  unfold recordTurnTimed MeasuredLoop.traced recordTurn turnMarks
  simp only
  by_cases short : reader.span.length < packetHeaderLen
  · have next : reader.nextRecord = (.unexpectedEofF, reader, []) := by
      rw [nextRecord, if_pos short]
    simp [short, next]
  simp only [if_neg short]
  rcases reader.nextRecord with ⟨err, next, packetSpan⟩
  cases err with
  | none =>
      simp only [Benchmark.stop_start, Decoder.decode_timed]
      rcases next.decoder.decode packetSpan next.capture with ⟨err, capture, decoder⟩
      have played : ((((benchmark.play clock (within .packetHeader [])).start clock .decode).play
          clock (next.decoder.decodeMarks packetSpan next.capture)).stop clock .decode) =
            benchmark.play clock (within .packetHeader [] ++
              within .decode (next.decoder.decodeMarks packetSpan next.capture)) := by
        simp only [Benchmark.start_eq, Benchmark.stop_eq, Benchmark.play_play]
        simp [within]
      simp only [played]
      split_ifs <;> rfl
  | _ => simp [Benchmark.stop_start]

theorem fold_play {State : Type} (marks : State → List (Mark Phase)) (states : List State)
    (benchmark : Benchmark) :
    states.foldl (fun benchmark state => benchmark.play clock (marks state)) benchmark =
      benchmark.play clock (states.flatMap marks) := by
  induction states generalizing benchmark with
  | nil => rfl
  | cons state states ih =>
      rw [List.foldl_cons, ih, Benchmark.play_play, List.flatMap_cons]

theorem read_packet_timed (reader : Reader) (benchmark : Benchmark) :
    readPacketTimed clock (reader, benchmark) =
      (reader.readPacket, benchmark.play clock reader.packetMarks) := by
  unfold readPacketTimed readPacket packetMarks
  simp only
  split_ifs with invalid
  · rfl
  · rw [record_turn_timed, MeasuredLoop.run_traced recordTurn _
      (fun reader => (ParseError.unexpectedEofF, reader)), fold_play]

theorem packet_turn_timed : packetTurnTimed clock =
    MeasuredLoop.traced packetTurn fun reader benchmark =>
      benchmark.play clock (packetMarks reader) := by
  funext ⟨reader, benchmark⟩
  unfold packetTurnTimed MeasuredLoop.traced packetTurn
  rw [read_packet_timed]
  rcases reader.readPacket with ⟨err, next⟩
  cases err <;> rfl

/-- Timing does not change what is read, and these are the marks it leaves. -/
theorem read_all_timed (reader : Reader) (benchmark : Benchmark) :
    readAllPacketsTimed clock reader benchmark =
      (reader.readAllPackets, benchmark.play clock (within .total reader.readMarks)) := by
  have looped := MeasuredLoop.run_traced packetTurn
    (fun reader benchmark => Benchmark.play clock (packetMarks reader) benchmark) id
    (reader.span.length + 1) reader (benchmark.start clock .total)
  simp only [id] at looped
  unfold readAllPacketsTimed readAllPackets readMarks
  simp only [packet_turn_timed]
  rw [looped, fold_play]
  simp only [Benchmark.start_eq, Benchmark.stop_eq, Benchmark.play_play]
  rfl

end Pcap.Reader

end Timed

section Marks

variable {reader : Pcap.Reader} {record : Pcap.Record} {rest : List UInt8}

namespace Pcap.Reader

/-- The marks for a list of records that are delivered one after the other. -/
def marksFor : Reader → List Record → List (Mark Phase)
  | _, [] => []
  | reader, record :: rest =>
      within .packetHeader [] ++
        within .decode (reader.decoder.decodeMarks record.packet (reader.captureOf record)) ++
        (reader.deliver record).2.marksFor rest

/-- A packet header in front of no complete record is still read. -/
def tailMarks (tail : List UInt8) : List (Mark Phase) :=
  if tail.length < packetHeaderLen then [] else within .packetHeader []

theorem turn_marks_some (split : splitRecord reader.endian reader.span = some (record, rest)) :
    reader.turnMarks = within .packetHeader [] ++
      within .decode (reader.decoder.decodeMarks record.packet (reader.captureOf record)) := by
  have complete := (split_record_some split).complete
  have long : ¬ reader.span.length < packetHeaderLen := by omega
  rw [turnMarks, if_neg long, next_record_some split]

theorem turn_marks_none (split : splitRecord reader.endian reader.span = none) :
    reader.turnMarks = tailMarks reader.span := by
  have stops := (next_record_none split).1
  unfold turnMarks tailMarks
  split_ifs
  · rfl
  · rcases found : reader.nextRecord with ⟨err, next, packetSpan⟩
    rw [found] at stops
    cases err with
    | none => exact absurd rfl stops
    | _ => exact List.append_nil _

theorem read_marks_next (valid : reader.headerErr = .none)
    (split : splitRecord reader.endian reader.span = some (record, rest)) :
    reader.readMarks = reader.turnMarks ++ (reader.deliver record).2.readMarks := by
  by_cases accepted : (reader.deliver record).1 = .none
  · obtain ⟨turn, -, pass⟩ := read_packet_accepted valid split accepted
    have seen := MeasuredLoop.visited_again packet_turn_decreasing
      (Nat.lt_succ_self reader.span.length) pass
    have marks : reader.packetMarks = reader.turnMarks := by
      rw [packetMarks, if_neg (by simpa using valid), MeasuredLoop.visited_leave turn]
      simp
    rw [readMarks, seen, List.flatMap_cons, marks, readMarks]
  · obtain ⟨turn, -, pass⟩ := read_packet_refused valid split accepted
    have validNext : (reader.deliver record).2.headerErr = .none := by
      rw [(deliver_frame reader record).2.2.1, valid]
    have seenRecords := MeasuredLoop.visited_again record_turn_decreasing
      (Nat.lt_succ_self reader.span.length) turn
    have marks : reader.packetMarks =
        reader.turnMarks ++ (reader.deliver record).2.packetMarks := by
      rw [packetMarks, if_neg (by simpa using valid), seenRecords, List.flatMap_cons,
        packetMarks, if_neg (by simpa using validNext)]
    unfold readMarks
    cases leaves : packetTurn (reader.deliver record).2 with
    | leave result =>
        rw [leaves] at pass
        rw [MeasuredLoop.visited_leave pass, MeasuredLoop.visited_leave leaves]
        simp [marks]
    | again later =>
        rw [leaves] at pass
        rw [MeasuredLoop.visited_again packet_turn_decreasing (Nat.lt_succ_self _) pass,
          MeasuredLoop.visited_again packet_turn_decreasing (Nat.lt_succ_self _) leaves]
        simp [marks]

theorem read_marks_stop (valid : reader.headerErr = .none)
    (split : splitRecord reader.endian reader.span = none) :
    reader.readMarks = tailMarks reader.span := by
  obtain ⟨_, _, leaves, _, pass, _⟩ := read_packet_stop valid split
  rw [readMarks, MeasuredLoop.visited_leave pass, List.flatMap_singleton, packetMarks,
    if_neg (by simpa using valid), MeasuredLoop.visited_leave leaves, List.flatMap_singleton,
    turn_marks_none split]

theorem read_marks_cut {endian : Endian} {span tail : List UInt8} {records : List Record}
    (cut : Cut endian span records tail) (reader : Reader) (valid : reader.headerErr = .none)
    (sameEndian : reader.endian = endian) (sameSpan : reader.span = span) :
    reader.readMarks = reader.marksFor records ++ tailMarks tail := by
  induction cut generalizing reader with
  | stop none =>
      subst sameEndian sameSpan
      exact read_marks_stop valid none
  | @next _ _ _ record _ split after ih =>
      subst sameEndian sameSpan
      have frame := deliver_frame reader record
      have later := ih _ (frame.2.2.1.trans valid) frame.2.1
        (frame.1.trans (split_record_some split).rest.symm)
      rw [read_marks_next valid split, turn_marks_some split, later, marksFor,
        List.append_assoc _ _ (tailMarks _)]

end Pcap.Reader

end Marks

section Accounts

/-- The ways through `decode`. -/
def Decoder.decodeShapes : List (List (Mark Phase)) :=
  [within .decodePacket [],
    within .decodePacket [] ++ within .flowLookup [],
    within .decodePacket [] ++ (within .flowLookup [] ++ within .appDecode []),
    within .decodePacket [] ++ (within .flowLookup [] ++
      (within .tcpReassembly [] ++ within .appDecode []))]

theorem Decoder.decode_marks_shape (decoder : Decoder) (span : List UInt8) (capture : Capture) :
    decoder.decodeMarks span capture ∈ decodeShapes := by
  unfold decodeMarks decodeShapes
  simp only
  split_ifs <;> simp

/-- The phases inside of `decode`. -/
def Phase.ofDecode : Finset Phase := {.decodePacket, .flowLookup, .tcpReassembly, .appDecode}

/-- The phases that follow each other while packets are read. -/
def Phase.ofReading : Finset Phase := {.packetHeader, .decode}

section Shapes

variable {marks : List (Mark Phase)} (shape : marks ∈ Decoder.decodeShapes)

include shape

theorem shape_nested : Nested marks := by
  have single : ∀ phase : Phase, Nested (within phase []) :=
    fun phase => Nested.nil.single List.not_mem_nil
  simp only [Decoder.decodeShapes, List.mem_cons, List.not_mem_nil, or_false] at shape
  rcases shape with rfl | rfl | rfl | rfl
  · exact single _
  · exact (single _).append (single _)
  · exact (single _).append ((single _).append (single _))
  · exact (single _).append ((single _).append ((single _).append (single _)))

theorem shape_phases {phase : Phase} (started : Mark.start phase ∈ marks) :
    phase ∈ Phase.ofDecode := by
  have all : ∀ marks ∈ Decoder.decodeShapes, ∀ mark ∈ marks,
      ∀ phase ∈ [Phase.total, .fileHeader, .packetHeader, .decode], mark ≠ .start phase := by
    decide
  have apart := all marks shape _ started
  cases phase <;> first | decide | exact absurd rfl (apart _ (by decide))

theorem shape_in_time {clock : Nat → Nat} {measured : Phase → Bool} (steady : Monotone clock) :
    InTime clock measured Phase.ofDecode marks := by
  have single : ∀ phase : Phase, InTime clock measured Phase.ofDecode (within phase []) :=
    fun phase => in_time_own steady .nil List.not_mem_nil fun _ _ => List.not_mem_nil
  simp only [Decoder.decodeShapes, List.mem_cons, List.not_mem_nil, or_false] at shape
  rcases shape with rfl | rfl | rfl | rfl
  · exact single _
  · exact (single _).append (single _)
  · exact (single _).append ((single _).append (single _))
  · exact (single _).append ((single _).append ((single _).append (single _)))

theorem shape_counts : marks.count (.start .decodePacket) = 1 ∧
    marks.count (.start .flowLookup) ≤ 1 ∧
    marks.count (.start .appDecode) ≤ marks.count (.start .flowLookup) ∧
    marks.count (.start .tcpReassembly) ≤ marks.count (.start .appDecode) := by
  have all : ∀ marks ∈ Decoder.decodeShapes, marks.count (.start .decodePacket) = 1 ∧
      marks.count (.start .flowLookup) ≤ 1 ∧
      marks.count (.start .appDecode) ≤ marks.count (.start .flowLookup) ∧
      marks.count (.start .tcpReassembly) ≤ marks.count (.start .appDecode) := by decide
  exact all marks shape

end Shapes

/-- What the marks of reading packets amount to. -/
structure Accounted (clock : Nat → Nat) (measured : Phase → Bool) (headers decodes : Nat)
    (marks : List (Mark Phase)) : Prop where
  nested : Nested marks
  inner : Mark.start .total ∉ marks ∧ Mark.start .fileHeader ∉ marks
  packetHeader : marks.count (.start .packetHeader) = headers
  decode : marks.count (.start .decode) = decodes
  decodePacket : marks.count (.start .decodePacket) = decodes
  flowLookup : marks.count (.start .flowLookup) ≤ marks.count (.start .decodePacket)
  appDecode : marks.count (.start .appDecode) ≤ marks.count (.start .flowLookup)
  tcpReassembly : marks.count (.start .tcpReassembly) ≤ marks.count (.start .appDecode)
  inTime : InTime clock measured Phase.ofReading marks
  covers : measured .decode = true → Covers clock measured .decode Phase.ofDecode marks

theorem Accounted.append {clock : Nat → Nat} {measured : Phase → Bool}
    {headers decodes headersToo decodesToo : Nat} {left right : List (Mark Phase)}
    (first : Accounted clock measured headers decodes left)
    (second : Accounted clock measured headersToo decodesToo right) :
    Accounted clock measured (headers + headersToo) (decodes + decodesToo) (left ++ right) where
  nested := first.nested.append second.nested
  inner := by
    simp only [List.mem_append, not_or]
    exact ⟨⟨first.inner.1, second.inner.1⟩, first.inner.2, second.inner.2⟩
  packetHeader := by rw [List.count_append, first.packetHeader, second.packetHeader]
  decode := by rw [List.count_append, first.decode, second.decode]
  decodePacket := by rw [List.count_append, first.decodePacket, second.decodePacket]
  flowLookup := by
    simp only [List.count_append]
    exact Nat.add_le_add first.flowLookup second.flowLookup
  appDecode := by
    simp only [List.count_append]
    exact Nat.add_le_add first.appDecode second.appDecode
  tcpReassembly := by
    simp only [List.count_append]
    exact Nat.add_le_add first.tcpReassembly second.tcpReassembly
  inTime := first.inTime.append second.inTime
  covers taken := (first.covers taken).append (second.covers taken)

section Reading

variable {clock : Nat → Nat} {measured : Phase → Bool} (steady : Monotone clock)

include steady

theorem header_accounted : Accounted clock measured 1 0 (within .packetHeader []) where
  nested := Nested.nil.single List.not_mem_nil
  inner := by decide
  packetHeader := by decide
  decode := by decide
  decodePacket := by decide
  flowLookup := by decide
  appDecode := by decide
  tcpReassembly := by decide
  inTime := in_time_own steady .nil List.not_mem_nil fun _ _ => List.not_mem_nil
  covers _ := covers_untouched (Nested.nil.single List.not_mem_nil) (by decide) (by decide)

theorem decode_accounted {marks : List (Mark Phase)} (shape : marks ∈ Decoder.decodeShapes) :
    Accounted clock measured 0 1 (within .decode marks) := by
  have nested := shape_nested shape
  have apart : ∀ phase ∉ Phase.ofDecode, Mark.start phase ∉ marks :=
    fun phase foreign started => foreign (shape_phases shape started)
  have none : ∀ phase ∉ Phase.ofDecode, marks.count (.start phase) = 0 :=
    fun phase foreign => List.count_eq_zero_of_not_mem (apart phase foreign)
  have alone : ∀ phase ∈ Phase.ofReading, Mark.start phase ∉ marks := by
    intro phase member
    apply apart
    revert phase
    decide
  obtain ⟨once, flow, app, tcp⟩ := shape_counts shape
  constructor
  · exact nested.single (apart _ (by decide))
  · constructor
    · have absent := apart .total (by decide)
      simp [within, absent]
    · have absent := apart .fileHeader (by decide)
      simp [within, absent]
  · simp [count_start_within, none .packetHeader (by decide)]
  · simp [count_start_within, none .decode (by decide)]
  · simp [count_start_within, once]
  · simpa [count_start_within, once] using flow
  · simpa [count_start_within] using app
  · simpa [count_start_within] using tcp
  · exact in_time_own steady nested (apart _ (by decide)) alone
  · intro taken
    exact covers_within steady nested (apart _ (by decide)) (by decide) taken
      (shape_in_time shape steady)

theorem marks_accounted (reader : Pcap.Reader) (records : List Pcap.Record) :
    Accounted clock measured records.length records.length (reader.marksFor records) := by
  induction records generalizing reader with
  | nil =>
      refine ⟨.nil, ⟨List.not_mem_nil, List.not_mem_nil⟩, rfl, rfl, rfl, Nat.le_refl _,
        Nat.le_refl _, Nat.le_refl _, .nil, fun _ => ?_⟩
      exact covers_untouched .nil List.not_mem_nil fun _ _ => List.not_mem_nil
  | cons record records ih =>
      have decoded := reader.decoder.decode_marks_shape record.packet (reader.captureOf record)
      have header : Accounted clock measured 1 0 (within .packetHeader []) :=
        header_accounted steady
      have front := header.append (decode_accounted steady decoded)
      have all := front.append (ih (reader.deliver record).2)
      rw [List.length_cons, Nat.add_comm records.length]
      exact all

end Reading

end Accounts

namespace Pcap.Reader

/-- The complete records that `readAllPackets` comes to, and what is left. -/
def framed (reader : Reader) : List Record × List UInt8 :=
  if reader.headerErr = .none then completeRecords reader.endian reader.span else ([], [])

theorem read_marks_framed (reader : Reader) :
    reader.readMarks = reader.marksFor reader.framed.1 ++ tailMarks reader.framed.2 := by
  unfold framed
  by_cases valid : reader.headerErr = .none
  · rw [if_pos valid]
    exact read_marks_cut (complete_records_cut _ _) reader valid rfl rfl
  · have read : reader.readPacket = (reader.headerErr, reader) := by rw [readPacket, if_pos valid]
    have pass : packetTurn reader = .leave reader := by
      rw [packetTurn, read]
      cases failed : reader.headerErr <;> first | rfl | exact absurd failed valid
    rw [if_neg valid, readMarks, MeasuredLoop.visited_leave pass, List.flatMap_singleton,
      packetMarks, if_pos valid]
    rfl

theorem read_accounted {clock : Nat → Nat} {measured : Phase → Bool} (steady : Monotone clock)
    (reader : Reader) : Accounted clock measured
      (reader.framed.1.length + if reader.framed.2.length < packetHeaderLen then 0 else 1)
      reader.framed.1.length reader.readMarks := by
  rw [read_marks_framed]
  have records : Accounted clock measured _ _ (reader.marksFor reader.framed.1) :=
    marks_accounted steady reader reader.framed.1
  unfold tailMarks
  split_ifs
  · rw [List.append_nil]
    exact records
  · exact records.append (header_accounted steady)

/-- The marks of a reader from its construction to the end of `readAllPackets`. -/
theorem timed_marks (clock : Nat → Nat) (data : List UInt8) (config : Config)
    (detailedBench : Bool) :
    readAllPacketsTimed clock (newTimed clock data config detailedBench).1
        (newTimed clock data config detailedBench).2 =
      ((new data config).readAllPackets,
        ({ bytes := data.length, detailed := detailedBench } : Benchmark).play clock
          (within .fileHeader [] ++ within .total (new data config).readMarks)) := by
  rw [read_all_timed]
  simp only [newTimed, Benchmark.stop_start, Benchmark.play_play]

section Whole

variable {clock : Nat → Nat} {measured : Phase → Bool} {headers decodes : Nat}
  {marks : List (Mark Phase)} (accounted : Accounted clock measured headers decodes marks)

include accounted

theorem whole_nested : Nested (within .fileHeader [] ++ within .total marks) :=
  (Nested.nil.single List.not_mem_nil).append (accounted.nested.single accounted.inner.1)

/-- The time of the whole is at least that of the phases of reading. -/
theorem whole_covers (steady : Monotone clock) (taken : measured .total = true) :
    Covers clock measured .total Phase.ofReading
      (within .fileHeader [] ++ within .total marks) := by
  have header : Covers clock measured .total Phase.ofReading (within .fileHeader []) :=
    covers_untouched (Nested.nil.single List.not_mem_nil) (by decide) (by decide)
  exact header.append (covers_within steady accounted.nested accounted.inner.1 (by decide) taken
    accounted.inTime)

theorem whole_covers_decode (taken : measured .decode = true) :
    Covers clock measured .decode Phase.ofDecode
      (within .fileHeader [] ++ within .total marks) := by
  have header : Covers clock measured .decode Phase.ofDecode (within .fileHeader []) :=
    covers_untouched (Nested.nil.single List.not_mem_nil) (by decide) (by decide)
  exact header.append ((accounted.covers taken).within_other accounted.nested accounted.inner.1
    (by decide) (by decide))

end Whole

theorem total_of_reading (watches : Stopwatch.Watches Phase) :
    Stopwatch.total Phase.ofReading watches =
      (watches.states .packetHeader).elapsed + (watches.states .decode).elapsed := by
  simp [Stopwatch.total, Phase.ofReading]

theorem total_of_decode (watches : Stopwatch.Watches Phase) :
    Stopwatch.total Phase.ofDecode watches = (watches.states .decodePacket).elapsed +
      (watches.states .flowLookup).elapsed + (watches.states .tcpReassembly).elapsed +
        (watches.states .appDecode).elapsed := by
  simp [Stopwatch.total, Phase.ofDecode, Nat.add_assoc]

/-- Timing a run changes nothing about it. Every phase is left on every path; the whole and the
file header are entered once, the phases of a packet, where they are measured, once for each
complete record, and a header once more for a cut record; and the times of phases that follow each
other add up to no more than the time of the phase they are in. -/
theorem timing_accounts (clock : Nat → Nat) (steady : Monotone clock) (data : List UInt8)
    (config : Config) (detailedBench : Bool) :
    let timed := newTimed clock data config detailedBench
    let final := readAllPacketsTimed clock timed.1 timed.2
    let benchmark := final.2
    let records := (new data config).framed.1
    let tail := (new data config).framed.2
    final.1 = (new data config).readAllPackets ∧
    (∀ phase, (benchmark.phases.states phase).running = false) ∧
    (benchmark.calls .total = 1 ∧ benchmark.calls .fileHeader = 1 ∧
      benchmark.calls .decode = (if detailedBench then records.length else 0) ∧
      benchmark.calls .decodePacket = benchmark.calls .decode ∧
      benchmark.calls .packetHeader = (if detailedBench then
        records.length + (if tail.length < packetHeaderLen then 0 else 1) else 0)) ∧
    (benchmark.calls .tcpReassembly ≤ benchmark.calls .appDecode ∧
      benchmark.calls .appDecode ≤ benchmark.calls .flowLookup ∧
      benchmark.calls .flowLookup ≤ benchmark.calls .decodePacket) ∧
    benchmark.elapsedNs .packetHeader + benchmark.elapsedNs .decode ≤ benchmark.elapsedNs .total ∧
    benchmark.elapsedNs .decodePacket + benchmark.elapsedNs .flowLookup +
        benchmark.elapsedNs .tcpReassembly + benchmark.elapsedNs .appDecode ≤
      benchmark.elapsedNs .decode := by
  intro timed final benchmark records tail
  let initial : Benchmark := { bytes := data.length, detailed := detailedBench }
  have run : final = ((new data config).readAllPackets, initial.play clock
      (within .fileHeader [] ++ within .total (new data config).readMarks)) :=
    timed_marks clock data config detailedBench
  have accounted : Accounted clock initial.measures _ _ (new data config).readMarks :=
    read_accounted steady (new data config)
  have played : benchmark = initial.play clock
      (within .fileHeader [] ++ within .total (new data config).readMarks) :=
    congrArg Prod.snd run
  have balanced : Stopwatch.Balanced initial.measures _ initial.phases
      (Stopwatch.play clock initial.measures
        (within .fileHeader [] ++ within .total (new data config).readMarks) initial.phases) :=
    (whole_nested accounted).balanced initial.phases fun _ _ => rfl
  have calls : ∀ phase, benchmark.calls phase =
      if initial.measures phase then (if phase = .fileHeader then 1 else 0) +
        ((if phase = .total then 1 else 0) +
          (new data config).readMarks.count (.start phase)) else 0 := by
    intro phase
    have counted := balanced.calls phase
    rw [List.count_append, count_start_within, count_start_within, List.count_nil,
      Nat.add_zero] at counted
    rw [played]
    exact counted.trans (Nat.zero_add _)
  have always : ∀ phase, Benchmark.isPerPacket phase = false → initial.measures phase = true := by
    intro phase once
    simp [Benchmark.measures, once]
  have perPacket : ∀ phase, Benchmark.isPerPacket phase = true →
      benchmark.calls phase =
        if detailedBench then (new data config).readMarks.count (.start phase) else 0 := by
    intro phase often
    have taken : initial.measures phase = detailedBench := by
      simp [Benchmark.measures, often, initial]
    have inside : phase ≠ .fileHeader ∧ phase ≠ .total := by
      constructor <;> rintro rfl <;> cases often
    rw [calls, taken, if_neg inside.1, if_neg inside.2, Nat.zero_add, Nat.zero_add]
  have none : ∀ phase, (initial.phases.states phase).elapsed = 0 := fun _ => rfl
  have elapsed : ∀ phase, benchmark.elapsedNs phase = ((Stopwatch.play clock initial.measures
      (within .fileHeader [] ++ within .total (new data config).readMarks)
      initial.phases).states phase).elapsed := by
    intro phase
    rw [played]
    rfl
  refine ⟨congrArg Prod.fst run, ?_, ⟨?_, ?_, ?_, ?_, ?_⟩, ⟨?_, ?_, ?_⟩, ?_, ?_⟩
  · intro phase
    rw [played]
    exact balanced.running phase
  · rw [calls, always .total rfl, List.count_eq_zero_of_not_mem accounted.inner.1]
    rfl
  · rw [calls, always .fileHeader rfl, List.count_eq_zero_of_not_mem accounted.inner.2]
    rfl
  · rw [perPacket .decode rfl, accounted.decode]
  · rw [perPacket .decodePacket rfl, perPacket .decode rfl, accounted.decodePacket,
      accounted.decode]
  · rw [perPacket .packetHeader rfl, accounted.packetHeader]
  · rw [perPacket .tcpReassembly rfl, perPacket .appDecode rfl]
    split_ifs
    · exact accounted.tcpReassembly
    · exact Nat.le_refl _
  · rw [perPacket .appDecode rfl, perPacket .flowLookup rfl]
    split_ifs
    · exact accounted.appDecode
    · exact Nat.le_refl _
  · rw [perPacket .flowLookup rfl, perPacket .decodePacket rfl]
    split_ifs
    · exact accounted.flowLookup
    · exact Nat.le_refl _
  · have covered := whole_covers accounted steady (always .total rfl) initial.phases
    rw [total_of_reading, total_of_reading] at covered
    simp only [elapsed]
    simpa [none] using covered
  · simp only [elapsed]
    cases detailed : detailedBench with
    | false =>
        have unmeasured : ∀ phase ∈ Phase.ofDecode, initial.measures phase = false := by
          intro phase member
          have often : Benchmark.isPerPacket phase = true := by
            revert phase
            decide
          simp [Benchmark.measures, often, initial, detailed]
        have nothing := @Stopwatch.total_unmeasured Phase _ clock initial.measures Phase.ofDecode
          unmeasured (within .fileHeader [] ++ within .total (new data config).readMarks)
          initial.phases
        rw [total_of_decode, total_of_decode] at nothing
        simp only [none, Nat.add_zero] at nothing
        omega
    | true =>
        have taken : initial.measures .decode = true := by
          simp [Benchmark.measures, initial, detailed]
        have covered := whole_covers_decode accounted taken initial.phases
        rw [total_of_decode, total_of_decode] at covered
        simpa [none] using covered

/-- The short capture, on a clock that advances by one. -/
theorem timing_accounts_short :
    let timed := newTimed id shortCapture {} true
    let benchmark := (readAllPacketsTimed id timed.1 timed.2).2
    benchmark.calls .decode = 1 ∧
      benchmark.elapsedNs .packetHeader + benchmark.elapsedNs .decode ≤
        benchmark.elapsedNs .total := by
  have accounts := timing_accounts id monotone_id shortCapture {} true
  exact ⟨accounts.2.2.1.2.2.1, accounts.2.2.2.2.1⟩

end Pcap.Reader

end PcapAnalyzer
