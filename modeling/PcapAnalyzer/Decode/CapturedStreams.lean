import PcapAnalyzer.Decode.Footprint
import PcapAnalyzer.Decode.HttpFlow
import PcapAnalyzer.Decode.WholeReads
import PcapAnalyzer.Flow.Reassembly

/-!
# Streams as they are captured

The segments of a connection may be captured in any order, more than once and cut anew, and
among the packets of other connections. What is recorded for a side is what one poll of the
bytes they cover records.
-/

namespace PcapAnalyzer

open SerialNumber IntervalBuffer TcpReassembler Reassembly

set_option autoImplicit false

namespace Reassembly

/-- The stream of a session and the side of a flow that it stands for: a handshake without
its last packet, and a FIN that has been acknowledged, show in the state alone. -/
inductive Stands (stream side : TcpReassembler) : Prop where
  | same (same : side = stream)
  | opening (established : stream.state = .established)
      (same : side = { stream with state := .synSent })
  | closing (finished : stream.state = .finWait1)
      (same : side = { stream with state := .finWait2 })

/-- A side of a flow that the segments of some calls were sent on. -/
structure Trails (isn : UInt32) (data : List UInt8) (calls : List Call) (consumed : List UInt8)
    (side : TcpReassembler) : Prop where
  trailed : ∃ stream polled, Progress isn data polled { stream := stream, consumed := consumed } ∧
    pieces polled = pieces calls ∧ finSent polled = finSent calls ∧ Stands stream side

section Trails

variable {isn : UInt32} {data consumed : List UInt8} {calls : List Call} {side : TcpReassembler}

theorem Stands.peek {stream : TcpReassembler} (stands : Stands stream side) :
    side.peek = stream.peek ∧ side.readPos = stream.readPos ∧
      side.assembled = stream.assembled := by
  cases stands with
  | same same => rw [same]; exact ⟨rfl, rfl, rfl⟩
  | opening established same => rw [same]; exact ⟨rfl, rfl, rfl⟩
  | closing finished same => rw [same]; exact ⟨rfl, rfl, rfl⟩

theorem progress_state {session : Session} (progress : Progress isn data calls session) :
    session.stream.seeded = true ∧
      (session.stream.state = .established ∨ session.stream.state = .finWait1) ∧
      session.stream.readPos ≤ session.stream.assembled.length := by
  cases progress with
  | receiving buffer receiving tracks =>
      exact ⟨receiving.seeded, .inl receiving.state, receiving.represents.delivers.readable⟩
  | finished finished fin covered =>
      exact ⟨finished.seeded, .inr finished.state, finished.readable⟩

theorem Trails.inside (trails : Trails isn data calls consumed side) :
    side.readPos ≤ side.assembled.length := by
  obtain ⟨stream, polled, progress, -, -, stands⟩ := trails.trailed
  rw [stands.peek.2.1, stands.peek.2.2]
  exact (progress_state progress).2.2

theorem Trails.initial (trails : Trails isn data calls consumed side) :
    (consumed ++ side.peek) <+: data := by
  obtain ⟨stream, polled, progress, -, -, stands⟩ := trails.trailed
  rw [stands.peek.1]
  exact progress_initial progress

/-- What a session has delivered when all its segments fit the out-of-order buffer. -/
theorem Trails.covered (trails : Trails isn data calls consumed side)
    (room : total (pieces calls) ≤ maxOooBytes) :
    ∃ k, IsGreatest {k | k ≤ data.length ∧ ∀ i < k, Covered calls i} k ∧
      consumed ++ side.peek = data.take k := by
  obtain ⟨stream, polled, progress, same, -, stands⟩ := trails.trailed
  rw [← same] at room
  obtain ⟨k, greatest, delivered, -⟩ := progress_covered progress room
  refine ⟨k, ?_, by rw [stands.peek.1]; exact delivered⟩
  simpa only [Covered, same] using greatest

theorem readable_state {stream : TcpReassembler}
    (reached : stream.state = .established ∨ stream.state = .finWait1) :
    stream.hasReadableData = true := by
  rcases reached with state | state <;> simp [hasReadableData, state]

theorem Stands.sent {stream : TcpReassembler} (stands : Stands stream side)
    (seeded : stream.seeded = true) {header : Tcp.Header} (ack : header.ack = true)
    (syn : header.syn = false) (rst : header.rst = false) (span : List UInt8)
    (reached : (stream.onSent header span).state = .established ∨
      (stream.onSent header span).state = .finWait1) :
    Stands (stream.onSent header span) (side.onSent header span) ∧
      (side.onSent header span).hasReadableData = true := by
  cases stands with
  | same same =>
      subst same
      exact ⟨.same rfl, readable_state reached⟩
  | opening established same =>
      have taken : side.onSent header span = stream.onSent header span := by
        subst same
        cases stream
        simp only at seeded established
        subst seeded established
        simp [onSent, rst, ack, syn]
      exact ⟨.same taken, taken ▸ readable_state reached⟩
  | closing finished same =>
      have ignored : stream.onSent header span = stream := by
        simp [onSent, rst, seeded, finished]
      have ignoredToo : side.onSent header span = side := by
        subst same
        simp [onSent, rst, seeded]
      rw [ignored, ignoredToo]
      exact ⟨.closing finished same, by rw [same]; rfl⟩

/-- One more segment: the side can be read, and only has more to read than before. -/
theorem Trails.sent (short : data.length < 2 ^ 31) (trails : Trails isn data calls consumed side)
    (header : Tcp.Header) (piece : Piece) (carries : (Call.sent header piece).Carries isn data) :
    Trails isn data (calls ++ [.sent header piece]) consumed
        (side.onSent header (slice data piece.offset piece.length)) ∧
      ∃ more, Appends more side (side.onSent header (slice data piece.offset piece.length)) := by
  obtain ⟨stream, polled, progress, same, sameFin, stands⟩ := trails.trailed
  obtain ⟨ack, syn, rst, -⟩ := id carries
  have next := sent_progress short progress header piece carries
  obtain ⟨stays, readable⟩ := stands.sent (progress_state progress).1 ack syn rst
    (slice data piece.offset piece.length) (progress_state next).2.1
  have trailsToo : Trails isn data (calls ++ [.sent header piece]) consumed
      (side.onSent header (slice data piece.offset piece.length)) :=
    ⟨_, _, next, by rw [pieces_append, pieces_append, same],
      by rw [fin_sent_append, fin_sent_append, sameFin], stays⟩
  have takesIn := on_sent_takes_in side header (slice data piece.offset piece.length)
  generalize side.onSent header (slice data piece.offset piece.length) = after at *
  have longer : (consumed ++ side.peek).length ≤ (consumed ++ after.peek).length := by
    have grows := takesIn.grows
    simp only [List.length_append, TcpReassembler.peek, List.length_drop, takesIn.readPos]
    omega
  obtain ⟨more, grown⟩ := (List.prefix_append_right_inj consumed).mp
    (List.prefix_of_prefix_length_le trails.initial trailsToo.initial longer)
  exact ⟨trailsToo, more, grown.symm, readable, trailsToo.inside⟩

/-- What the other side answers shows in the state alone, as long as it does not close. -/
theorem Trails.received (trails : Trails isn data calls consumed side) {header : Tcp.Header}
    (rst : header.rst = false) (fin : header.fin = false)
    (answers : (header.syn && !header.ack) = false) :
    Trails isn data calls consumed (side.onReceived header) := by
  obtain ⟨stream, polled, progress, same, sameFin, stands⟩ := trails.trailed
  have states := (progress_state progress).2.1
  refine ⟨stream, polled, progress, same, sameFin, ?_⟩
  simp only at states
  cases stands with
  | same same =>
      subst same
      rcases states with established | finished
      · refine .same ?_
        simp [onReceived, rst, established, fin]
      · by_cases acknowledges : side.acknowledged header = true
        · refine .closing finished ?_
          simp [onReceived, rst, finished, fin, acknowledges]
        · refine .same ?_
          simp [onReceived, rst, finished, fin, acknowledges]
  | opening established same =>
      refine .opening established ?_
      subst same
      simp [onReceived, rst, answers]
  | closing finished same =>
      refine .closing finished ?_
      subst same
      simp [onReceived, rst, fin]

theorem consume_state (stream : TcpReassembler) (state : TcpState) (count : Nat) :
    ({ stream with state := state } : TcpReassembler).consume count =
      { stream.consume count with state := state } := by
  unfold consume available
  simp only
  split_ifs <;> rfl

theorem Stands.consume {stream : TcpReassembler} (stands : Stands stream side) (count : Nat) :
    Stands (stream.consume count) (side.consume count) := by
  obtain ⟨assembled, readPos, moved⟩ := consume_frame stream count
  have state : (stream.consume count).state = stream.state := by rw [moved]
  cases stands with
  | same same => exact .same (by rw [same])
  | opening established same =>
      exact .opening (state.trans established) (by rw [same, consume_state])
  | closing finished same =>
      exact .closing (state.trans finished) (by rw [same, consume_state])

/-- A poll moves bytes from those to be read to those that were read. -/
theorem Trails.consume {after : TcpReassembler} (trails : Trails isn data calls consumed side)
    (polled : Consumed side after) :
    ∃ read, Trails isn data calls read after ∧ read ++ after.peek = consumed ++ side.peek := by
  obtain ⟨counts, rfl⟩ := polled
  induction counts generalizing consumed side with
  | nil => exact ⟨consumed, trails, rfl⟩
  | cons count counts ih =>
      have inside := trails.inside
      obtain ⟨stream, polled, progress, same, sameFin, stands⟩ := trails.trailed
      have next := consume_progress progress count
      have step : Trails isn data calls (consumed ++ stream.peek.take count)
          (side.consume count) := by
        refine ⟨_, _, next, ?_, ?_, stands.consume count⟩
        · rw [pieces_append, same]
          exact List.append_nil _
        · rw [fin_sent_append, sameFin]
          exact Bool.or_false _
      obtain ⟨read, later, bytes⟩ := ih step
      refine ⟨read, later, bytes.trans ?_⟩
      rw [consume_peek side count inside, stands.peek.1, List.append_assoc,
        List.take_append_drop]

/-- Everything that was sent has been read, and the sequence number stands before `data`. -/
structure Opened (isn : UInt32) (side : TcpReassembler) : Prop where
  seeded : side.seeded = true
  nextSeq : side.nextSeq = isn
  drained : side.peek = []
  ordered : side.outOfOrder = []
  finSeen : side.finSeen = false
  state : side.state = .established ∨ side.state = .synSent

theorem Opened.trails (opened : Opened isn side) (frugal : Frugal side)
    (keepPayload : side.keepPayload = true) : Trails isn data [] [] side := by
  have bytes : side.oooBytes = 0 := by
    rw [frugal.counted.bytes, opened.ordered]
    rfl
  have progress (stream : TcpReassembler) (same : stream = { side with state := .established }) :
      Progress isn data [] { stream := stream, consumed := [] } := by
    subst same
    refine .receiving ⟨0, []⟩ ?_ fun _ => ⟨tracks_empty, le_rfl⟩
    exact
      { represents :=
          { delivers := ⟨keepPayload, frugal.counted.readable, Nat.zero_le _,
              opened.nextSeq.trans (number_zero isn).symm, opened.drained⟩
            outOfOrder := opened.ordered
            oooBytes := bytes
            inside := by simp }
        ordered := ⟨List.Pairwise.nil, by simp⟩
        within := Nat.zero_le _
        state := rfl
        seeded := opened.seeded
        finSeen := opened.finSeen
        waiting := by simp [finSent] }
  rcases opened.state with established | opening
  · have same : side = { side with state := .established } := by rw [← established]
    exact ⟨_, [], progress _ rfl, rfl, rfl, .same same⟩
  · have same : side = { side with state := .synSent } := by rw [← opening]
    exact ⟨_, [], progress _ rfl, rfl, rfl, .opening rfl same⟩

end Trails

end Reassembly

namespace TcpReassembler

/-- A side that holds nothing to be read, and was sent nothing. -/
structure Quiet (side : TcpReassembler) : Prop where
  drained : side.peek = []
  empty : ∀ segment ∈ side.outOfOrder, segment.data = []
  inside : side.readPos ≤ side.assembled.length

theorem Quiet.same {before after : TcpReassembler} (quiet : Quiet before)
    (assembled : after.assembled = before.assembled) (readPos : after.readPos = before.readPos)
    (outOfOrder : after.outOfOrder = before.outOfOrder) : Quiet after := by
  constructor
  · rw [TcpReassembler.peek, assembled, readPos]
    exact quiet.drained
  · rw [outOfOrder]
    exact quiet.empty
  · rw [assembled, readPos]
    exact quiet.inside

theorem drain_from_quiet (segments : List Segment) {side : TcpReassembler} (quiet : Quiet side)
    (empty : ∀ segment ∈ segments, segment.data = []) : Quiet (drainFrom segments side) := by
  induction segments generalizing side with
  | nil => exact ⟨quiet.drained, by simp [drainFrom], quiet.inside⟩
  | cons segment rest ih =>
      have none : segment.data = [] := empty segment (by simp)
      simp only [drainFrom]
      split_ifs with ahead covered
      · exact ⟨quiet.drained, empty, quiet.inside⟩
      · rw [none] at covered
        cases covered
      · exact ih (quiet.same rfl rfl rfl) fun other member => empty other (by simp [member])

theorem ingest_quiet {side : TcpReassembler} (quiet : Quiet side) (seq : UInt32) :
    Quiet (side.ingest seq []) := by
  unfold ingest
  by_cases unkept : (!side.keepPayload) = true
  · rw [if_pos unkept]
    unfold ingestUnkept
    simp only
    split_ifs <;> exact quiet.same rfl rfl rfl
  rw [if_neg unkept]
  simp only
  split_ifs with next ahead overlaps
  · have taken : Quiet { side with
        assembled := side.assembled ++ []
        nextSeq := side.nextSeq + UInt32.ofNat ([] : List UInt8).length } :=
      quiet.same (List.append_nil _) rfl rfl
    exact drain_from_quiet side.outOfOrder taken quiet.empty
  · have buffers := buffer_ahead_buffers side seq []
    generalize side.bufferAhead seq [] = buffered at buffers ⊢
    cases buffers with
    | leftOut => exact quiet
    | @putIn before after split room =>
        refine ⟨quiet.drained, ?_, quiet.inside⟩
        intro segment member
        simp only [List.mem_append, List.mem_cons] at member
        rcases member with earlier | rfl | later
        · exact quiet.empty segment (by simp [split, earlier])
        · rfl
        · exact quiet.empty segment (by simp [split, later])
    | replaced split same longer room => cases longer
  · have none : ¬ side.nextSeq - seq < UInt32.ofNat ([] : List UInt8).length := by
      rw [UInt32.lt_iff_toNat_lt]
      exact Nat.not_lt_zero _
    exact absurd overlaps none
  · exact quiet

theorem on_sent_quiet {side : TcpReassembler} (quiet : Quiet side) (header : Tcp.Header) :
    Quiet (side.onSent header []) := by
  rcases on_sent_cases side header [] with
    ⟨-, closed⟩ | ⟨-, -, -, seeded⟩ | ⟨start, taken, sent⟩ | ⟨-, -, ignored⟩
  · rw [closed]
    exact quiet.same rfl rfl rfl
  · rw [seeded]
    have start : Quiet (side.seed header) := quiet.same rfl rfl rfl
    exact ingest_quiet start _
  · rw [sent, on_data_eq]
    obtain ⟨-, -, -, frame⟩ := data_start_frame _ _ taken
    have started : Quiet start := by
      rcases frame with ⟨same, -⟩ | ⟨same, -⟩ <;> rw [same] <;> exact quiet.same rfl rfl rfl
    have ingested := ingest_quiet started header.seqNumber
    have marked : Quiet (start.marked header []) := by
      unfold TcpReassembler.marked
      split_ifs
      · exact ingested.same rfl rfl rfl
      · exact ingested
    split_ifs
    · exact marked.same rfl rfl rfl
    · exact marked
  · rw [ignored]
    exact quiet

theorem on_received_quiet {side : TcpReassembler} (quiet : Quiet side) (header : Tcp.Header) :
    Quiet (side.onReceived header) := by
  obtain ⟨state, same⟩ := on_received_frame side header
  rw [same]
  exact quiet.same rfl rfl rfl

theorem Consumed.quiet {before after : TcpReassembler} (consumed : Consumed before after)
    (quiet : Quiet before) : Quiet after := by
  have same := consumed.same
  have less := consumed.bounded.1
  refine ⟨?_, ?_, same.inside quiet.inside⟩
  · rw [available_eq_peek, available_eq_peek, quiet.drained] at less
    exact List.length_eq_zero_iff.mp (Nat.le_zero.mp less)
  · rw [same.outOfOrder]
    exact quiet.empty

end TcpReassembler

namespace Decoder

open AppDecoder

/-- The packet belongs to no or another connection, or the filter takes it out. -/
def Apart (config : Config) (key : FlowKey) (input : Input) : Prop :=
  packetKey config input ≠ some key ∨
    filtered config.filter (decodedCapture config input).pkt = true

/-- The other side neither closes nor resets the connection nor opens it anew, and where
requests may wait for a response it sends none. -/
structure Answers (key : FlowKey) (header : Tcp.Header) (payload : List UInt8) : Prop where
  rst : header.rst = false
  fin : header.fin = false
  opens : (header.syn && !header.ack) = false
  silent : key.isDns = false → payload = []

/-- A capture in which the segments of one side carry pieces of `data`. -/
inductive Captured (config : Config) (key : FlowKey) (isReverse : Bool) (isn : UInt32)
    (data : List UInt8) : List Input → List Call → Prop where
  | nil : Captured config key isReverse isn data [] []
  | sent {inputs : List Input} {calls : List Call} {input : Input} {header : Tcp.Header}
      {piece : Piece} (earlier : Captured config key isReverse isn data inputs calls)
      (carries : Carries config key isReverse header input)
      (payload : (decodedCapture config input).pkt.payload = slice data piece.offset piece.length)
      (numbered : (Call.sent header piece).Carries isn data) :
      Captured config key isReverse isn data (inputs ++ [input]) (calls ++ [.sent header piece])
  | received {inputs : List Input} {calls : List Call} {input : Input} {header : Tcp.Header}
      (earlier : Captured config key isReverse isn data inputs calls)
      (carries : Carries config key (!isReverse) header input)
      (answers : Answers key header (decodedCapture config input).pkt.payload) :
      Captured config key isReverse isn data (inputs ++ [input]) calls
  | apart {inputs : List Input} {calls : List Call} {input : Input}
      (earlier : Captured config key isReverse isn data inputs calls)
      (apart : Apart config key input) :
      Captured config key isReverse isn data (inputs ++ [input]) calls

/-- The flow of the key does not expire. -/
def StaysActive (config : Config) (key : FlowKey) (before inputs : List Input) : Prop :=
  ∀ first input rest flow, inputs = first ++ input :: rest → packetKey config input = some key →
    (run config (before ++ first)).flowTable.flows.lookup key = some flow →
    (run config (before ++ first)).flowTable.isExpired flow input.capture.tsUs = false

/-- Nothing of the other side is left to be read, and none of its requests waits. -/
structure Alone (side : TcpReassembler) (applications : Applications) : Prop where
  quiet : side.Quiet
  waiting : applications.pendingHeadRequests = []

/-- What a capture has left: the side stands behind the calls, and what is recorded is what one
poll of its bytes records. -/
structure Reading (config : Config) (key : FlowKey) (isReverse : Bool) (isn : UInt32)
    (data : List UInt8) (start : Applications) (calls : List Call) (decoder : Decoder) : Prop where
  sound : Sound config decoder
  reads : ∃ flow consumed, decoder.flowTable.flows.lookup key = some flow ∧
    Trails isn data calls consumed (flow.side isReverse) ∧
    readWhole key start (consumed ++ (flow.side isReverse).peek) =
      ((flow.side isReverse).peek, (decoder.appDecoder.node key).self isReverse) ∧
    (key.isDns = false →
      Alone (flow.side (!isReverse)) ((decoder.appDecoder.node key).self (!isReverse)))

section Steps

variable {config : Config} {key : FlowKey} {isReverse : Bool} {isn : UInt32} {data : List UInt8}
  {start : Applications} {calls : List Call} {decoder : Decoder} {input : Input}
  {header : Tcp.Header}

theorem step_apart (sound : Sound config decoder) (apart : Apart config key input) :
    view key (step decoder input) = view key decoder := by
  rcases apart with foreign | refused
  · exact step_foreign sound foreign
  by_cases undecoded : Undecoded config input
  · rw [step_undecoded sound undecoded]
  rw [step_decoded sound undecoded]
  rcases decode_capture_cases decoder (decodedCapture config input) with ignores |
    ⟨other, added, table, accepts⟩
  · exact ignores.view key
  · have passes := accepts.passes
    rw [sound.sameConfig, refused] at passes
    cases passes

theorem Reading.apart (reading : Reading config key isReverse isn data start calls decoder)
    (apart : Apart config key input) :
    Reading config key isReverse isn data start calls (step decoder input) := by
  obtain ⟨flow, consumed, active, reads⟩ := reading.reads
  obtain ⟨flows, nodes⟩ := view_same_parts (step_apart reading.sound apart)
  refine ⟨step_sound reading.sound input, flow, consumed, flows.trans active, ?_⟩
  rw [nodes]
  exact reads

/-- The conditions under which HTTP is read as a whole. -/
structure Whole (key : FlowKey) (start : Applications) (data : List UInt8) : Prop where
  afresh : key.isDns = false → Afresh start
  small : key.isDns = false → data.length ≤ maxHttpMessageBytes

/-- A poll after more bytes is a poll of all of them, in either protocol. -/
theorem poll_whole (app : ¬ (key.isDns = false ∧ key.isHttp = false)) (whole : Whole key start data)
    {bytes piece : List UInt8} (initial : (bytes ++ piece) <+: data) {before : StreamPoll}
    (waiting : key.isDns = false → before.peer.pendingHeadRequests = [])
    (polled : readWhole key start bytes = (before.stream.peek, before.applications))
    {stream : TcpReassembler} (appends : Appends piece before.stream stream) :
    readWhole key start (bytes ++ piece) =
        ((pollStream key { before with stream := stream }).stream.peek,
          (pollStream key { before with stream := stream }).applications) ∧
      (key.isDns = false →
        (pollStream key { before with stream := stream }).peer = before.peer) := by
  cases dns : key.isDns with
  | true =>
      refine ⟨poll_whole_dns dns polled appends, ?_⟩
      intro notDns
      cases notDns
  | false =>
      have http := FlowKey.http_of_app app dns
      have small := initial.length_le.trans (whole.small dns)
      obtain ⟨read, peer⟩ := poll_whole_http http dns (whole.afresh dns) small (waiting dns) polled
        appends
      exact ⟨read, fun _ => peer⟩

theorem Reading.sent (short : data.length < 2 ^ 31)
    (app : ¬ (key.isDns = false ∧ key.isHttp = false)) (whole : Whole key start data)
    (reading : Reading config key isReverse isn data start calls decoder)
    (carries : Carries config key isReverse header input) {piece : Piece}
    (payload : (decodedCapture config input).pkt.payload = slice data piece.offset piece.length)
    (numbered : (Call.sent header piece).Carries isn data)
    (lives : ∀ flow, decoder.flowTable.flows.lookup key = some flow →
      decoder.flowTable.isExpired flow input.capture.tsUs = false) :
    Reading config key isReverse isn data start (calls ++ [.sent header piece])
      (step decoder input) := by
  obtain ⟨flow, consumed, active, trails, read, alone⟩ := reading.reads
  obtain ⟨after, found, polled⟩ := carries.step reading.sound app active (lives flow active)
  obtain ⟨sent, more, appends⟩ := trails.sent short header piece numbered
  rw [payload] at polled
  have node := sides_self isReverse
    (pollStream key (segmentPoll key isReverse header (slice data piece.offset piece.length)
      { decoder := decoder.appDecoder, flow := flow, dnsTable := decoder.dnsTable })).applications
    (pollStream key (segmentPoll key isReverse header (slice data piece.offset piece.length)
      { decoder := decoder.appDecoder, flow := flow, dnsTable := decoder.dnsTable })).peer
  rw [← polled.node] at node
  have initial := sent.initial
  rw [appends.peek, ← List.append_assoc] at initial
  let before : StreamPoll :=
    { stream := flow.side isReverse
      applications := (decoder.appDecoder.node key).self isReverse
      peer := (decoder.appDecoder.node key).self (!isReverse)
      dnsTable := decoder.dnsTable }
  obtain ⟨wholeToo, peer⟩ := @poll_whole key data start app whole _ _ initial before
    (fun notDns => (alone notDns).waiting) read _ appends
  have consumes := poll_stream_consumed key { before with
    stream := (flow.side isReverse).onSent header (slice data piece.offset piece.length) }
  obtain ⟨reached, later, bytes⟩ := sent.consume consumes
  refine ⟨step_sound reading.sound input, after, reached, found, ?_, ?_, ?_⟩
  · rw [polled.sent]
    exact later
  · rw [polled.sent, node.1]
    have all := bytes
    rw [appends.peek, ← List.append_assoc] at all
    exact (congrArg (readWhole key start) all).trans wholeToo
  · intro notDns
    rw [polled.received, node.2]
    refine ⟨on_received_quiet (alone notDns).quiet header, ?_⟩
    exact (congrArg Applications.pendingHeadRequests (peer notDns)).trans (alone notDns).waiting

/-- A poll leaves the other side alone: in DNS always, in HTTP if there is nothing to read. -/
theorem poll_other_side (app : ¬ (key.isDns = false ∧ key.isHttp = false)) {poll : StreamPoll}
    (quiet : key.isDns = false → poll.stream.Quiet) :
    (pollStream key poll).peer = poll.peer ∧
      (key.isDns = false → (pollStream key poll).applications = poll.applications) := by
  cases dns : key.isDns with
  | true =>
      refine ⟨?_, ?_⟩
      · unfold pollStream
        simp only [dns, if_true]
        split_ifs <;> rfl
      · intro notDns
        cases notDns
  | false =>
      have http := FlowKey.http_of_app app dns
      have viewed := poll_stream_reader http dns (quiet dns).inside
      have drained : poll.view.read = poll.view := HttpReader.read_drained (quiet dns).drained
      rw [drained, ite_self] at viewed
      exact ⟨congrArg HttpReader.peer viewed, fun _ => congrArg HttpReader.applications viewed⟩

theorem Reading.received (app : ¬ (key.isDns = false ∧ key.isHttp = false))
    (reading : Reading config key isReverse isn data start calls decoder)
    (carries : Carries config key (!isReverse) header input)
    (answers : Answers key header (decodedCapture config input).pkt.payload)
    (lives : ∀ flow, decoder.flowTable.flows.lookup key = some flow →
      decoder.flowTable.isExpired flow input.capture.tsUs = false) :
    Reading config key isReverse isn data start calls (step decoder input) := by
  obtain ⟨flow, consumed, active, trails, read, alone⟩ := reading.reads
  obtain ⟨after, found, polled⟩ := carries.step reading.sound app active (lives flow active)
  generalize carried : segmentPoll key (!isReverse) header (decodedCapture config input).pkt.payload
    { decoder := decoder.appDecoder, flow := flow, dnsTable := decoder.dnsTable } = poll at polled
  have stream : poll.stream = (flow.side (!isReverse)).onSent header
      (decodedCapture config input).pkt.payload := by rw [← carried]; rfl
  have peer : poll.peer = (decoder.appDecoder.node key).self isReverse := by
    rw [← carried, segmentPoll, Bool.not_not]
  have applications : poll.applications = (decoder.appDecoder.node key).self (!isReverse) := by
    rw [← carried]; rfl
  have quiet (notDns : key.isDns = false) : poll.stream.Quiet := by
    rw [stream, answers.silent notDns]
    exact on_sent_quiet (alone notDns).quiet header
  obtain ⟨samePeer, sameOwn⟩ := poll_other_side app quiet
  have node := sides_self (!isReverse) (pollStream key poll).applications (pollStream key poll).peer
  rw [← polled.node, Bool.not_not] at node
  have received := polled.received
  rw [Bool.not_not] at received
  have unread : (after.side isReverse).peek = (flow.side isReverse).peek := by
    obtain ⟨state, same⟩ := on_received_frame (flow.side isReverse) header
    rw [received, same]
    rfl
  refine ⟨step_sound reading.sound input, after, consumed, found, ?_, ?_, ?_⟩
  · rw [received]
    exact trails.received answers.rst answers.fin answers.opens
  · rw [unread, node.2, samePeer, peer]
    exact read
  · intro notDns
    refine ⟨?_, ?_⟩
    · rw [polled.sent]
      exact (poll_stream_consumed key poll).quiet (quiet notDns)
    · rw [node.1, sameOwn notDns, applications]
      exact (alone notDns).waiting

theorem StaysActive.earlier {before inputs : List Input}
    (stays : StaysActive config key before (inputs ++ [input])) :
    StaysActive config key before inputs := by
  intro first other rest flow split
  exact stays first other (rest ++ [input]) flow (by rw [split]; simp)

theorem run_reading {before inputs : List Input} (short : data.length < 2 ^ 31)
    (app : ¬ (key.isDns = false ∧ key.isHttp = false)) (whole : Whole key start data)
    (begins : Reading config key isReverse isn data start [] (run config before))
    (captured : Captured config key isReverse isn data inputs calls)
    (stays : StaysActive config key before inputs) :
    Reading config key isReverse isn data start calls (run config (before ++ inputs)) := by
  have lives {inputs : List Input} {input : Input}
      (stays : StaysActive config key before (inputs ++ [input]))
      (keyed : packetKey config input = some key) (flow : Flow)
      (active : (run config (before ++ inputs)).flowTable.flows.lookup key = some flow) :
      (run config (before ++ inputs)).flowTable.isExpired flow input.capture.tsUs = false :=
    stays inputs input [] flow rfl keyed active
  induction captured with
  | nil =>
      rw [List.append_nil]
      exact begins
  | sent earlier carries payload numbered ih =>
      rw [← List.append_assoc, run_append_one]
      exact (ih stays.earlier).sent short app whole carries payload numbered
        (lives stays carries.keyed)
  | received earlier carries answers ih =>
      rw [← List.append_assoc, run_append_one]
      exact (ih stays.earlier).received app carries answers (lives stays carries.keyed)
  | apart earlier apart ih =>
      rw [← List.append_assoc, run_append_one]
      exact (ih stays.earlier).apart apart

theorem app_ports_kept (app : (key.isDns || key.isHttp) = true) :
    FlowTable.portHasAppDecoder key = true := by
  unfold FlowKey.isDns FlowKey.isHttp at app
  unfold FlowTable.portHasAppDecoder
  exact (Bool.or_assoc _ _ _).trans app

/-- With nothing to read a poll changes nothing. -/
theorem read_whole_nil (app : ¬ (key.isDns = false ∧ key.isHttp = false)) (start : Applications) :
    readWhole key start [] = ([], start) := by
  cases dns : key.isDns with
  | true => exact read_whole_dns dns start (.stop rfl)
  | false =>
      have http := FlowKey.http_of_app app dns
      have drained : (wholeReader start []).read = wholeReader start [] :=
        HttpReader.read_drained rfl
      rw [read_whole_http http dns, drained]
      rfl

end Steps

/-- Where a side is opened, what is recorded from then on is what one poll of the bytes that the
capture covers records, in whatever order and pieces they were captured and whatever else was:
so two captures that cover the same bytes record the same. -/
theorem captures_read_what_they_cover (config : Config) (before : List Input) (key : FlowKey)
    (isReverse : Bool) (isn : UInt32) (data : List UInt8) (short : data.length < 2 ^ 31)
    (app : (key.isDns || key.isHttp) = true) (flow : Flow)
    (active : (run config before).flowTable.flows.lookup key = some flow)
    (opened : Opened isn (flow.side isReverse))
    (http : key.isDns = false → data.length ≤ maxHttpMessageBytes ∧
      Afresh (((run config before).appDecoder.node key).self isReverse) ∧
      Alone (flow.side (!isReverse)) (((run config before).appDecoder.node key).self (!isReverse)))
    (inputs : List Input) (calls : List Call)
    (captured : Captured config key isReverse isn data inputs calls)
    (stays : StaysActive config key before inputs) :
    let start := ((run config before).appDecoder.node key).self isReverse
    let recorded := ((run config (before ++ inputs)).appDecoder.node key).self isReverse
    (∃ k ≤ data.length, recorded = (readWhole key start (data.take k)).2) ∧
    (total (pieces calls) ≤ maxOooBytes →
      (∃ k, IsGreatest {k | k ≤ data.length ∧ ∀ i < k, Covered calls i} k ∧
        recorded = (readWhole key start (data.take k)).2) ∧
      ∀ others otherCalls, Captured config key isReverse isn data others otherCalls →
        StaysActive config key before others → total (pieces otherCalls) ≤ maxOooBytes →
        (∀ i, Covered calls i ↔ Covered otherCalls i) →
        ((run config (before ++ others)).appDecoder.node key).self isReverse = recorded) := by
  intro start recorded
  have ports : ¬ (key.isDns = false ∧ key.isHttp = false) := by
    intro plain
    simp [plain.1, plain.2] at app
  have kept : FlowTable.portHasAppDecoder key = true := app_ports_kept app
  have spare : Keeps (Sparing key) FlowApplications.Short key (run config before) :=
    run_keeps ⟨Nat.zero_le _, Nat.zero_le _⟩ before fun input _ => sparing_rule config key input
  have sparing : Sparing key flow :=
    spare.opened flow active
  obtain ⟨frugal, keeps⟩ := sparing isReverse
  have begins : Reading config key isReverse isn data start [] (run config before) := by
    refine ⟨run_sound config before, flow, [], active, opened.trails frugal (keeps.trans kept), ?_,
      fun notDns => (http notDns).2.2⟩
    rw [opened.drained, List.append_nil]
    exact read_whole_nil ports start
  have whole : Whole key start data :=
    ⟨fun notDns => (http notDns).2.1, fun notDns => (http notDns).1⟩
  obtain ⟨last, consumed, -, trails, read, -⟩ :=
    (run_reading short ports whole begins captured stays).reads
  have applications := congrArg Prod.snd read
  refine ⟨?_, ?_⟩
  · have initial := trails.initial
    refine ⟨_, initial.length_le, ?_⟩
    rw [← List.prefix_iff_eq_take.mp initial]
    exact applications.symm
  · intro room
    obtain ⟨k, greatest, delivered⟩ := trails.covered room
    rw [delivered] at applications
    refine ⟨⟨k, greatest, applications.symm⟩, ?_⟩
    intro others otherCalls otherCaptured otherStays otherRoom cover
    obtain ⟨otherLast, otherConsumed, -, otherTrails, otherRead, -⟩ :=
      (run_reading short ports whole begins otherCaptured otherStays).reads
    obtain ⟨l, otherGreatest, otherDelivered⟩ := otherTrails.covered otherRoom
    have otherApplications := congrArg Prod.snd otherRead
    have sameSet : {k | k ≤ data.length ∧ ∀ i < k, Covered calls i} =
        {k | k ≤ data.length ∧ ∀ i < k, Covered otherCalls i} := by
      ext bound
      simp only [Set.mem_ofPred_eq, cover]
    rw [sameSet] at greatest
    rw [otherDelivered, ← greatest.unique otherGreatest] at otherApplications
    exact otherApplications.symm.trans applications

theorem lives_at_zero (inputs : List Input) (flow : Flow) :
    (run unchecked inputs).flowTable.isExpired flow 0 = false := by
  have unlimited : (run unchecked inputs).flowTable.activeTimeoutUs = 0 :=
    (run_sound unchecked inputs).active
  simp only [FlowTable.isExpired, unlimited]
  split_ifs with earlier
  · rfl
  · have last : flow.lastSeen = 0 := UInt64.le_zero_iff.mp (UInt64.not_lt.mp earlier)
    simp [last]

def query : List UInt8 := [0, 12, 0, 7, 0, 0, 0, 0, 0, 0, 0, 0, 0, 0]

/-- The second half of the query, an answer, and the first half with two bytes of the second. -/
def halves : List Input :=
  [segmentAt false 107 0x18 (slice query 7 7), segmentAt true 300 0x10 [],
    segmentAt false 100 0x18 (slice query 0 9)]

def halfHeader (seq : UInt32) : Tcp.Header :=
  { srcPort := 5000, dstPort := 53, seqNumber := seq, dataOffsetReserved := 0x50, flags := 0x18 }

def halvesCalls : List Call :=
  [.sent (halfHeader 107) ⟨7, 7⟩, .sent (halfHeader 100) ⟨0, 9⟩]

theorem halves_captured : Captured unchecked queryKey false 100 query halves halvesCalls := by
  have second : Carries unchecked queryKey false (halfHeader 107)
      (segmentAt false 107 0x18 (slice query 7 7)) :=
    ⟨by unfold Undecoded; decide +kernel, by decide +kernel, by decide +kernel,
      by decide +kernel, rfl⟩
  have answer : Carries unchecked queryKey true
      { srcPort := 53, dstPort := 5000, seqNumber := 300, dataOffsetReserved := 0x50, flags := 0x10 }
      (segmentAt true 300 0x10 []) :=
    ⟨by unfold Undecoded; decide +kernel, by decide +kernel, by decide +kernel,
      by decide +kernel, rfl⟩
  have first : Carries unchecked queryKey false (halfHeader 100)
      (segmentAt false 100 0x18 (slice query 0 9)) :=
    ⟨by unfold Undecoded; decide +kernel, by decide +kernel, by decide +kernel,
      by decide +kernel, rfl⟩
  have captured : Captured unchecked queryKey false 100 query
      ([] ++ [segmentAt false 107 0x18 (slice query 7 7)])
      ([] ++ [.sent (halfHeader 107) ⟨7, 7⟩]) :=
    .sent .nil second (by decide +kernel) (by unfold Call.Carries; decide)
  have answered := captured.received answer
    ⟨by decide, by decide, by decide, fun _ => by decide +kernel⟩
  have whole : Captured unchecked queryKey false 100 query
      ([] ++ [segmentAt false 107 0x18 (slice query 7 7)] ++ [segmentAt true 300 0x10 []] ++
        [segmentAt false 100 0x18 (slice query 0 9)])
      ([] ++ [.sent (halfHeader 107) ⟨7, 7⟩] ++ [.sent (halfHeader 100) ⟨0, 9⟩]) :=
    answered.sent first (by decide +kernel) (by unfold Call.Carries; decide)
  exact whole

theorem captures_read_what_they_cover_halves :
    let start := ((run unchecked handshake).appDecoder.node queryKey).self false
    let recorded := ((run unchecked (handshake ++ halves)).appDecoder.node queryKey).self false
    (∃ k ≤ query.length, recorded = (readWhole queryKey start (query.take k)).2) ∧
      recorded.dnsMessages.length = 1 := by
  obtain ⟨flow, active⟩ := Option.isSome_iff_exists.mp
    (show ((run unchecked handshake).flowTable.flows.lookup queryKey).isSome = true by
      decide +kernel)
  have stands : ((run unchecked handshake).flowTable.flows.lookup queryKey).all (fun flow =>
      let side := flow.side false
      side.seeded && side.nextSeq == 100 && side.peek == [] && side.outOfOrder == [] &&
        !side.finSeen && side.state == .established) = true := by
    decide +kernel
  simp only [active, Option.all_some, Bool.and_eq_true, beq_iff_eq, Bool.not_eq_true'] at stands
  obtain ⟨⟨⟨⟨⟨seeded, nextSeq⟩, drained⟩, ordered⟩, finSeen⟩, state⟩ := stands
  have opened : Opened 100 (flow.side false) :=
    ⟨seeded, nextSeq, drained, ordered, finSeen, .inl state⟩
  have dns : queryKey.isDns = true := by decide +kernel
  have stays : StaysActive unchecked queryKey handshake halves := by
    intro first input rest held split _ _
    have zero : ∀ input ∈ halves, input.capture.tsUs = 0 := by decide
    rw [zero input (by rw [split]; simp)]
    exact lives_at_zero _ held
  have read := captures_read_what_they_cover unchecked handshake queryKey false 100 query
    (by decide) (by rw [dns]; rfl) flow active opened
    (fun notDns => by rw [dns] at notDns; cases notDns) halves halvesCalls halves_captured stays
  exact ⟨read.1, by decide +kernel⟩

end Decoder

end PcapAnalyzer
