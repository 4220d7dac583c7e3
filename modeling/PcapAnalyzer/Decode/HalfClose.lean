import PcapAnalyzer.Analysis.Reporting
import PcapAnalyzer.Decode.StreamFeed
import PcapAnalyzer.Flow.TcpRun

/-!
# Half-closed connections

A side that has received the other side's FIN is in `CloseWait` and may go on sending.
`onSent` takes in what it sends there, but `hasReadableData` does not count `CloseWait`
among the readable states, so nothing sent after the FIN is ever decoded.
-/

namespace PcapAnalyzer

open Pcap (Capture)

set_option autoImplicit false

namespace TcpReassembler

section Sent

variable (stream : TcpReassembler) (header : Tcp.Header) (span : List UInt8)

/-- Taking in data leaves the state as it is or, once the FIN is reached, closes this side. -/
theorem on_data_state :
    (stream.onData header span).state = stream.state ∨
      (stream.onData header span).state =
        if stream.state = .closeWait then .lastAck else .finWait1 := by
  have kept := (marked_control stream header span).1
  rw [on_data_eq]
  by_cases due : (stream.marked header span).FinDue
  · rw [if_pos due, ← kept]
    exact .inr rfl
  · rw [if_neg due]
    exact .inl kept

/-- Data is readable after it was taken in unless this side was already in `CloseWait`. -/
theorem on_data_readable
    (open_ : stream.state = .established ∨ stream.state = .closeWait) :
    (stream.onData header span).hasReadableData = true ↔ stream.state ≠ .closeWait := by
  have states := on_data_state stream header span
  rcases open_ with established | closing
  · rcases states with same | closed
    · simp [hasReadableData, same, established]
    · simp [hasReadableData, closed, established]
  · rcases states with same | closed
    · simp [hasReadableData, same, closing]
    · simp [hasReadableData, closed, closing]

/-- Once the handshake is over, payload that is taken in is readable in the same packet's
poll exactly if this side was not in `CloseWait` before. -/
theorem on_sent_readable_iff (rst : header.rst = false)
    (handshake : stream.seeded = true ∨ header.syn = false)
    (appends : (stream.onSent header span).assembled ≠ stream.assembled) :
    (stream.onSent header span).hasReadableData = true ↔ stream.state ≠ .closeWait := by
  unfold onSent at appends ⊢
  simp only [rst, Bool.false_eq_true, if_false] at appends ⊢
  cases seeded : stream.seeded with
  | false =>
      have notSyn : header.syn = false := by
        rcases handshake with known | notSyn
        · rw [seeded] at known
          cases known
        · exact notSyn
      simp only [seeded, notSyn, Bool.not_false, if_true, Bool.false_eq_true, if_false]
        at appends ⊢
      split_ifs at appends ⊢ with ack unsettled
      · rw [on_data_readable _ _ _ (Or.inl rfl)]
        simpa using unsettled
      · have closing : stream.state = .closeWait := by simpa using unsettled
        exact on_data_readable { stream with nextSeq := header.seqNumber, seeded := true }
          header span (Or.inr closing)
      · exact absurd rfl appends
  | true =>
      simp only [seeded, Bool.not_true, Bool.false_eq_true, if_false] at appends ⊢
      cases state : stream.state <;> simp only [state] at appends ⊢
      case synSent =>
        split_ifs at appends ⊢
        · rw [on_data_readable _ _ _ (Or.inl rfl)]
          simp
        · exact absurd rfl appends
      case established =>
        rw [on_data_readable _ _ _ (Or.inl state), state]
      case closeWait =>
        rw [on_data_readable _ _ _ (Or.inr state), state]
      all_goals exact absurd rfl appends

/-- Nothing a side sends leads it to `CloseWait`. -/
theorem on_sent_close_wait (before : stream.state ≠ .closeWait) :
    (stream.onSent header span).state ≠ .closeWait := by
  have data : ∀ stream : TcpReassembler, stream.state ≠ .closeWait →
      (stream.onData header span).state ≠ .closeWait := by
    intro stream before
    rcases on_data_state stream header span with same | closed
    · rw [same]
      exact before
    · rw [closed, if_neg before]
      decide
  unfold onSent
  by_cases rst : header.rst = true
  · simp [rst]
  simp only [rst, if_false, Bool.false_eq_true]
  by_cases unseeded : (!stream.seeded) = true
  · simp only [unseeded, if_true]
    split_ifs with syn synAck ack
    · simp [(ingest_control _ _ _).state]
    · simp [(ingest_control _ _ _).state]
    · exact data _ (by simp)
    · exact before
  · simp only [unseeded, if_false, Bool.false_eq_true]
    cases state : stream.state <;> simp only
    case synSent =>
      split_ifs
      · exact data _ (by simp)
      · exact before
    case established | closeWait => exact data _ before
    all_goals exact before

/-- Only a FIN of the other side leads to `CloseWait`. -/
theorem on_received_close_wait (noFin : header.fin = false)
    (before : stream.state ≠ .closeWait) : (stream.onReceived header).state ≠ .closeWait := by
  unfold onReceived
  by_cases rst : header.rst = true
  · simp [rst]
  simp only [rst, if_false, Bool.false_eq_true]
  cases state : stream.state <;> simp only [noFin, Bool.false_and, Bool.false_eq_true, if_false]
  case closeWait => exact absurd state before
  all_goals first | exact before | split_ifs <;> simp [state]

/-- This side takes in nothing that it will read: whatever it sends, it stays that way. -/
def Silent : Prop :=
  stream.seeded = true ∧ (stream.state = .closed ∨ stream.state = .closeWait ∨
    stream.state = .closing ∨ stream.state = .lastAck ∨ stream.state = .timeWait)

variable {stream}

theorem Silent.unreadable (silent : Silent stream) : stream.hasReadableData = false := by
  rcases silent.2 with state | state | state | state | state <;> simp [hasReadableData, state]

/-- A FIN of the other side silences a side that could be read. -/
theorem on_received_fin_silent (seeded : stream.seeded = true)
    (readable : stream.hasReadableData = true) (fin : header.fin = true) :
    Silent (stream.onReceived header) := by
  simp only [hasReadableData, Bool.or_eq_true, decide_eq_true_eq, or_assoc] at readable
  unfold onReceived
  by_cases rst : header.rst = true
  · simp [Silent, rst, seeded]
  rcases readable with state | state | state
  · simp [Silent, rst, state, fin, seeded]
  · simp only [rst, state, fin, Bool.false_eq_true, if_false, Bool.true_and]
    split_ifs <;> simp [Silent, seeded]
  · simp [Silent, rst, state, fin, seeded]

theorem on_sent_silent (silent : Silent stream) : Silent (stream.onSent header span) := by
  obtain ⟨seeded, states⟩ := silent
  unfold onSent
  by_cases rst : header.rst = true
  · simp [Silent, rst, seeded]
  simp only [rst, seeded, Bool.false_eq_true, if_false, Bool.not_true]
  rcases states with state | state | state | state | state <;> simp only [state]
  case inr.inl =>
    have seededToo := (on_data_seeded stream header span).trans seeded
    rcases on_data_state stream header span with same | closed
    · exact ⟨seededToo, by simp [same, state]⟩
    · exact ⟨seededToo, by simp [closed, state]⟩
  all_goals exact ⟨seeded, by simp [state]⟩

end Sent

end TcpReassembler

namespace Decoder

open AppDecoder

theorem count_packet_side (flow : Flow) (turned isReverse : Bool) (capture : Capture) :
    (FlowTable.countPacket flow turned capture).side isReverse = flow.side isReverse := by
  cases turned <;> rfl

/-- The segment is sent on the side of its direction and received on the other one. -/
theorem reassemble_side (flow : Flow) (tcp : Tcp.Header) (payload : List UInt8) :
    (reassemble flow tcp payload).side flow.isReverse =
        (flow.side flow.isReverse).onSent tcp payload ∧
      (reassemble flow tcp payload).side (!flow.isReverse) =
        (flow.side (!flow.isReverse)).onReceived tcp := by
  cases turned : flow.isReverse <;> simp [reassemble, turned, Flow.side]

/-- The flow once the packet has been reassembled, before it is polled. -/
def reassembled (pkt : Packet) (flow : Flow) : Flow :=
  match pkt.transport with
  | .tcp tcp => reassemble flow tcp pkt.payload
  | _ => flow

/-- A poll does not change the state of either side. -/
theorem poll_packet_side_state (pkt : Packet) (key : FlowKey) (isNew : Bool) (poll : FlowPoll)
    (owned : Owned key poll.flow) (isReverse : Bool) :
    ((pollPacket pkt key isNew poll).flow.side isReverse).state =
      ((reassembled pkt poll.flow).side isReverse).state := by
  cases transport : pkt.transport with
  | tcp tcp =>
      simp only [pollPacket, reassembled, transport]
      have sent : Owned key (reassemble poll.flow tcp pkt.payload) := by
        simpa only [Owned, reassemble_app_state] using owned
      exact (poll_flow_consumed key { poll with flow := reassemble poll.flow tcp pkt.payload }
        isNew sent isReverse).same.state
  | udp udp =>
      simp only [pollPacket, reassembled, transport]
      by_cases plain : pkt.payload = [] ∨ key.isDns = false
      · rw [poll_datagram_plain isNew plain]
      · simp only [not_or, Bool.not_eq_false] at plain
        rw [poll_datagram_app isNew plain.1 plain.2 owned]
        rfl
  | monostate | icmp _ | icmpv6 _ => simp [pollPacket, reassembled, transport]

/-- The packet is a TCP segment of the flow sent in the given direction. -/
structure Carries (config : Config) (key : FlowKey) (isReverse : Bool) (header : Tcp.Header)
    (input : Input) : Prop where
  decodes : ¬ Undecoded config input
  passes : filtered config.filter (decodedCapture config input).pkt = false
  keyed : packetKey config input = some key
  direction : FlowTable.direction (decodedCapture config input) = isReverse
  transport : (decodedCapture config input).pkt.transport = .tcp header

/-- The messages recorded for one direction. -/
def messagesOf (decoder : Decoder) (key : FlowKey) (isReverse : Bool) :
    List Http.Header × List Dns.Header :=
  let applications := (decoder.appDecoder.node key).self isReverse
  (applications.httpMessages, applications.dnsMessages)

section Segments

variable {config : Config} {decoder : Decoder} {key : FlowKey} {isReverse : Bool}
  {header : Tcp.Header} {input : Input}

theorem Carries.accepts (carries : Carries config key isReverse header input)
    (sound : Sound config decoder) :
    ∃ added table, Accepts decoder (decodedCapture config input) key added table := by
  rcases decode_capture_cases decoder (decodedCapture config input) with ignores |
    ⟨other, added, table, accepts⟩
  · have outside := ignores.outside
    rw [sound.sameConfig] at outside
    exact absurd outside (packet_key_inside carries.keyed carries.passes).2
  · obtain rfl : other = key :=
      Option.some.inj ((packet_key_accepts carries.decodes accepts).symm.trans carries.keyed)
    exact ⟨added, table, accepts⟩

/-- A packet of a flow that has not expired is counted there. -/
theorem Polls.counted {capture : Capture} {added : FlowTable.Added} {table : FlowTable}
    {counted flow : Flow} (polls : Polls config decoder capture key added table counted)
    (sound : Sound config decoder) (active : decoder.flowTable.flows.lookup key = some flow)
    (lives : decoder.flowTable.isExpired flow capture.tsUs = false) :
    added.isNew = false ∧
      counted = FlowTable.countPacket flow (FlowTable.direction capture) capture := by
  have held : (decoder.flowTable.toBook.view key).opened = some flow := active
  have expiry : (FlowTable.expiry config.flowActiveTimeoutUs config.flowIdleTimeoutUs).isExpired
      flow capture.tsUs = false := by
    simpa only [FlowTable.isExpired, FlowTable.expiry, ← sound.active, ← sound.idle] using lives
  have opens : (FlowTable.flowRules config.flowActiveTimeoutUs
      config.flowIdleTimeoutUs).opens (decoder.flowTable.toBook.view key).opened capture =
        false := by
    rw [held]
    exact expiry
  refine ⟨polls.isNew.trans opens, ?_⟩
  have opened := polls.opened
  rw [polls.book, Ledger.Rules.postView, opens, held] at opened
  exact (Option.some.inj opened).symm

/-- The stream poll of a segment that one side sends. -/
def segmentPoll (key : FlowKey) (isReverse : Bool) (header : Tcp.Header) (payload : List UInt8)
    (poll : FlowPoll) : StreamPoll :=
  { stream := (poll.flow.side isReverse).onSent header payload
    applications := (poll.decoder.node key).self isReverse
    peer := (poll.decoder.node key).self (!isReverse)
    dnsTable := poll.dnsTable }

/-- One side sends, the other receives, and the sending side is polled. -/
structure SegmentPolled (key : FlowKey) (isReverse : Bool) (header : Tcp.Header)
    (start : StreamPoll) (before : Flow) (after : Flow) (decoder : AppDecoder) : Prop where
  sent : after.side isReverse = (pollStream key start).stream
  received : after.side (!isReverse) = (before.side (!isReverse)).onReceived header
  node : decoder.node key =
    .sides isReverse (pollStream key start).applications (pollStream key start).peer

theorem poll_packet_segment {pkt : Packet} (transport : pkt.transport = .tcp header)
    (app : ¬ (key.isDns = false ∧ key.isHttp = false)) {poll : FlowPoll}
    (owned : Owned key poll.flow) :
    SegmentPolled key poll.flow.isReverse header
      (segmentPoll key poll.flow.isReverse header pkt.payload poll) poll.flow
      (pollPacket pkt key false poll).flow (pollPacket pkt key false poll).decoder := by
  have sides := reassemble_side poll.flow header pkt.payload
  have turned : (reassemble poll.flow header pkt.payload).isReverse = poll.flow.isReverse := by
    unfold reassemble
    split_ifs <;> rfl
  have sent : Owned key (reassemble poll.flow header pkt.payload) := by
    simpa only [Owned, reassemble_app_state] using owned
  simp only [pollPacket, transport]
  generalize reassemble poll.flow header pkt.payload = flow at *
  have start : streamPoll key { poll with flow := flow } false =
      segmentPoll key poll.flow.isReverse header pkt.payload poll := by
    have stream : flow.stream = _ := (congrArg flow.side turned).trans sides.1
    simp [streamPoll, segmentPoll, startNode, stream, turned]
  have polled : pollFlow key { poll with flow := flow } false = _ := poll_flow_app false app sent
  have moved := set_stream_side flow
    (pollStream key (segmentPoll key poll.flow.isReverse header pkt.payload poll)).stream
  rw [turned] at moved
  rw [polled, start]
  exact {
    sent := moved.1
    received := moved.2.trans sides.2
    node := by simp [turned] }

/-- What a segment of a live flow on an application port does. -/
theorem Carries.step (carries : Carries config key isReverse header input)
    (sound : Sound config decoder) (app : ¬ (key.isDns = false ∧ key.isHttp = false))
    {flow : Flow} (active : decoder.flowTable.flows.lookup key = some flow)
    (lives : decoder.flowTable.isExpired flow input.capture.tsUs = false) :
    ∃ after, (step decoder input).flowTable.flows.lookup key = some after ∧
      SegmentPolled key isReverse header
        (segmentPoll key isReverse header (decodedCapture config input).pkt.payload
          { decoder := decoder.appDecoder, flow := flow, dnsTable := decoder.dnsTable })
        flow after (step decoder input).appDecoder := by
  obtain ⟨added, table, accepts⟩ := carries.accepts sound
  obtain ⟨counted, polls⟩ := accepts.polls sound
  obtain ⟨notNew, same⟩ := polls.counted sound active lives
  have accepted := accepts.accepted polls
  have sameSide : ∀ isReverse, counted.side isReverse = flow.side isReverse := by
    intro isReverse
    rw [same, count_packet_side]
  have turned : counted.isReverse = isReverse := by
    rw [same, carries.direction]
    cases isReverse <;> rfl
  let poll : FlowPoll :=
    { decoder := decoder.appDecoder, flow := counted, dnsTable := decoder.dnsTable }
  have owned : Owned key poll.flow := polls.owned
  have polled := poll_packet_segment carries.transport app owned
  rw [show poll.flow.isReverse = isReverse from turned] at polled
  rw [step_decoded sound carries.decodes, accepted.flows, accepted.appDecoder, acceptedPoll,
    notNew]
  refine ⟨_, AList.lookup_insert _, ?_⟩
  exact {
    sent := by simpa only [segmentPoll, poll, sameSide] using polled.sent
    received := by simpa only [poll, sameSide] using polled.received
    node := by simpa only [segmentPoll, poll, sameSide] using polled.node }

theorem Carries.decoded (carries : Carries config key isReverse header input)
    (sound : Sound config decoder) (app : ¬ (key.isDns = false ∧ key.isHttp = false)) :
    key.decoded = true := by
  obtain ⟨added, table, accepts⟩ := carries.accepts sound
  obtain ⟨raw, found, rfl⟩ := accepts.posts.keyed
  refine reads_decoded found ?_
  simp only [reads, carries.transport]
  by_contra neither
  simp only [Bool.or_eq_true, not_or, Bool.not_eq_true] at neither
  exact app neither

/-- The flow of a segment that does not restart it has not expired. -/
theorem Carries.lives (carries : Carries config key isReverse header input)
    (sound : Sound config decoder) (app : ¬ (key.isDns = false ∧ key.isHttp = false))
    {flow : Flow} (active : decoder.flowTable.flows.lookup key = some flow)
    (calm : ¬ Restarts config decoder input) :
    decoder.flowTable.isExpired flow input.capture.tsUs = false := by
  by_contra expired
  exact calm ⟨key, flow, carries.keyed, carries.decoded sound app, carries.passes, active,
    by simpa using expired⟩

theorem sides_self (isReverse : Bool) (self peer : Applications) :
    (FlowApplications.sides isReverse self peer).self isReverse = self ∧
      (FlowApplications.sides isReverse self peer).self (!isReverse) = peer := by
  cases isReverse <;> simp [FlowApplications.sides, FlowApplications.self]

/-- What one side sends does not change the messages recorded for the other one. -/
theorem SegmentPolled.messages_peer {start : StreamPoll} {before after : Flow}
    (polled : SegmentPolled key isReverse header start before after decoder.appDecoder) :
    messagesOf decoder key (!isReverse) = (start.peer.httpMessages, start.peer.dnsMessages) := by
  have grown := (poll_stream_grows key start).2
  simp only [messagesOf, polled.node, (sides_self isReverse _ _).2, grown.httpMessages,
    grown.dnsMessages]

/-- Nothing is recorded for a side that cannot be read. -/
theorem SegmentPolled.messages_silent {start : StreamPoll} {before after : Flow}
    (polled : SegmentPolled key isReverse header start before after decoder.appDecoder)
    (unreadable : start.stream.hasReadableData = false) :
    after.side isReverse = start.stream ∧ messagesOf decoder key isReverse =
      (start.applications.httpMessages, start.applications.dnsMessages) := by
  have unpolled : pollStream key start = start := by simp [pollStream, unreadable]
  refine ⟨by rw [polled.sent, unpolled], ?_⟩
  simp only [messagesOf, polled.node, (sides_self isReverse _ _).1, unpolled]

theorem view_same_parts {left right : Decoder} (same : view key left = view key right) :
    left.flowTable.flows.lookup key = right.flowTable.flows.lookup key ∧
      left.appDecoder.node key = right.appDecoder.node key := by
  have flows := congrArg (fun seen => seen.1.opened) same
  have nodes := congrArg Prod.snd same
  exact ⟨flows, congrArg (fun found : Option FlowApplications => found.getD {}) nodes⟩

/-- A flow that does not expire stays active. -/
theorem step_active (sound : Sound config decoder) {flow : Flow}
    (active : decoder.flowTable.flows.lookup key = some flow) :
    ∃ after, (step decoder input).flowTable.flows.lookup key = some after := by
  by_cases own : packetKey config input = some key
  · by_cases undecoded : Undecoded config input
    · exact ⟨flow, by rw [step_undecoded sound undecoded, active]⟩
    · rw [step_decoded sound undecoded]
      rcases decode_capture_cases decoder (decodedCapture config input) with ignores |
        ⟨other, added, table, accepts⟩
      · exact ⟨flow, by rw [ignores.flowTable, active]⟩
      · obtain rfl : other = key :=
          Option.some.inj ((packet_key_accepts undecoded accepts).symm.trans own)
        obtain ⟨counted, polls⟩ := accepts.polls sound
        rw [(accepts.accepted polls).flows]
        exact ⟨_, AList.lookup_insert _⟩
  · exact ⟨flow, by rw [(view_same_parts (step_foreign sound own)).1, active]⟩

/-- One side of the flow is silent, and these are the messages recorded for it. -/
structure SilentWith (config : Config) (decoder : Decoder) (key : FlowKey) (isReverse : Bool)
    (messages : List Http.Header × List Dns.Header) : Prop where
  sound : Sound config decoder
  silent : ∃ flow, decoder.flowTable.flows.lookup key = some flow ∧
    (flow.side isReverse).Silent
  recorded : messagesOf decoder key isReverse = messages

/-- A packet of another flow, or a segment of the given side. -/
def OnlySends (config : Config) (key : FlowKey) (isReverse : Bool) (input : Input) : Prop :=
  packetKey config input ≠ some key ∨ ∃ header, Carries config key isReverse header input

variable {messages : List Http.Header × List Dns.Header}

theorem step_silent (app : ¬ (key.isDns = false ∧ key.isHttp = false))
    (before : SilentWith config decoder key isReverse messages)
    (sends : OnlySends config key isReverse input) (calm : ¬ Restarts config decoder input) :
    SilentWith config (step decoder input) key isReverse messages := by
  obtain ⟨sound, ⟨flow, active, silent⟩, recorded⟩ := before
  rcases sends with foreign | ⟨header, carries⟩
  · have same := view_same_parts (step_foreign sound foreign)
    refine ⟨step_sound sound input, ⟨flow, by rw [same.1, active], silent⟩, ?_⟩
    rw [← recorded, messagesOf, messagesOf, same.2]
  · obtain ⟨after, found, polled⟩ := carries.step sound app active
      (carries.lives sound app active calm)
    have stays := TcpReassembler.on_sent_silent header
      (decodedCapture config input).pkt.payload silent
    obtain ⟨side, messages⟩ := polled.messages_silent stays.unreadable
    exact ⟨step_sound sound input, ⟨after, found, side ▸ stays⟩, messages.trans recorded⟩

theorem run_silent (app : ¬ (key.isDns = false ∧ key.isHttp = false)) (before after : List Input)
    (start : SilentWith config (run config before) key isReverse messages)
    (sends : ∀ input ∈ after, OnlySends config key isReverse input)
    (calm : NeverRestarts config (before ++ after)) :
    SilentWith config (run config (before ++ after)) key isReverse messages := by
  induction after using List.reverseRecOn with
  | nil => simpa using start
  | append_singleton after input ih =>
      have earlier : NeverRestarts config (before ++ after) := by
        intro first other rest cut
        exact calm first other (rest ++ [input]) (by rw [← List.append_assoc, cut]; simp)
      have sent := ih (fun other member => sends other (by simp [member])) earlier
      rw [← List.append_assoc, run_append_one]
      exact step_silent app sent (sends input (by simp))
        (calm (before ++ after) input [] (by simp))

/-- The FIN of the other side silences this one, and its messages stay as they are. -/
theorem step_fin (app : ¬ (key.isDns = false ∧ key.isHttp = false))
    (sound : Sound config decoder) {flow : Flow}
    (active : decoder.flowTable.flows.lookup key = some flow)
    (carries : Carries config key (!isReverse) header input)
    (calm : ¬ Restarts config decoder input) :
    messagesOf (step decoder input) key isReverse = messagesOf decoder key isReverse ∧
      ∃ after, (step decoder input).flowTable.flows.lookup key = some after ∧
        after.side isReverse = (flow.side isReverse).onReceived header := by
  obtain ⟨after, found, polled⟩ := carries.step sound app active
    (carries.lives sound app active calm)
  have messages := polled.messages_peer
  have received := polled.received
  rw [Bool.not_not] at messages received
  refine ⟨messages.trans ?_, after, found, received⟩
  simp only [segmentPoll, Bool.not_not, messagesOf]

/-- A packet is counted in the active flow of its key or in a new one. -/
theorem Polls.counts {capture : Capture} {added : FlowTable.Added} {table : FlowTable}
    {counted : Flow} (polls : Polls config decoder capture key added table counted) :
    ∃ flow, counted = FlowTable.countPacket flow (FlowTable.direction capture) capture ∧
      (decoder.flowTable.flows.lookup key = some flow ∨
        flow = FlowTable.newFlow key capture.tsUs) := by
  have opened := polls.opened
  rw [polls.book, Ledger.Rules.postView] at opened
  split_ifs at opened with opens
  · exact ⟨_, (Option.some.inj opened).symm, Or.inr rfl⟩
  · obtain ⟨flow, held, recorded⟩ := Option.map_eq_some_iff.mp opened
    exact ⟨flow, recorded.symm, Or.inl held⟩

theorem new_flow_side (key : FlowKey) (tsUs : UInt64) (isReverse : Bool) :
    ((FlowTable.newFlow key tsUs).side isReverse).state = .unknown := by
  unfold FlowTable.newFlow Flow.side
  split_ifs <;> rfl

/-- The packet is no FIN of the given direction of the flow. -/
def NoFin (config : Config) (key : FlowKey) (isReverse : Bool) (input : Input) : Prop :=
  ∀ header, Carries config key isReverse header input → header.fin = false

/-- Without a FIN of the other side no packet leads a side to `CloseWait`. -/
theorem step_close_wait (sound : Sound config decoder)
    (before : ∀ flow, decoder.flowTable.flows.lookup key = some flow →
      (flow.side isReverse).state ≠ .closeWait)
    (noFin : NoFin config key (!isReverse) input) {after : Flow}
    (active : (step decoder input).flowTable.flows.lookup key = some after) :
    (after.side isReverse).state ≠ .closeWait := by
  by_cases own : packetKey config input = some key
  case neg =>
    rw [(view_same_parts (step_foreign sound own)).1] at active
    exact before after active
  by_cases undecoded : Undecoded config input
  · rw [step_undecoded sound undecoded] at active
    exact before after active
  rw [step_decoded sound undecoded] at active
  rcases decode_capture_cases decoder (decodedCapture config input) with ignores |
    ⟨other, added, table, accepts⟩
  · rw [ignores.flowTable] at active
    exact before after active
  obtain rfl : other = key :=
    Option.some.inj ((packet_key_accepts undecoded accepts).symm.trans own)
  obtain ⟨counted, polls⟩ := accepts.polls sound
  rw [(accepts.accepted polls).flows, AList.lookup_insert, Option.some.injEq] at active
  rw [← active, acceptedPoll, poll_packet_side_state _ _ _ _ polls.owned]
  obtain ⟨flow, same, held⟩ := polls.counts
  have turned : counted.isReverse = FlowTable.direction (decodedCapture config input) := by
    rw [same]
    unfold FlowTable.countPacket
    split_ifs <;> rfl
  have countedState : (counted.side isReverse).state ≠ .closeWait := by
    rw [same, count_packet_side]
    rcases held with held | rfl
    · exact before flow held
    · rw [new_flow_side]
      decide
  cases transport : (decodedCapture config input).pkt.transport with
  | tcp tcp =>
      simp only [reassembled, transport]
      have sides := reassemble_side counted tcp (decodedCapture config input).pkt.payload
      rw [turned] at sides
      by_cases sends : isReverse = FlowTable.direction (decodedCapture config input)
      · rw [sends, sides.1, ← sends]
        exact TcpReassembler.on_sent_close_wait _ _ _ countedState
      · obtain rfl : isReverse = !FlowTable.direction (decodedCapture config input) := by
          cases isReverse <;> simp_all
        rw [sides.2]
        have carries : Carries config other
            (!!FlowTable.direction (decodedCapture config input)) tcp input :=
          ⟨undecoded, sound.sameConfig ▸ accepts.passes, own, (Bool.not_not _).symm, transport⟩
        exact TcpReassembler.on_received_close_wait _ _ (noFin tcp carries) countedState
  | udp udp => simpa only [reassembled, transport] using countedState
  | monostate | icmp _ | icmpv6 _ => simpa only [reassembled, transport] using countedState

theorem run_sound (config : Config) (inputs : List Input) : Sound config (run config inputs) := by
  induction inputs using List.reverseRecOn with
  | nil => exact new_sound config
  | append_singleton inputs input ih =>
      rw [run_append_one]
      exact step_sound ih input

/-- A side that was never sent a FIN is not in `CloseWait`. -/
theorem run_close_wait (inputs : List Input)
    (noFin : ∀ input ∈ inputs, NoFin config key (!isReverse) input) {flow : Flow}
    (active : (run config inputs).flowTable.flows.lookup key = some flow) :
    (flow.side isReverse).state ≠ .closeWait := by
  induction inputs using List.reverseRecOn generalizing flow with
  | nil => simp [run, new] at active
  | append_singleton inputs input ih =>
      rw [run_append_one] at active
      exact step_close_wait (run_sound config inputs)
        (fun flow => ih fun other member => noFin other (by simp [member]))
        (noFin input (by simp)) active

theorem run_active (before after : List Input) {flow : Flow}
    (active : (run config before).flowTable.flows.lookup key = some flow) :
    ∃ last, (run config (before ++ after)).flowTable.flows.lookup key = some last := by
  induction after using List.reverseRecOn with
  | nil => exact ⟨flow, by simpa using active⟩
  | append_singleton after input ih =>
      obtain ⟨last, found⟩ := ih
      rw [← List.append_assoc, run_append_one]
      exact step_active (run_sound config _) found

end Segments

/-- In every state of every run, payload of a flow that is taken in after the handshake is read
in the same packet's poll exactly if its side is not in `CloseWait`, where only a FIN of the
other side leads. A FIN that comes after all that the side sends changes none of its messages;
of what comes after the FIN no message is ever recorded. -/
theorem half_close_reads_what_precedes_fin (config : Config) (inputs : List Input) (key : FlowKey)
    (isReverse : Bool) (flow : Flow) (app : (key.isDns || key.isHttp) = true)
    (active : (run config inputs).flowTable.flows.lookup key = some flow) :
    (∀ (header : Tcp.Header) (span : List UInt8), header.rst = false →
      (flow.side isReverse).seeded = true ∨ header.syn = false →
      ((flow.side isReverse).onSent header span).assembled ≠ (flow.side isReverse).assembled →
      (((flow.side isReverse).onSent header span).hasReadableData = true ↔
        (flow.side isReverse).state ≠ .closeWait)) ∧
    ((∀ input ∈ inputs, NoFin config key (!isReverse) input) →
      (flow.side isReverse).state ≠ .closeWait) ∧
    ∀ (header : Tcp.Header) (fin : Input) (after : List Input),
      (flow.side isReverse).seeded = true → (flow.side isReverse).hasReadableData = true →
      Carries config key (!isReverse) header fin → header.fin = true →
      (∀ input ∈ after, OnlySends config key isReverse input) →
      (NeverRestarts config (inputs ++ after ++ [fin]) →
        messagesOf (run config (inputs ++ after ++ [fin])) key isReverse =
          messagesOf (run config (inputs ++ after)) key isReverse) ∧
      (NeverRestarts config (inputs ++ fin :: after) →
        messagesOf (run config (inputs ++ fin :: after)) key isReverse =
          messagesOf (run config inputs) key isReverse) := by
  have ports : ¬ (key.isDns = false ∧ key.isHttp = false) := by
    rintro ⟨notDns, notHttp⟩
    simp [notDns, notHttp] at app
  refine ⟨fun header span rst handshake appends =>
    TcpReassembler.on_sent_readable_iff _ header span rst handshake appends,
    fun noFin => run_close_wait inputs noFin active, ?_⟩
  intro header fin after seeded readable carries isFin sends
  constructor
  · intro calm
    obtain ⟨last, found⟩ := run_active inputs after active
    rw [run_append_one]
    exact (step_fin ports (run_sound config _) found carries
      (calm (inputs ++ after) fin [] rfl)).1
  · intro calm
    have split : inputs ++ fin :: after = inputs ++ [fin] ++ after := by simp
    rw [split] at calm ⊢
    obtain ⟨messages, closed, found, received⟩ := step_fin ports (run_sound config inputs) active
      carries (calm inputs fin after (by simp))
    have silent : SilentWith config (run config (inputs ++ [fin])) key isReverse
        (messagesOf (run config inputs) key isReverse) := by
      rw [run_append_one]
      exact ⟨step_sound (run_sound config inputs) fin, ⟨closed, found, received ▸
        TcpReassembler.on_received_fin_silent header seeded readable isFin⟩, messages⟩
    exact (run_silent ports _ after silent sends calm).recorded

/-- A TCP segment between 10.0.0.1:5000 and 10.0.0.2:53, without checksums. -/
def segmentAt (fromServer : Bool) (seq : UInt16) (flags : UInt8) (payload : List UInt8) : Input :=
  let client : List UInt8 := [10, 0, 0, 1]
  let server : List UInt8 := [10, 0, 0, 2]
  let clientPort : List UInt8 := [0x13, 0x88]
  let serverPort : List UInt8 := [0, 53]
  let addresses := if fromServer then server ++ client else client ++ server
  let ports := if fromServer then serverPort ++ clientPort else clientPort ++ serverPort
  let length := payload.length + 40
  let ethernet : List UInt8 := [2, 0, 0, 0, 0, 1, 2, 0, 0, 0, 0, 2, 0x08, 0x00]
  let ip : List UInt8 := [0x45, 0, 0, UInt8.ofNat length, 0, 0, 0, 0, 64, 6, 0, 0] ++ addresses
  let tcp : List UInt8 :=
    [0, 0, (seq >>> 8).toUInt8, seq.toUInt8, 0, 0, 0, 0, 0x50, flags, 0, 0, 0, 0, 0, 0]
  { span := ethernet ++ ip ++ ports ++ tcp ++ payload
    capture :=
      { packetHeader := { inclLen := 14 + UInt32.ofNat length, origLen := 14 + UInt32.ofNat length }
        pkt := { datalink := .ethernet {} } } }

def handshake : List Input :=
  [segmentAt false 99 0x02 [], segmentAt true 299 0x12 [], segmentAt false 100 0x10 []]

def serverFin : Input := segmentAt true 300 0x11 []

/-- A DNS message without records behind its length. -/
def clientQuery : Input := segmentAt false 100 0x18 [0, 12, 0, 7, 0, 0, 0, 0, 0, 0, 0, 0, 0, 0]

def unchecked : Config := { verifyChecksum := false }

def queryKey : FlowKey := ((packetKey unchecked clientQuery).getD {})

/-- At one time no flow expires. -/
theorem never_restarts_at_zero (inputs : List Input)
    (zero : ∀ input ∈ inputs, input.capture.tsUs = 0) : NeverRestarts unchecked inputs := by
  rintro before input after cut ⟨key, flow, _, _, _, _, expired⟩
  have unlimited : (run unchecked before).flowTable.activeTimeoutUs = 0 :=
    (run_sound unchecked before).active
  rw [zero input (by simp [cut])] at expired
  simp only [FlowTable.isExpired] at expired
  split_ifs at expired with earlier
  have first : flow.lastSeen = 0 := UInt64.le_zero_iff.mp (UInt64.not_lt.mp earlier)
  simp [first, unlimited] at expired

theorem half_close_reads_what_precedes_fin_query :
    messagesOf (run unchecked (handshake ++ [clientQuery] ++ [serverFin])) queryKey false =
        messagesOf (run unchecked (handshake ++ [clientQuery])) queryKey false ∧
      messagesOf (run unchecked (handshake ++ serverFin :: [clientQuery])) queryKey false =
        messagesOf (run unchecked handshake) queryKey false := by
  obtain ⟨flow, active⟩ := Option.isSome_iff_exists.mp
    (show ((run unchecked handshake).flowTable.flows.lookup queryKey).isSome = true by
      decide +kernel)
  have open_ : ((run unchecked handshake).flowTable.flows.lookup queryKey).all (fun flow =>
      (flow.side false).seeded && (flow.side false).hasReadableData) = true := by
    decide +kernel
  simp only [active, Option.all_some, Bool.and_eq_true] at open_
  have fin : Carries unchecked queryKey true
      { srcPort := 53, dstPort := 5000, seqNumber := 300, dataOffsetReserved := 0x50, flags := 0x11 }
      serverFin :=
    ⟨by unfold Undecoded; decide +kernel, by decide +kernel, by decide +kernel,
      by decide +kernel, rfl⟩
  have query : Carries unchecked queryKey false
      { srcPort := 5000, dstPort := 53, seqNumber := 100, dataOffsetReserved := 0x50, flags := 0x18 }
      clientQuery :=
    ⟨by unfold Undecoded; decide +kernel, by decide +kernel, by decide +kernel,
      by decide +kernel, rfl⟩
  obtain ⟨later, sooner⟩ := (half_close_reads_what_precedes_fin unchecked handshake queryKey false
    flow (by decide +kernel) active).2.2 _ serverFin [clientQuery] open_.1 open_.2 fin
      (by decide) (by simpa [OnlySends] using Or.inr ⟨_, query⟩)
  exact ⟨later (never_restarts_at_zero _ (by decide)), sooner (never_restarts_at_zero _ (by decide))⟩

/-- The server closes its side before or after the client's query: the query is lost or read. -/
theorem query_after_fin_is_lost :
    messagesOf (run unchecked (handshake ++ serverFin :: [clientQuery])) queryKey false = ([], []) ∧
      (messagesOf (run unchecked (handshake ++ [clientQuery] ++ [serverFin])) queryKey
        false).2.length = 1 :=
  ⟨by decide +kernel, by decide +kernel⟩

end Decoder

end PcapAnalyzer
