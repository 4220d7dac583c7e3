import PcapAnalyzer.Decode.HalfClose
import PcapAnalyzer.Decode.Layers
import PcapAnalyzer.Decode.PollProgress
import PcapAnalyzer.Flow.OutOfOrder

/-!
# What a flow holds

The bytes that were read already are dropped once they are more than half of the buffer, and a
stream that keeps no payload holds none. Unread bytes can only pile up in a stream that takes
in data without being readable: behind a SYN with data, and in `CloseWait`.
-/

namespace PcapAnalyzer

open Pcap (Capture)
open SerialNumber (int32)

set_option autoImplicit false

namespace TcpReassembler

/-- What taking in a segment does to the buffer of the stream. -/
structure TakesIn (before after : TcpReassembler) : Prop where
  grows : before.assembled.length ≤ after.assembled.length
  readPos : after.readPos = before.readPos
  keepPayload : after.keepPayload = before.keepPayload
  unkept : before.keepPayload = false → after.assembled = before.assembled

theorem TakesIn.refl (stream : TcpReassembler) : TakesIn stream stream :=
  ⟨le_rfl, rfl, rfl, fun _ => rfl⟩

theorem TakesIn.trans {first second third : TcpReassembler} (left : TakesIn first second)
    (right : TakesIn second third) : TakesIn first third where
  grows := left.grows.trans right.grows
  readPos := right.readPos.trans left.readPos
  keepPayload := right.keepPayload.trans left.keepPayload
  unkept unkept := (right.unkept (left.keepPayload.trans unkept)).trans (left.unkept unkept)

theorem drain_from_grows (segments : List Segment) (stream : TcpReassembler) :
    stream.assembled.length ≤ (drainFrom segments stream).assembled.length := by
  induction segments generalizing stream with
  | nil => exact le_rfl
  | cons segment rest ih =>
      have drained (start : TcpReassembler)
          (grown : stream.assembled.length ≤ start.assembled.length) :
          stream.assembled.length ≤ (drainFrom rest start).assembled.length :=
        grown.trans (ih start)
      simp only [drainFrom]
      split_ifs
      · exact le_rfl
      · apply drained
        simp only [List.length_append]
        exact Nat.le_add_right _ _
      · apply drained
        exact le_rfl

theorem ingest_takes_in (stream : TcpReassembler) (seq : UInt32) (span : List UInt8) :
    TakesIn stream (stream.ingest seq span) := by
  have control := ingest_control stream seq span
  have appended (piece : List UInt8) (nextSeq : UInt32) : stream.assembled.length ≤
      (drain { stream with
        assembled := stream.assembled ++ piece, nextSeq := nextSeq }).assembled.length := by
    have grows := drain_from_grows stream.outOfOrder
      { stream with assembled := stream.assembled ++ piece, nextSeq := nextSeq }
    simp only [List.length_append] at grows
    exact (Nat.le_add_right _ _).trans grows
  refine ⟨?_, control.readPos, control.keepPayload, ?_⟩
  · unfold ingest
    by_cases unkept : (!stream.keepPayload) = true
    · rw [if_pos unkept]
      unfold ingestUnkept
      simp only
      split_ifs <;> exact le_rfl
    rw [if_neg unkept]
    simp only
    split_ifs
    · exact appended _ _
    · have buffers := buffer_ahead_buffers stream seq span
      generalize stream.bufferAhead seq span = buffered at buffers ⊢
      cases buffers <;> exact le_rfl
    · exact appended _ _
    · exact le_rfl
  · intro unkept
    unfold ingest ingestUnkept
    simp only [unkept, Bool.not_false, if_true]
    split_ifs <;> rfl

theorem on_data_takes_in (stream : TcpReassembler) (header : Tcp.Header) (span : List UInt8) :
    TakesIn stream (stream.onData header span) := by
  obtain ⟨grows, readPos, keepPayload, unkept⟩ := ingest_takes_in stream header.seqNumber span
  rw [on_data_eq]
  unfold marked finish
  simp only
  split_ifs <;> exact ⟨grows, readPos, keepPayload, unkept⟩

theorem on_sent_takes_in (stream : TcpReassembler) (header : Tcp.Header) (span : List UInt8) :
    TakesIn stream (stream.onSent header span) := by
  rcases on_sent_cases stream header span with
    ⟨-, closed⟩ | ⟨-, -, -, seeded⟩ | ⟨start, taken, sent⟩ | ⟨-, -, ignored⟩
  · rw [closed]
    exact ⟨le_rfl, rfl, rfl, fun _ => rfl⟩
  · rw [seeded]
    have start : TakesIn stream (stream.seed header) := ⟨le_rfl, rfl, rfl, fun _ => rfl⟩
    exact start.trans (ingest_takes_in _ _ _)
  · rw [sent]
    obtain ⟨-, -, -, frame⟩ := data_start_frame _ _ taken
    have started : TakesIn stream start := by
      rcases frame with ⟨same, -⟩ | ⟨same, -⟩ <;> rw [same] <;>
        exact ⟨le_rfl, rfl, rfl, fun _ => rfl⟩
    exact started.trans (on_data_takes_in _ _ _)
  · rw [ignored]
    exact .refl stream

theorem on_received_takes_in (stream : TcpReassembler) (header : Tcp.Header) :
    TakesIn stream (stream.onReceived header) := by
  obtain ⟨state, same⟩ := on_received_frame stream header
  rw [same]
  exact ⟨le_rfl, rfl, rfl, fun _ => rfl⟩

/-- What was read already takes no more room than what was not, but for a small rest. -/
def Compact (stream : TcpReassembler) : Prop :=
  stream.readPos ≤ minCompactBytes ∨ 2 * stream.readPos ≤ stream.assembled.length

/-- The buffers of a stream, whatever it was sent. -/
structure Frugal (stream : TcpReassembler) : Prop where
  counted : Counted stream
  compact : Compact stream
  unkept : stream.keepPayload = false → stream.assembled = []

theorem Frugal.takes_in {before after : TcpReassembler} (frugal : Frugal before)
    (counted : Counted after) (takesIn : TakesIn before after) : Frugal after := by
  have grows := takesIn.grows
  refine ⟨counted, ?_, ?_⟩
  · rw [Compact, takesIn.readPos]
    rcases frugal.compact with small | half
    · exact Or.inl small
    · exact Or.inr (half.trans grows)
  · intro unkept
    rw [takesIn.keepPayload] at unkept
    rw [takesIn.unkept unkept, frugal.unkept unkept]

theorem consume_nil {stream : TcpReassembler} (empty : stream.assembled = []) (count : Nat) :
    (stream.consume count).assembled = [] := by
  unfold consume
  simp only
  split_ifs
  · simp only [empty, List.drop_nil]
  · exact empty

theorem consume_frugal {stream : TcpReassembler} (frugal : Frugal stream) (count : Nat) :
    Frugal (stream.consume count) := by
  have counted : Counted (stream.consume count) := step_counted frugal.counted (.consume count)
  refine ⟨counted, ?_, ?_⟩
  · unfold consume Compact
    simp only
    split_ifs with drops
    · exact Or.inl (Nat.zero_le _)
    · simp only
      omega
  · intro unkept
    obtain ⟨assembled, readPos, same⟩ := consume_frame stream count
    have empty : stream.assembled = [] := by
      rw [same] at unkept
      exact frugal.unkept unkept
    exact consume_nil empty count

theorem Consumed.frugal {before after : TcpReassembler} (consumed : Consumed before after)
    (frugal : Frugal before) : Frugal after := by
  obtain ⟨counts, rfl⟩ := consumed
  induction counts generalizing before with
  | nil => exact frugal
  | cons count counts ih => exact ih (consume_frugal frugal count)

theorem Frugal.assembled_le {stream : TcpReassembler} (frugal : Frugal stream) :
    stream.assembled.length ≤ 2 * stream.available + minCompactBytes := by
  have compact := frugal.compact
  have readable := frugal.counted.readable
  unfold Compact at compact
  unfold available
  omega

theorem fresh_frugal (keepPayload : Bool) : Frugal (fresh keepPayload) :=
  ⟨run_counted keepPayload [], Or.inl (Nat.zero_le _), fun _ => rfl⟩

/-- A stream that has not seen a FIN of the other side, and what it holds unread. -/
structure Moderate (limit : Nat) (stream : TcpReassembler) : Prop where
  notClosing : stream.state ≠ .closeWait
  unread : stream.available ≤ limit
  unseeded : stream.seeded = false → stream.assembled = [] ∧ stream.outOfOrder = []

theorem fresh_moderate (limit : Nat) (keepPayload : Bool) : Moderate limit (fresh keepPayload) :=
  ⟨by decide +revert, Nat.zero_le _, fun _ => ⟨rfl, rfl⟩⟩

/-- A stream that waits for the data and holds nothing takes in no more than the data. -/
theorem ingest_next_length {stream : TcpReassembler} (empty : stream.assembled = [])
    (ordered : stream.outOfOrder = []) (span : List UInt8) :
    (stream.ingest stream.nextSeq span).assembled.length ≤ span.length := by
  unfold ingest ingestUnkept drain
  simp only [if_true, ordered, drainFrom, empty, List.nil_append]
  split_ifs
  · exact Nat.zero_le _
  · exact le_rfl

/-- Only a SYN can leave data behind that is not readable, outside of `CloseWait`. -/
theorem on_sent_moderate {limit : Nat} {stream : TcpReassembler} (moderate : Moderate limit stream)
    (header : Tcp.Header) {span : List UInt8} (short : span.length ≤ limit) :
    (stream.onSent header span).state ≠ .closeWait ∧
      ((stream.onSent header span).hasReadableData = false →
        (stream.onSent header span).available ≤ limit) ∧
      ((stream.onSent header span).seeded = false →
        (stream.onSent header span).assembled = [] ∧
          (stream.onSent header span).outOfOrder = []) := by
  refine ⟨on_sent_close_wait stream header span moderate.notClosing, ?_⟩
  rcases on_sent_cases stream header span with
    ⟨-, closed⟩ | ⟨-, unseeded, -, seeded⟩ | ⟨start, taken, sent⟩ | ⟨-, -, ignored⟩
  · rw [closed]
    exact ⟨fun _ => moderate.unread, moderate.unseeded⟩
  · obtain ⟨empty, ordered⟩ := moderate.unseeded unseeded
    have length := @ingest_next_length (stream.seed header) empty ordered span
    have control := ingest_control (stream.seed header) (header.seqNumber + 1) span
    rw [seeded]
    refine ⟨fun _ => ?_, fun still => ?_⟩
    · exact (Nat.sub_le _ _).trans (length.trans short)
    · rw [control.seeded] at still
      cases still
  · obtain ⟨-, started, states, -⟩ := data_start_frame _ _ taken
    have established : start.state = .established :=
      states.resolve_right fun closing => moderate.notClosing closing.2
    have readable := (on_data_readable start header span (Or.inl established)).mpr
      (by rw [established]; decide)
    rw [sent]
    refine ⟨fun unreadable => ?_, fun still => ?_⟩
    · rw [readable] at unreadable
      cases unreadable
    · rw [on_data_seeded, started] at still
      cases still
  · rw [ignored]
    exact ⟨fun _ => moderate.unread, moderate.unseeded⟩

theorem on_received_moderate {limit : Nat} {stream : TcpReassembler}
    (moderate : Moderate limit stream) {header : Tcp.Header} (noFin : header.fin = false) :
    Moderate limit (stream.onReceived header) := by
  have notClosing := on_received_close_wait stream header noFin moderate.notClosing
  obtain ⟨state, same⟩ := on_received_frame stream header
  rw [same] at notClosing ⊢
  exact ⟨notClosing, moderate.unread, moderate.unseeded⟩

/-- Consuming leaves at most what was unread. -/
theorem Consumed.bounded {before after : TcpReassembler} (consumed : Consumed before after) :
    after.available ≤ before.available ∧ after.seeded = before.seeded ∧
      (before.assembled = [] → after.assembled = []) := by
  obtain ⟨counts, rfl⟩ := consumed
  induction counts generalizing before with
  | nil => exact ⟨le_rfl, rfl, id⟩
  | cons count counts ih =>
      obtain ⟨less, seeded, nil⟩ := @ih (before.consume count)
      obtain ⟨assembled, readPos, same⟩ := consume_frame before count
      have available := consume_available before count
      refine ⟨less.trans ?_, seeded.trans ?_, fun empty => nil (consume_nil empty count)⟩
      · rw [available]
        exact Nat.sub_le _ _
      · rw [same]

end TcpReassembler

/-- What a stream on the port of a decoder holds unread after its poll. -/
def backlogLimit (key : FlowKey) : Nat := if key.isDns then 65536 else maxHttpMessageBytes

theorem FlowKey.http_of_app {key : FlowKey} (app : ¬ (key.isDns = false ∧ key.isHttp = false))
    (notDns : key.isDns = false) : key.isHttp = true := by
  by_contra plain
  exact app ⟨notDns, by simpa using plain⟩

section Polls

open TcpReassembler

variable {key : FlowKey} {poll : StreamPoll}

/-- A poll of a stream that is readable ends within the limit. -/
theorem poll_stream_backlog (app : ¬ (key.isDns = false ∧ key.isHttp = false))
    (readable : poll.stream.hasReadableData = true) :
    (pollStream key poll).stream.available ≤ backlogLimit key := by
  have polls : (!poll.stream.hasReadableData) = false := by rw [readable]; rfl
  unfold pollStream backlogLimit
  rw [if_neg (by rw [polls]; exact Bool.false_ne_true)]
  cases dns : key.isDns with
  | true =>
      exact MeasuredLoop.run_invariant dns_turn_decreasing (fun _ => True)
        (fun result => result.stream.available ≤ 65536) (fun _ _ _ _ => trivial)
        (fun _ _ _ leaves => dns_turn_backlog leaves) _ _ (Nat.lt_succ_self _) trivial
  | false =>
      have http := FlowKey.http_of_app app dns
      rw [http]
      exact MeasuredLoop.run_invariant http_turn_decreasing (fun _ => True)
        (fun result => result.stream.available ≤ maxHttpMessageBytes) (fun _ _ _ _ => trivial)
        (fun _ _ _ leaves => http_turn_backlog leaves) _ _ (Nat.lt_succ_self _) trivial

end Polls

section Pending

open AppDecoder (datagramMessage)

/-- The queue of requests that wait for a response is short. -/
def Applications.Short (applications : Applications) : Prop :=
  applications.pendingHeadRequests.length ≤ maxPendingRequests

def FlowApplications.Short (applications : FlowApplications) : Prop :=
  applications.fwd.Short ∧ applications.rev.Short

theorem FlowApplications.Short.self {applications : FlowApplications} (short : applications.Short)
    (isReverse : Bool) : (applications.self isReverse).Short := by
  cases isReverse with
  | true => exact short.2
  | false => exact short.1

theorem FlowApplications.short_sides {self peer : Applications} (selfShort : self.Short)
    (peerShort : peer.Short) (isReverse : Bool) :
    (FlowApplications.sides isReverse self peer).Short := by
  cases isReverse with
  | true => exact ⟨peerShort, selfShort⟩
  | false => exact ⟨selfShort, peerShort⟩

def HttpPoll.Short (poll : HttpPoll) : Prop := poll.applications.Short ∧ poll.peer.Short

/-- Over a pass the queues stay short. -/
def HttpPoll.StaysShort (before after : HttpPoll) : Prop := before.Short → after.Short

theorem HttpPoll.StaysShort.trans (first second third : HttpPoll) (left : first.StaysShort second)
    (right : second.StaysShort third) : first.StaysShort third := fun short => right (left short)

theorem pop_short (header : Http.Header) {peer : Applications} (short : peer.Short) :
    (popHeadRequest header peer).2.Short := by
  unfold popHeadRequest
  split_ifs
  · cases pending : peer.pendingHeadRequests with
    | nil => exact short
    | cons head rest =>
        unfold Applications.Short at short ⊢
        rw [pending, List.length_cons] at short
        exact Nat.le_of_succ_le short
  · exact short

theorem record_short (header : Http.Header) {applications : Applications}
    (short : applications.Short) : (recordHttp header applications).Short := by
  unfold recordHttp pushHeadRequest Applications.Short
  simp only
  split_ifs with room
  · simp only [Bool.and_eq_true, decide_eq_true_eq] at room
    simp only [List.length_append, List.length_singleton]
    exact room.2
  · exact short

/-- The framing of a body does not touch the queue. -/
theorem scan_pending (header : Http.Header) (headResponse : Bool) (applications : Applications)
    (span : List UInt8) :
    match scanBody header headResponse applications span with
    | .malformed => True
    | .incomplete after _ => after.pendingHeadRequests = applications.pendingHeadRequests
    | .complete after _ => after.pendingHeadRequests = applications.pendingHeadRequests := by
  unfold scanBody scanChunkedBody
  simp only
  split_ifs <;> trivial

theorem resync_short {poll : HttpPoll} (short : poll.Short) : (resyncHttp poll).state.Short := by
  unfold resyncHttp
  simp only
  split
  · exact short
  · split_ifs <;> exact short

theorem http_message_short (header : Http.Header) (span : List UInt8) {poll : HttpPoll}
    (short : poll.Short) : (httpMessage header span poll).state.Short := by
  have popped := pop_short header short.2
  unfold httpMessage
  generalize popHeadRequest header poll.peer = taken at popped
  obtain ⟨headResponse, peer⟩ := taken
  have pending := scan_pending header headResponse poll.applications span
  simp only at popped ⊢
  generalize scanBody header headResponse poll.applications span = scan at pending
  cases scan with
  | malformed => exact resync_short ⟨short.1, popped⟩
  | incomplete applications rest =>
      have own : applications.Short := by
        rw [Applications.Short, pending]
        exact short.1
      simp only
      split_ifs
      · unfold oversizedBody
        split_ifs
        · exact ⟨record_short header own, popped⟩
        · exact resync_short ⟨own, popped⟩
      · exact ⟨own, popped⟩
  | complete applications rest =>
      have own : applications.Short := by
        rw [Applications.Short, pending]
        exact short.1
      exact ⟨record_short header own, popped⟩

theorem http_turn_short (poll : HttpPoll) : poll.StaysShort (httpTurn poll).state := by
  intro short
  unfold httpTurn
  by_cases skipping : poll.applications.httpSkip > 0
  · rw [if_pos skipping]
    unfold skipBody
    simp only
    split_ifs <;> exact short
  rw [if_neg skipping]
  by_cases untilClose : poll.applications.httpBodyUntilClose = true
  · rw [if_pos untilClose]
    exact short
  rw [if_neg untilClose]
  split
  · split
    · exact resync_short short
    · exact short
  · exact resync_short short
  · exact http_message_short _ _ short

theorem http_loop_short (poll : HttpPoll) : poll.StaysShort (httpLoop poll) :=
  MeasuredLoop.run_composes (fun _ short => short) HttpPoll.StaysShort.trans http_turn_short _ poll

def DnsPoll.StaysShort (before after : DnsPoll) : Prop :=
  before.applications.Short → after.applications.Short

theorem DnsPoll.StaysShort.trans (first second third : DnsPoll) (left : first.StaysShort second)
    (right : second.StaysShort third) : first.StaysShort third := fun short => right (left short)

theorem dns_turn_short (poll : DnsPoll) : poll.StaysShort (dnsTurn poll).state := by
  intro short
  unfold dnsTurn
  simp only
  split_ifs
  · exact short
  · exact short
  · split <;> exact short

theorem dns_loop_short (poll : DnsPoll) : poll.StaysShort (dnsLoop poll) :=
  MeasuredLoop.run_composes (fun _ short => short) DnsPoll.StaysShort.trans dns_turn_short _ poll

/-- A poll of a stream keeps both queues short. -/
theorem poll_stream_short (key : FlowKey) {poll : StreamPoll} (own : poll.applications.Short)
    (peer : poll.peer.Short) :
    (pollStream key poll).applications.Short ∧ (pollStream key poll).peer.Short := by
  have dns := dns_loop_short
    { stream := poll.stream, applications := poll.applications, dnsTable := poll.dnsTable }
  have http := http_loop_short
    { stream := poll.stream, applications := poll.applications, peer := poll.peer }
  unfold pollStream
  split_ifs
  · exact ⟨own, peer⟩
  · exact ⟨dns own, peer⟩
  · exact http ⟨own, peer⟩
  · exact ⟨own, peer⟩

theorem datagram_short (payload : List UInt8) {applications : Applications}
    (short : applications.Short) (dnsTable : DnsTable) :
    (datagramMessage payload applications dnsTable).1.Short := by
  unfold datagramMessage
  split <;> exact short

end Pending

section Payload

theorem datagram_span_short {span : List UInt8} {out : Packet} {verify : Bool}
    {parsed : Parsed Packet} (reads : ReadsDatagram span out verify parsed)
    (ip : parsed.header.isArp = false) : parsed.span.length ≤ 65535 := by
  have v6 {rest : List UInt8} {before after : Packet} {nextHeader last : UInt8} {fragment : Bool}
      (walked : extLoop (Ip.V6.Ext.maxHeaders + 1) (Ip.V6.payloadOf span) before nextHeader =
        (.none, rest, after, last, fragment)) : rest.length ≤ 65535 := by
    have length := (Ip.V6.headerOf span).payloadLength.toNat_lt
    obtain ⟨-, taken, dropped, -⟩ := (ext_loop_walks walked).keeps
    rw [dropped, List.length_drop, Ip.V6.payloadOf, List.length_take]
    omega
  cases reads with
  | v4 announced accepts =>
      have length := (Ip.V4.headerOf span).totalLength.toNat_lt
      simp only [Ip.V4.payloadOf, slice_length]
      omega
  | v6 announced accepts walked => exact v6 walked
  | fragment announced accepts walked => exact v6 walked
  | arp announced accepts => cases ip

theorem segment_span_shorter {span : List UInt8} {out : Packet} {verify : Bool}
    {parsed : Parsed Packet} (reads : ReadsSegment span out verify parsed) :
    parsed.span.length ≤ span.length := by
  have dropped (count : Nat) : (span.drop count).length ≤ span.length := by
    rw [List.length_drop]
    exact Nat.sub_le _ _
  have cut : (Udp.payloadOf span).length ≤ span.length := by
    rw [Udp.payloadOf, slice_length]
    omega
  cases reads with
  | tcpV4 network announced accepts => exact dropped _
  | udpV4 network announced accepts => exact cut
  | icmp network announced accepts => exact dropped _
  | tcpV6 network announced accepts => exact dropped _
  | udpV6 network announced accepts => exact cut
  | icmpv6 network announced accepts => exact dropped _

/-- The length fields bound the payload of a packet that decodes. -/
theorem payload_short {span : List UInt8} {out : Packet} {verify : Bool}
    (passed : (decodePacket span out verify).err = .none)
    (notArp : (decodePacket span out verify).header.isArp = false) :
    (decodePacket span out verify).header.payload.length ≤ 65535 := by
  have reads := decode_packet_reads passed
  generalize decodePacket span out verify = parsed at reads notArp ⊢
  cases reads with
  | arp link network arp =>
      rw [arp] at notArp
      cases notArp
  | ip link network ip transport =>
      exact (segment_span_shorter transport).trans (datagram_span_short network ip)

end Payload

namespace Decoder

open AppDecoder

section Rule

variable {config : Config} {decoder : Decoder} {key : FlowKey} {input : Input}

/-- What holds of every flow of a key, active or retired, and of its application state. -/
structure Keeps (good : Flow → Prop) (state : FlowApplications → Prop) (key : FlowKey)
    (decoder : Decoder) : Prop where
  closed : ∀ flow ∈ (decoder.flowTable.toBook.view key).closed, good flow
  opened : ∀ flow, (decoder.flowTable.toBook.view key).opened = some flow → good flow
  node : state (decoder.appDecoder.node key)

theorem Keeps.flows {good : Flow → Prop} {state : FlowApplications → Prop}
    (keeps : Keeps good state key decoder) :
    ∀ flow ∈ decoder.flowTable.flowsOf key, good flow := by
  intro flow member
  rcases List.mem_append.mp member with retired | active
  · exact keeps.closed flow retired
  · exact keeps.opened flow (Option.mem_toList.mp active)

/-- What a packet of a flow has to keep. -/
structure Rule (config : Config) (key : FlowKey) (input : Input) (good : Flow → Prop)
    (state : FlowApplications → Prop) : Prop where
  fresh : ∀ tsUs, good (FlowTable.newFlow key tsUs)
  counted : ∀ flow, good flow → good (FlowTable.countPacket flow
    (FlowTable.direction (decodedCapture config input)) (decodedCapture config input))
  polled : ¬ Undecoded config input → packetKey config input = some key →
    filtered config.filter (decodedCapture config input).pkt = false →
    (decodedCapture config input).pkt.isArp = false →
    ∀ isNew poll, Owned key poll.flow →
      poll.flow.isReverse = FlowTable.direction (decodedCapture config input) →
      good poll.flow → state (poll.decoder.node key) →
      good (pollPacket (decodedCapture config input).pkt key isNew poll).flow ∧
        state ((pollPacket (decodedCapture config input).pkt key isNew poll).decoder.node key)

theorem count_packet_reverse (flow : Flow) (isReverse : Bool) (capture : Capture) :
    (FlowTable.countPacket flow isReverse capture).isReverse = isReverse := by
  cases isReverse <;> rfl

theorem step_keeps {good : Flow → Prop} {state : FlowApplications → Prop}
    (rule : Rule config key input good state) (sound : Sound config decoder)
    (keeps : Keeps good state key decoder) : Keeps good state key (step decoder input) := by
  have same {after : Decoder} (unchanged : view key after = view key decoder) :
      Keeps good state key after := by
    have book : after.flowTable.toBook.view key = decoder.flowTable.toBook.view key :=
      congrArg Prod.fst unchanged
    refine ⟨by rw [book]; exact keeps.closed, by rw [book]; exact keeps.opened, ?_⟩
    rw [(view_same_parts unchanged).2]
    exact keeps.node
  by_cases own : packetKey config input = some key
  swap
  · exact same (step_foreign sound own)
  by_cases undecoded : Undecoded config input
  · rw [step_undecoded sound undecoded]
    exact keeps
  rw [step_decoded sound undecoded]
  rcases decode_capture_cases decoder (decodedCapture config input) with ignores |
    ⟨other, added, table, accepts⟩
  · exact same (ignores.view key)
  obtain rfl : other = key :=
    Option.some.inj ((packet_key_accepts undecoded accepts).symm.trans own)
  obtain ⟨counted, polls⟩ := accepts.polls sound
  obtain ⟨flow, recorded, held⟩ := polls.counts
  have before : good flow := by
    rcases held with active | rfl
    · exact keeps.opened flow active
    · exact rule.fresh _
  have passes : filtered config.filter (decodedCapture config input).pkt = false :=
    sound.sameConfig ▸ accepts.passes
  have polled := rule.polled undecoded own passes accepts.posts.notArp added.isNew
    { decoder := decoder.appDecoder, flow := counted, dnsTable := decoder.dnsTable } polls.owned
    (by rw [recorded, count_packet_reverse]) (by rw [recorded]; exact rule.counted flow before)
    keeps.node
  have seen := accepts.view_same polls
  have book : (decoder.decodeCapture (decodedCapture config input)).2.flowTable.toBook.view other =
      { closed := (table.toBook.view other).closed
        opened := some (acceptedPoll decoder (decodedCapture config input) other added.isNew
          counted).flow } := congrArg Prod.fst seen
  constructor
  · intro retired member
    rw [book, polls.book, Ledger.Rules.postView] at member
    split_ifs at member with opens
    · rcases List.mem_append.mp member with earlier | expired
      · exact keeps.closed retired earlier
      · exact keeps.opened retired (Option.mem_toList.mp expired)
    · exact keeps.closed retired member
  · intro active found
    rw [book, Option.some.injEq] at found
    rw [← found]
    exact polled.1
  · rw [(accepts.accepted polls).appDecoder]
    exact polled.2

/-- What every packet keeps holds of all flows in every state of a run. -/
theorem run_keeps {good : Flow → Prop} {state : FlowApplications → Prop} (start : state {})
    (inputs : List Input) (rules : ∀ input ∈ inputs, Rule config key input good state) :
    Keeps good state key (run config inputs) := by
  induction inputs using List.reverseRecOn with
  | nil =>
      refine ⟨fun flow member => ?_, fun flow found => ?_, start⟩
      · cases member
      · cases found
  | append_singleton inputs input ih =>
      rw [run_append_one]
      exact step_keeps (rules input (by simp)) (run_sound config inputs)
        (ih fun other member => rules other (by simp [member]))

end Rule

section Sides

variable {config : Config} {key : FlowKey} {input : Input}

/-- A poll only consumes from the sides of the reassembled flow. -/
theorem poll_packet_consumed (pkt : Packet) (key : FlowKey) (isNew : Bool) (poll : FlowPoll)
    (owned : Owned key poll.flow) (isReverse : Bool) :
    TcpReassembler.Consumed ((reassembled pkt poll.flow).side isReverse)
      ((pollPacket pkt key isNew poll).flow.side isReverse) := by
  cases transport : pkt.transport with
  | tcp tcp =>
      simp only [pollPacket, reassembled, transport]
      have sent : Owned key (reassemble poll.flow tcp pkt.payload) := by
        simpa only [Owned, reassemble_app_state] using owned
      exact poll_flow_consumed key { poll with flow := reassemble poll.flow tcp pkt.payload }
        isNew sent isReverse
  | udp udp =>
      simp only [pollPacket, reassembled, transport]
      by_cases plain : pkt.payload = [] ∨ key.isDns = false
      · rw [poll_datagram_plain isNew plain]
        exact .refl _
      · simp only [not_or, Bool.not_eq_false] at plain
        rw [poll_datagram_app isNew plain.1 plain.2 owned]
        exact .refl _
  | monostate | icmp _ | icmpv6 _ =>
      simp only [pollPacket, reassembled, transport]
      exact .refl _

/-- A poll keeps the queues of the node short. -/
theorem poll_packet_short (pkt : Packet) (isNew : Bool) {poll : FlowPoll}
    (owned : Owned key poll.flow) (short : (poll.decoder.node key).Short) :
    ((pollPacket pkt key isNew poll).decoder.node key).Short := by
  have start : (poll.decoder.startNode key isNew).Short := by
    unfold startNode
    split_ifs
    · exact ⟨Nat.zero_le _, Nat.zero_le _⟩
    · exact short
  cases transport : pkt.transport with
  | tcp tcp =>
      simp only [pollPacket, transport]
      have sent : Owned key (reassemble poll.flow tcp pkt.payload) := by
        simpa only [Owned, reassemble_app_state] using owned
      by_cases plain : key.isDns = false ∧ key.isHttp = false
      · rw [poll_flow_plain isNew plain]
        exact short
      · have polled := @poll_stream_short key (streamPoll key
          { poll with flow := reassemble poll.flow tcp pkt.payload } isNew)
          (start.self _) (start.self _)
        rw [poll_flow_app isNew plain sent, set_node_node]
        exact FlowApplications.short_sides polled.1 polled.2 _
  | udp udp =>
      simp only [pollPacket, transport]
      by_cases plain : pkt.payload = [] ∨ key.isDns = false
      · rw [poll_datagram_plain isNew plain]
        exact short
      · simp only [not_or, Bool.not_eq_false] at plain
        rw [poll_datagram_app isNew plain.1 plain.2 owned, set_node_node]
        exact FlowApplications.short_sides (datagram_short _ (start.self _) _) (start.self _) _
  | monostate | icmp _ | icmpv6 _ =>
      simp only [pollPacket, transport]
      exact short

/-- The buffers of a flow, and whether it keeps payload. -/
def Sparing (key : FlowKey) (flow : Flow) : Prop :=
  ∀ isReverse, (flow.side isReverse).Frugal ∧
    (flow.side isReverse).keepPayload = FlowTable.portHasAppDecoder key

theorem new_flow_fresh (key : FlowKey) (tsUs : UInt64) (isReverse : Bool) :
    (FlowTable.newFlow key tsUs).side isReverse =
      TcpReassembler.fresh (FlowTable.portHasAppDecoder key) := by
  unfold FlowTable.newFlow Flow.side
  cases kept : FlowTable.portHasAppDecoder key <;> cases isReverse <;> rfl

theorem reassembled_sparing (pkt : Packet) {flow : Flow} (sparing : Sparing key flow) :
    Sparing key (reassembled pkt flow) := by
  cases transport : pkt.transport with
  | tcp tcp =>
      have sides := reassemble_side flow tcp pkt.payload
      simp only [reassembled, transport]
      intro isReverse
      by_cases sends : isReverse = flow.isReverse
      · obtain ⟨frugal, kept⟩ := sparing flow.isReverse
        have takesIn := TcpReassembler.on_sent_takes_in (flow.side flow.isReverse) tcp pkt.payload
        rw [sends, sides.1]
        have counted := TcpReassembler.step_counted frugal.counted (.sent tcp pkt.payload)
        exact ⟨frugal.takes_in counted takesIn, takesIn.keepPayload.trans kept⟩
      · obtain rfl : isReverse = !flow.isReverse := by
          cases isReverse <;> simp_all
        obtain ⟨frugal, kept⟩ := sparing (!flow.isReverse)
        have takesIn := TcpReassembler.on_received_takes_in (flow.side (!flow.isReverse)) tcp
        rw [sides.2]
        exact ⟨frugal.takes_in (TcpReassembler.step_counted frugal.counted (.received tcp))
          takesIn, takesIn.keepPayload.trans kept⟩
  | udp udp => simpa only [reassembled, transport] using sparing
  | monostate | icmp _ | icmpv6 _ => simpa only [reassembled, transport] using sparing

theorem sparing_rule (config : Config) (key : FlowKey) (input : Input) :
    Rule config key input (Sparing key) FlowApplications.Short := by
  constructor
  · intro tsUs isReverse
    rw [new_flow_fresh]
    exact ⟨TcpReassembler.fresh_frugal _, rfl⟩
  · intro flow sparing isReverse
    rw [count_packet_side]
    exact sparing isReverse
  · intro _ _ _ _ isNew poll owned _ sparing short
    refine ⟨fun isReverse => ?_, poll_packet_short _ isNew owned short⟩
    obtain ⟨frugal, kept⟩ :=
      reassembled_sparing (decodedCapture config input).pkt sparing isReverse
    have consumed := poll_packet_consumed (decodedCapture config input).pkt key isNew poll owned
      isReverse
    exact ⟨consumed.frugal frugal, consumed.same.keepPayload.trans kept⟩

/-- A segment that leaves its side readable is followed by a poll of that side. -/
theorem poll_packet_backlog {pkt : Packet} {header : Tcp.Header} (isNew : Bool) {poll : FlowPoll}
    (transport : pkt.transport = .tcp header) (app : ¬ (key.isDns = false ∧ key.isHttp = false))
    (owned : Owned key poll.flow)
    (readable : ((poll.flow.side poll.flow.isReverse).onSent header
      pkt.payload).hasReadableData = true) :
    ((pollPacket pkt key isNew poll).flow.side poll.flow.isReverse).available ≤
      backlogLimit key := by
  have sides := reassemble_side poll.flow header pkt.payload
  have turned : (reassemble poll.flow header pkt.payload).isReverse = poll.flow.isReverse := by
    unfold reassemble
    split_ifs <;> rfl
  have sent : Owned key (reassemble poll.flow header pkt.payload) := by
    simpa only [Owned, reassemble_app_state] using owned
  simp only [pollPacket, transport]
  generalize reassemble poll.flow header pkt.payload = flow at *
  have stream : (streamPoll key { poll with flow := flow } isNew).stream =
      (poll.flow.side poll.flow.isReverse).onSent header pkt.payload :=
    (congrArg flow.side turned).trans sides.1
  have polled := @poll_stream_backlog key (streamPoll key { poll with flow := flow } isNew) app
    (by rw [stream]; exact readable)
  have moved := (set_stream_side flow
    (pollStream key (streamPoll key { poll with flow := flow } isNew)).stream).1
  have asked : pollFlow key { poll with flow := flow } isNew = _ := poll_flow_app isNew app sent
  rw [turned] at moved
  rw [asked]
  exact (congrArg TcpReassembler.available moved).le.trans polled

theorem moderate_rule {isReverse : Bool} (app : ¬ (key.isDns = false ∧ key.isHttp = false))
    (noFin : NoFin config key (!isReverse) input) :
    Rule config key input
      (fun flow => (flow.side isReverse).Moderate (backlogLimit key)) (fun _ => True) := by
  have limit : 65535 ≤ backlogLimit key := by
    unfold backlogLimit maxHttpMessageBytes
    split_ifs <;> decide
  constructor
  · intro tsUs
    rw [new_flow_fresh]
    exact TcpReassembler.fresh_moderate _ _
  · intro flow moderate
    rw [count_packet_side]
    exact moderate
  · intro decodes own passes notArp isNew poll owned turned moderate _
    have consumed := poll_packet_consumed (decodedCapture config input).pkt key isNew poll owned
      isReverse
    obtain ⟨less, seeded, nil⟩ := consumed.bounded
    have control := consumed.same
    -- only the backlog is left to show once the segment has been sent or received
    have settled (before : ((reassembled (decodedCapture config input).pkt poll.flow).side
        isReverse).state ≠ .closeWait)
        (unseeded : ((reassembled (decodedCapture config input).pkt poll.flow).side
          isReverse).seeded = false →
            ((reassembled (decodedCapture config input).pkt poll.flow).side
              isReverse).assembled = [] ∧
            ((reassembled (decodedCapture config input).pkt poll.flow).side
              isReverse).outOfOrder = [])
        (unread : ((pollPacket (decodedCapture config input).pkt key isNew poll).flow.side
          isReverse).available ≤ backlogLimit key) :
        ((pollPacket (decodedCapture config input).pkt key isNew poll).flow.side
          isReverse).Moderate (backlogLimit key) := by
      refine ⟨by rw [control.state]; exact before, unread, fun still => ?_⟩
      rw [seeded] at still
      exact ⟨nil (unseeded still).1, control.outOfOrder.trans (unseeded still).2⟩
    refine ⟨?_, trivial⟩
    cases transport : (decodedCapture config input).pkt.transport with
    | tcp tcp =>
        have sides := reassemble_side poll.flow tcp (decodedCapture config input).pkt.payload
        simp only [reassembled, transport] at settled less
        by_cases sends : isReverse = poll.flow.isReverse
        · have short : (decodedCapture config input).pkt.payload.length ≤ backlogLimit key :=
            (payload_short (not_not.mp decodes) notArp).trans limit
          obtain ⟨notClosing, unread, unseeded⟩ :=
            TcpReassembler.on_sent_moderate moderate tcp short
          rw [sends, sides.1] at settled less
          rw [sends] at notClosing unread unseeded ⊢
          apply settled notClosing unseeded
          cases readable : ((poll.flow.side poll.flow.isReverse).onSent tcp
              (decodedCapture config input).pkt.payload).hasReadableData with
          | true => exact poll_packet_backlog isNew transport app owned readable
          | false => exact less.trans (unread readable)
        · obtain rfl : isReverse = !poll.flow.isReverse := by
            cases isReverse <;> simp_all
          have carries : Carries config key (!!poll.flow.isReverse) tcp input :=
            ⟨decodes, passes, own, by rw [Bool.not_not, turned], transport⟩
          have received := TcpReassembler.on_received_moderate moderate (noFin tcp carries)
          rw [sides.2] at settled less
          exact settled received.notClosing received.unseeded (less.trans received.unread)
    | udp udp =>
        simp only [reassembled, transport] at settled less
        exact settled moderate.notClosing moderate.unseeded (less.trans moderate.unread)
    | monostate | icmp _ | icmpv6 _ =>
        simp only [reassembled, transport] at settled less
        exact settled moderate.notClosing moderate.unseeded (less.trans moderate.unread)

end Sides

/-- In every state of every run the flows of a key, active or retired, hold no more than this in
each direction. What was read takes at most as much room as what was not, and what was not read
is bounded until a FIN of the other side arrives. -/
theorem flow_memory_bounded (config : Config) (inputs : List Input) (key : FlowKey)
    (isReverse : Bool) (flow : Flow) (held : flow ∈ (run config inputs).flowTable.flowsOf key) :
    (flow.side isReverse).oooBytes =
        ((flow.side isReverse).outOfOrder.map fun segment => segment.data.length).sum ∧
    (flow.side isReverse).oooBytes ≤ TcpReassembler.maxOooBytes ∧
    (flow.side isReverse).assembled.length ≤
        2 * (flow.side isReverse).available + TcpReassembler.minCompactBytes ∧
    (FlowTable.portHasAppDecoder key = false →
      (flow.side isReverse).assembled = [] ∧ (flow.side isReverse).outOfOrder = []) ∧
    (((run config inputs).appDecoder.node key).self isReverse).pendingHeadRequests.length ≤
        maxPendingRequests ∧
    ((key.isDns || key.isHttp) = true →
      (∀ input ∈ inputs, NoFin config key (!isReverse) input) →
      (flow.side isReverse).available ≤ backlogLimit key) := by
  have keeps : Keeps (Sparing key) FlowApplications.Short key (run config inputs) :=
    run_keeps ⟨Nat.zero_le _, Nat.zero_le _⟩ inputs fun input _ => sparing_rule config key input
  obtain ⟨frugal, kept⟩ := keeps.flows flow held isReverse
  refine ⟨frugal.counted.bytes, frugal.counted.cap, frugal.assembled_le, fun plain => ?_,
    keeps.node.self isReverse, fun app noFin => ?_⟩
  · have unkept : (flow.side isReverse).keepPayload = false := kept.trans plain
    exact ⟨frugal.unkept unkept, frugal.counted.kept unkept⟩
  · have ports : ¬ (key.isDns = false ∧ key.isHttp = false) := by
      intro plain
      simp [plain.1, plain.2] at app
    have moderate := run_keeps trivial inputs fun input member =>
      moderate_rule ports (noFin input member)
    exact (moderate.flows flow held).unread

theorem no_fin_of_transport {config : Config} {key : FlowKey} {isReverse : Bool} {input : Input}
    {header : Tcp.Header} (transport : (decodedCapture config input).pkt.transport = .tcp header)
    (noFin : header.fin = false) : NoFin config key isReverse input := by
  intro other carries
  have same : TransportHeader.tcp other = .tcp header := carries.transport.symm.trans transport
  injection same with same
  exact same ▸ noFin

theorem flow_memory_bounded_query :
    ∃ flow ∈ (run unchecked (handshake ++ [clientQuery])).flowTable.flowsOf queryKey,
      (flow.side false).available ≤ backlogLimit queryKey := by
  have opened : ((run unchecked (handshake ++ [clientQuery])).flowTable.flowsOf
      queryKey).head?.isSome = true := by decide +kernel
  obtain ⟨flow, first⟩ := Option.isSome_iff_exists.mp opened
  have held := List.mem_of_head? first
  obtain ⟨-, -, -, -, -, unread⟩ :=
    flow_memory_bounded unchecked (handshake ++ [clientQuery]) queryKey false flow held
  refine ⟨flow, held, unread (by decide +kernel) fun input member => ?_⟩
  simp only [handshake, List.cons_append, List.nil_append, List.mem_cons, List.not_mem_nil,
    or_false] at member
  rcases member with rfl | rfl | rfl | rfl
  · have transport : (decodedCapture unchecked (segmentAt false 99 0x02 [])).pkt.transport = .tcp
        { srcPort := 5000, dstPort := 53, seqNumber := 99, dataOffsetReserved := 0x50,
          flags := 0x02 } := rfl
    exact no_fin_of_transport transport rfl
  · have transport : (decodedCapture unchecked (segmentAt true 299 0x12 [])).pkt.transport = .tcp
        { srcPort := 53, dstPort := 5000, seqNumber := 299, dataOffsetReserved := 0x50,
          flags := 0x12 } := rfl
    exact no_fin_of_transport transport rfl
  · have transport : (decodedCapture unchecked (segmentAt false 100 0x10 [])).pkt.transport = .tcp
        { srcPort := 5000, dstPort := 53, seqNumber := 100, dataOffsetReserved := 0x50,
          flags := 0x10 } := rfl
    exact no_fin_of_transport transport rfl
  · have transport : (decodedCapture unchecked clientQuery).pkt.transport = .tcp
        { srcPort := 5000, dstPort := 53, seqNumber := 100, dataOffsetReserved := 0x50,
          flags := 0x18 } := rfl
    exact no_fin_of_transport transport rfl

end Decoder

end PcapAnalyzer
