import Mathlib.Algebra.BigOperators.Group.List.Basic
import Mathlib.Data.List.Induction
import PcapAnalyzer.Cli.Summary
import PcapAnalyzer.Decode.Isolation

/-!
# What is recorded and what is reported

The summary asks for the application state of every flow, but that state is stored by
key. As long as no packet starts a second flow on a key that a decoder reads, every
message is reported exactly once; a second flow on such a key is reported with the
first one's messages, or after they are lost.
-/

namespace PcapAnalyzer

open Cli (Totals printSummary)
open Pcap (Capture)

set_option autoImplicit false

namespace Cli.Totals

instance : Zero Totals := ⟨{}⟩

instance : Add Totals := ⟨add⟩

theorem add_eq (left right : Totals) : left + right =
    { httpMessages := left.httpMessages + right.httpMessages
      dnsMessages := left.dnsMessages + right.dnsMessages
      decodeFailures := left.decodeFailures + right.decodeFailures
      httpBodiesSkipped := left.httpBodiesSkipped + right.httpBodiesSkipped } := rfl

theorem zero_eq : (0 : Totals) = {} := rfl

instance : AddCommMonoid Totals where
  add_assoc first second third := by simp only [add_eq, Nat.add_assoc]
  zero_add totals := by simp only [add_eq, zero_eq, Nat.zero_add]
  add_zero totals := by simp only [add_eq, zero_eq, Nat.add_zero]
  add_comm left right := by simp only [add_eq, Nat.add_comm]
  nsmul := nsmulRec

/-- What was recorded between two states of a direction. -/
def since (before after : Applications) : Totals :=
  { httpMessages := after.httpMessages.length - before.httpMessages.length
    dnsMessages := after.dnsMessages.length - before.dnsMessages.length
    decodeFailures := after.decodeFailures - before.decodeFailures
    httpBodiesSkipped := after.httpBodiesSkipped - before.httpBodiesSkipped }

end Cli.Totals

/-- Messages and failures are only ever added. -/
structure Applications.Grows (before after : Applications) : Prop where
  httpMessages : before.httpMessages <+: after.httpMessages
  dnsMessages : before.dnsMessages <+: after.dnsMessages
  decodeFailures : before.decodeFailures ≤ after.decodeFailures
  httpBodiesSkipped : before.httpBodiesSkipped ≤ after.httpBodiesSkipped

/-- Nothing that is counted changed. -/
structure Applications.SameCounts (before after : Applications) : Prop where
  httpMessages : after.httpMessages = before.httpMessages
  dnsMessages : after.dnsMessages = before.dnsMessages
  decodeFailures : after.decodeFailures = before.decodeFailures
  httpBodiesSkipped : after.httpBodiesSkipped = before.httpBodiesSkipped

namespace Applications

theorem Grows.refl (applications : Applications) : Grows applications applications :=
  ⟨List.prefix_rfl, List.prefix_rfl, le_rfl, le_rfl⟩

theorem Grows.trans {first second third : Applications} (left : Grows first second)
    (right : Grows second third) : Grows first third :=
  ⟨left.httpMessages.trans right.httpMessages, left.dnsMessages.trans right.dnsMessages,
    left.decodeFailures.trans right.decodeFailures,
    left.httpBodiesSkipped.trans right.httpBodiesSkipped⟩

theorem SameCounts.grows {before after : Applications} (same : SameCounts before after) :
    Grows before after :=
  ⟨same.httpMessages ▸ List.prefix_rfl, same.dnsMessages ▸ List.prefix_rfl,
    same.decodeFailures.ge, same.httpBodiesSkipped.ge⟩

theorem SameCounts.refl (applications : Applications) : SameCounts applications applications :=
  ⟨rfl, rfl, rfl, rfl⟩

theorem SameCounts.trans {first second third : Applications} (left : SameCounts first second)
    (right : SameCounts second third) : SameCounts first third :=
  ⟨right.httpMessages.trans left.httpMessages, right.dnsMessages.trans left.dnsMessages,
    right.decodeFailures.trans left.decodeFailures,
    right.httpBodiesSkipped.trans left.httpBodiesSkipped⟩

theorem SameCounts.totals {before after : Applications} (same : SameCounts before after) :
    Totals.of after = Totals.of before := by
  simp only [Totals.of, same.httpMessages, same.dnsMessages, same.decodeFailures,
    same.httpBodiesSkipped]

/-- What was there and what was recorded since is what is there. -/
theorem Grows.totals {before after : Applications} (grows : Grows before after) :
    Totals.of after = Totals.of before + Totals.since before after := by
  have http := grows.httpMessages.length_le
  have dns := grows.dnsMessages.length_le
  have failures := grows.decodeFailures
  have skipped := grows.httpBodiesSkipped
  simp only [Totals.of, Totals.since, Totals.add_eq, Totals.mk.injEq]
  omega

end Applications

section Growth

open Applications

/-- What a pass of the HTTP loop does to the counts of both directions. -/
def HttpPoll.Grows (before after : HttpPoll) : Prop :=
  before.applications.Grows after.applications ∧ before.peer.SameCounts after.peer

theorem HttpPoll.Grows.refl (poll : HttpPoll) : poll.Grows poll :=
  ⟨.refl poll.applications, .refl poll.peer⟩

theorem HttpPoll.Grows.trans (first second third : HttpPoll) (left : first.Grows second)
    (right : second.Grows third) : first.Grows third :=
  ⟨left.1.trans right.1, left.2.trans right.2⟩

theorem resync_http_grows (poll : HttpPoll) : poll.Grows (resyncHttp poll).state := by
  unfold resyncHttp
  simp only
  split
  · exact ⟨⟨List.prefix_rfl, List.prefix_rfl, Nat.le_succ _, le_rfl⟩, .refl poll.peer⟩
  · split_ifs
    · exact ⟨⟨List.prefix_rfl, List.prefix_rfl, Nat.le_succ _, le_rfl⟩, .refl poll.peer⟩
    · exact ⟨⟨List.prefix_rfl, List.prefix_rfl, le_rfl, le_rfl⟩, .refl poll.peer⟩
    · exact ⟨⟨List.prefix_rfl, List.prefix_rfl, le_rfl, le_rfl⟩, .refl poll.peer⟩

theorem pop_head_request_counts (header : Http.Header) (peer : Applications) :
    peer.SameCounts (popHeadRequest header peer).2 := by
  unfold popHeadRequest
  split_ifs
  · split <;> exact ⟨rfl, rfl, rfl, rfl⟩
  · exact .refl peer

theorem push_head_request_counts (header : Http.Header) (applications : Applications) :
    applications.SameCounts (pushHeadRequest header applications) := by
  unfold pushHeadRequest
  split_ifs <;> exact ⟨rfl, rfl, rfl, rfl⟩

theorem record_http_grows (header : Http.Header) (applications : Applications) :
    applications.Grows (recordHttp header applications) := by
  have pushed := push_head_request_counts header applications
  exact ⟨pushed.httpMessages ▸ List.prefix_append _ _, pushed.dnsMessages ▸ List.prefix_rfl,
    pushed.decodeFailures.ge, pushed.httpBodiesSkipped.ge⟩

/-- Scanning a body never touches what is counted. -/
def BodyScan.Counts (before : Applications) : BodyScan → Prop
  | .malformed => True
  | .incomplete applications _ => before.SameCounts applications
  | .complete applications _ => before.SameCounts applications

theorem scan_body_counts (header : Http.Header) (headResponse : Bool)
    (applications : Applications) (span : List UInt8) :
    (scanBody header headResponse applications span).Counts applications := by
  unfold scanBody scanChunkedBody
  simp only
  split_ifs <;> first | trivial | exact ⟨rfl, rfl, rfl, rfl⟩

theorem oversized_body_grows (header : Http.Header) (span : List UInt8) (poll : HttpPoll) :
    poll.Grows (oversizedBody header span poll).state := by
  unfold oversizedBody
  split_ifs
  · have recorded := record_http_grows header poll.applications
    exact ⟨⟨recorded.httpMessages, recorded.dnsMessages, recorded.decodeFailures,
      recorded.httpBodiesSkipped.trans (Nat.le_succ _)⟩, .refl poll.peer⟩
  · exact resync_http_grows poll

theorem http_message_grows (header : Http.Header) (span : List UInt8) (poll : HttpPoll) :
    poll.Grows (httpMessage header span poll).state := by
  have popped := pop_head_request_counts header poll.peer
  unfold httpMessage
  generalize popHeadRequest header poll.peer = taken at popped
  rcases taken with ⟨headResponse, peer⟩
  have scanned := scan_body_counts header headResponse poll.applications span
  simp only
  generalize scanBody header headResponse poll.applications span = scan at scanned
  cases scan with
  | malformed =>
      have grown := resync_http_grows { poll with peer := peer }
      exact ⟨grown.1, popped.trans grown.2⟩
  | incomplete applications rest =>
      simp only
      split_ifs
      · have grown := oversized_body_grows header rest
          { poll with peer := peer, applications := applications }
        exact ⟨scanned.grows.trans grown.1, popped.trans grown.2⟩
      · exact ⟨scanned.grows, popped⟩
  | complete applications rest =>
      exact ⟨scanned.grows.trans (record_http_grows header applications), popped⟩

theorem skip_body_grows (poll : HttpPoll) : poll.Grows (skipBody poll).state := by
  unfold skipBody
  simp only
  split_ifs <;> exact ⟨⟨List.prefix_rfl, List.prefix_rfl, le_rfl, le_rfl⟩, .refl poll.peer⟩

theorem http_turn_grows (poll : HttpPoll) : poll.Grows (httpTurn poll).state := by
  unfold httpTurn
  by_cases skipping : poll.applications.httpSkip > 0
  · rw [if_pos skipping]
    exact skip_body_grows poll
  rw [if_neg skipping]
  by_cases untilClose : poll.applications.httpBodyUntilClose = true
  · rw [if_pos untilClose]
    exact .refl poll
  rw [if_neg untilClose]
  split
  · split
    · exact resync_http_grows poll
    · exact .refl poll
  · exact resync_http_grows poll
  · exact http_message_grows _ _ poll

theorem http_loop_grows (poll : HttpPoll) : poll.Grows (httpLoop poll) :=
  MeasuredLoop.run_composes .refl HttpPoll.Grows.trans http_turn_grows _ poll

def DnsPoll.Grows (before after : DnsPoll) : Prop :=
  before.applications.Grows after.applications

theorem DnsPoll.Grows.trans (first second third : DnsPoll) (left : first.Grows second)
    (right : second.Grows third) : first.Grows third :=
  Applications.Grows.trans left right

theorem dns_turn_grows (poll : DnsPoll) : poll.Grows (dnsTurn poll).state := by
  unfold dnsTurn
  simp only
  split_ifs
  · exact Applications.Grows.refl poll.applications
  · exact Applications.Grows.refl poll.applications
  · split
    · exact ⟨List.prefix_rfl, List.prefix_rfl, Nat.le_succ _, le_rfl⟩
    · exact ⟨List.prefix_rfl, List.prefix_append _ _, le_rfl, le_rfl⟩

theorem dns_loop_grows (poll : DnsPoll) : poll.Grows (dnsLoop poll) :=
  MeasuredLoop.run_composes (fun poll => Applications.Grows.refl poll.applications)
    DnsPoll.Grows.trans dns_turn_grows _ poll

theorem poll_stream_grows (key : FlowKey) (poll : StreamPoll) :
    poll.applications.Grows (pollStream key poll).applications ∧
      poll.peer.SameCounts (pollStream key poll).peer := by
  have dns := dns_loop_grows
    { stream := poll.stream, applications := poll.applications, dnsTable := poll.dnsTable }
  have http := http_loop_grows
    { stream := poll.stream, applications := poll.applications, peer := poll.peer }
  unfold pollStream
  split_ifs
  · exact ⟨.refl _, .refl _⟩
  · exact ⟨dns, .refl _⟩
  · exact http
  · exact ⟨.refl _, .refl _⟩

theorem datagram_message_grows (payload : List UInt8) (applications : Applications)
    (dnsTable : DnsTable) :
    applications.Grows (AppDecoder.datagramMessage payload applications dnsTable).1 := by
  unfold AppDecoder.datagramMessage
  split
  · exact ⟨List.prefix_rfl, List.prefix_rfl, Nat.le_succ _, le_rfl⟩
  · exact ⟨List.prefix_rfl, List.prefix_append _ _, le_rfl, le_rfl⟩

end Growth

/-- A decoder reads the packets of the flow. -/
def FlowKey.decoded (key : FlowKey) : Bool :=
  (key.protocol = Ip.protocolTcp && (key.isDns || key.isHttp)) ||
    (key.protocol = Ip.protocolUdp && key.isDns)

namespace AppDecoder

def nodeTotals (applications : FlowApplications) : Totals :=
  .of applications.fwd + .of applications.rev

/-- What the summary adds for a flow with this key. -/
def flowTotals (decoder : AppDecoder) (key : FlowKey) : Totals :=
  ((decoder.flows.lookup key).map nodeTotals).getD 0

theorem node_totals_sides (isReverse : Bool) (self peer : Applications) :
    nodeTotals (.sides isReverse self peer) = .of self + .of peer := by
  cases isReverse
  · rfl
  · exact add_comm _ _

theorem node_totals_self (applications : FlowApplications) (isReverse : Bool) :
    nodeTotals applications = .of (applications.self isReverse) +
      .of (applications.self (!isReverse)) := by
  cases isReverse
  · rfl
  · exact add_comm _ _

/-- What a poll starts from counts what was there, if a new flow finds nothing there. -/
theorem start_node_totals (decoder : AppDecoder) (key : FlowKey) (flowIsNew : Bool)
    (fresh : flowIsNew = true → decoder.flows.lookup key = none) :
    nodeTotals (decoder.startNode key flowIsNew) = decoder.flowTotals key := by
  cases flowIsNew with
  | true => simp [startNode, flowTotals, fresh rfl, nodeTotals, Totals.of, Totals.zero_eq,
      Totals.add_eq]
  | false =>
      cases found : decoder.flows.lookup key with
      | none => simp [startNode, flowTotals, node, found, nodeTotals, Totals.of, Totals.zero_eq,
          Totals.add_eq]
      | some applications => simp [startNode, flowTotals, node, found]

end AppDecoder

namespace Decoder

open AppDecoder

/-- A decoder reads the packet. -/
def reads (pkt : Packet) (key : FlowKey) : Bool :=
  match pkt.transport with
  | .tcp _ => key.isDns || key.isHttp
  | .udp _ => pkt.payload ≠ [] && key.isDns
  | _ => false

/-- What `pollStream` or `pollDatagram` records in the poll of a packet. -/
def pollRecorded (pkt : Packet) (key : FlowKey) (isNew : Bool) (poll : FlowPoll) : Totals :=
  match pkt.transport with
  | .tcp tcp =>
      if key.isDns || key.isHttp then
        let start := streamPoll key
          { poll with flow := reassemble poll.flow tcp pkt.payload } isNew
        .since start.applications (pollStream key start).applications
      else 0
  | .udp _ =>
      if pkt.payload ≠ [] && key.isDns then
        let start := (poll.decoder.startNode key isNew).self poll.flow.isReverse
        .since start (datagramMessage pkt.payload start poll.dnsTable).1
      else 0
  | _ => 0

section Poll

variable {pkt : Packet} {key : FlowKey} {isNew : Bool} {poll : FlowPoll}

theorem poll_packet_unread (unread : reads pkt key = false) :
    (pollPacket pkt key isNew poll).decoder = poll.decoder ∧
      pollRecorded pkt key isNew poll = 0 := by
  cases transport : pkt.transport with
  | tcp tcp =>
      simp only [reads, transport, Bool.or_eq_false_iff] at unread
      simp [pollPacket, pollRecorded, transport, unread, pollFlow]
  | udp udp =>
      simp only [reads, transport, Bool.and_eq_false_iff] at unread
      have plain : pkt.payload = [] ∨ key.isDns = false := by
        rcases unread with empty | notDns
        · exact Or.inl (by simpa using empty)
        · exact Or.inr notDns
      have same : pollDatagram key poll pkt.payload isNew = poll :=
        poll_datagram_plain isNew plain
      have skipped : ¬ ((pkt.payload ≠ [] && key.isDns) = true) := by
        rcases plain with empty | notDns <;> simp [*]
      simp only [pollPacket, pollRecorded, transport, same, true_and]
      exact if_neg skipped
  | monostate | icmp _ | icmpv6 _ => simp [pollPacket, pollRecorded, transport]

/-- The poll leaves in the node what it found there and what it recorded. -/
theorem poll_packet_totals (owned : Owned key poll.flow)
    (fresh : isNew = true → poll.decoder.flows.lookup key = none) :
    (pollPacket pkt key isNew poll).decoder.flowTotals key =
      poll.decoder.flowTotals key + pollRecorded pkt key isNew poll := by
  by_cases unread : reads pkt key = false
  · rw [(poll_packet_unread unread).1, (poll_packet_unread unread).2, add_zero]
  rw [← start_node_totals poll.decoder key isNew fresh]
  cases transport : pkt.transport with
  | tcp tcp =>
      simp only [reads, transport, Bool.not_eq_false] at unread
      have app : ¬ (key.isDns = false ∧ key.isHttp = false) := by
        rintro ⟨notDns, notHttp⟩
        simp [notDns, notHttp] at unread
      have sent : Owned key (reassemble poll.flow tcp pkt.payload) := by
        simpa only [Owned, reassemble_app_state] using owned
      have polled : pollFlow key
          { poll with flow := reassemble poll.flow tcp pkt.payload } isNew = _ :=
        poll_flow_app isNew app sent
      have grown := poll_stream_grows key
        (streamPoll key { poll with flow := reassemble poll.flow tcp pkt.payload } isNew)
      simp only [pollPacket, pollRecorded, transport, unread, if_true, polled, flowTotals,
        set_node_lookup, Option.map_some, Option.getD_some]
      rw [node_totals_sides, grown.1.totals, grown.2.totals,
        node_totals_self _ (reassemble poll.flow tcp pkt.payload).isReverse]
      exact add_right_comm _ _ _
  | udp udp =>
      simp only [reads, transport, Bool.not_eq_false, Bool.and_eq_true, decide_eq_true_eq]
        at unread
      have polled : pollDatagram key poll pkt.payload isNew = _ :=
        poll_datagram_app isNew unread.1 unread.2 owned
      have grown := datagram_message_grows pkt.payload
        ((poll.decoder.startNode key isNew).self poll.flow.isReverse) poll.dnsTable
      have counted : (pkt.payload ≠ [] && key.isDns) = true := by simp [unread]
      simp only [pollPacket, pollRecorded, transport, polled, flowTotals, set_node_lookup,
        Option.map_some, Option.getD_some]
      rw [if_pos counted, node_totals_sides, grown.totals,
        node_totals_self (poll.decoder.startNode key isNew) poll.flow.isReverse]
      exact add_right_comm _ _ _
  | monostate | icmp _ | icmpv6 _ => simp [reads, transport] at unread

end Poll

/-- Only a packet of a key that is decoded is read. -/
theorem reads_decoded {pkt : Packet} {raw : FlowKey}
    (found : FlowTable.keyFromPacket pkt {} = .ok raw)
    (read : reads pkt raw.normalize.2 = true) : raw.normalize.2.decoded = true := by
  have protocol := raw.normalize_protocol
  have named := Conversation.key_protocol found
  cases transport : pkt.transport with
  | tcp header =>
      rw [transport] at named
      have tcp : raw.protocol = Ip.protocolTcp := (Option.some.inj named).symm
      simp only [reads, transport] at read
      simp [FlowKey.decoded, protocol, tcp, read]
  | udp header =>
      rw [transport] at named
      have udp : raw.protocol = Ip.protocolUdp := (Option.some.inj named).symm
      simp only [reads, transport, Bool.and_eq_true] at read
      simp [FlowKey.decoded, protocol, udp, read.2]
  | monostate | icmp _ | icmpv6 _ => simp [reads, transport] at read

/-- What one call of `decode` records. -/
def stepRecorded (config : Config) (decoder : Decoder) (input : Input) : Totals :=
  let capture := decodedCapture config input
  if (decodePacket input.span input.capture.pkt.reset config.verifyChecksum).err ≠ .none ||
      filtered config.filter capture.pkt then 0 else
  let (added, table) := decoder.flowTable.addPacket capture
  if !added.flow then 0 else
  match table.flows.lookup added.key with
  | none => 0
  | some flow => pollRecorded capture.pkt added.key added.isNew
      { decoder := decoder.appDecoder, flow := flow, dnsTable := decoder.dnsTable }

/-- All that `pollStream` and `pollDatagram` record over a run. -/
def recorded (config : Config) (inputs : List Input) : Totals :=
  (inputs.foldl (fun (state : Decoder × Totals) input =>
    (step state.1 input, state.2 + stepRecorded config state.1 input)) (new config, 0)).2

/-- The packet retires a flow that a decoder reads and starts another one on its key. -/
def Restarts (config : Config) (decoder : Decoder) (input : Input) : Prop :=
  ∃ key flow, packetKey config input = some key ∧ key.decoded = true ∧
    filtered config.filter (decodedCapture config input).pkt = false ∧
    decoder.flowTable.flows.lookup key = some flow ∧
    decoder.flowTable.isExpired flow input.capture.tsUs = true

/-- Whether a packet restarts a flow can be computed. -/
theorem restarts_iff {config : Config} {decoder : Decoder} {input : Input} :
    Restarts config decoder input ↔ ((packetKey config input).any fun key =>
      key.decoded && !filtered config.filter (decodedCapture config input).pkt &&
        (decoder.flowTable.flows.lookup key).any fun flow =>
          decoder.flowTable.isExpired flow input.capture.tsUs) = true := by
  simp only [Restarts, Option.any_eq_true, Bool.and_eq_true, Bool.not_eq_true']
  constructor
  · rintro ⟨key, flow, keyed, read, passes, found, expired⟩
    exact ⟨key, keyed, ⟨read, passes⟩, flow, found, expired⟩
  · rintro ⟨key, keyed, ⟨read, passes⟩, flow, found, expired⟩
    exact ⟨key, flow, keyed, read, passes, found, expired⟩

instance (config : Config) (decoder : Decoder) (input : Input) :
    Decidable (Restarts config decoder input) :=
  decidable_of_iff _ restarts_iff.symm

/-- The totals over the active flows. -/
def activeTotals (decoder : Decoder) : Totals :=
  (decoder.flowTable.flows.keys.map decoder.appDecoder.flowTotals).sum

/-- What holds as long as no flow that a decoder reads is restarted. -/
structure Reported (config : Config) (decoder : Decoder) (totals : Totals) : Prop where
  sound : Sound config decoder
  decoded : ∀ key, decoder.appDecoder.flows.lookup key ≠ none → key.decoded = true
  active : ∀ key, decoder.appDecoder.flows.lookup key ≠ none → key ∈ decoder.flowTable.flows
  retired : ∀ entry ∈ decoder.flowTable.completed, entry.1.decoded = false
  total : decoder.activeTotals = totals

section Reported

variable {config : Config} {decoder : Decoder} {input : Input} {totals : Totals}

/-- A flow that is opened finds no application state under its key. -/
theorem opened_without_state (reported : Reported config decoder totals)
    (calm : ¬ Restarts config decoder input) {key : FlowKey} {added : FlowTable.Added}
    {table : FlowTable} (decoded : ¬ Undecoded config input)
    (accepts : Accepts decoder (decodedCapture config input) key added table)
    (isNew : added.isNew = true) : decoder.appDecoder.flows.lookup key = none := by
  by_contra stored
  have member := reported.active key stored
  obtain ⟨flow, found⟩ := Option.isSome_iff_exists.mp (AList.lookup_isSome.mpr member)
  have opens := accepts.posts.isNew
  rw [isNew, found] at opens
  exact calm ⟨key, flow, packet_key_accepts decoded accepts, reported.decoded key stored,
    reported.sound.sameConfig ▸ accepts.passes, found, opens.symm⟩

theorem step_recorded_undecoded (undecoded : Undecoded config input) :
    stepRecorded config decoder input = 0 := by
  simp only [Undecoded] at undecoded
  simp [stepRecorded, undecoded]

theorem step_recorded_outside
    (outside : Outside config (decodedCapture config input).pkt) :
    stepRecorded config decoder input = 0 := by
  unfold stepRecorded
  rcases outside with refused | arp | ⟨err, unkeyed⟩
  · simp [refused]
  · simp [FlowTable.addPacket, arp]
  · by_cases arp : (decodedCapture config input).pkt.isArp = true
    · simp [FlowTable.addPacket, arp]
    · simp [FlowTable.addPacket, arp, unkeyed]

theorem step_recorded_accepts (sound : Sound config decoder) (decoded : ¬ Undecoded config input)
    {key : FlowKey} {added : FlowTable.Added} {table : FlowTable}
    (accepts : Accepts decoder (decodedCapture config input) key added table) {flow : Flow}
    (polls : Polls config decoder (decodedCapture config input) key added table flow) :
    stepRecorded config decoder input =
      pollRecorded (decodedCapture config input).pkt key added.isNew
        { decoder := decoder.appDecoder, flow := flow, dnsTable := decoder.dnsTable } := by
  have passes := accepts.passes
  rw [sound.sameConfig] at passes
  simp only [Undecoded, ne_eq, not_not] at decoded
  have found : table.flows.lookup added.key = some flow := by
    rw [accepts.posts.outKey]
    exact polls.opened
  simp only [stepRecorded, decoded, passes, ne_eq, not_true_eq_false, decide_false, Bool.or_self,
    Bool.false_eq_true, if_false]
  rw [accepts.call]
  simp only [accepts.posts.flow, Bool.not_true, Bool.false_eq_true, if_false, found]
  rw [accepts.posts.outKey]

/-- The packet's flow is active afterwards, and no other flow was added or removed. -/
theorem Accepts.active {key : FlowKey} {added : FlowTable.Added} {table : FlowTable}
    {capture : Capture} (accepts : Accepts decoder capture key added table) {flow : Flow}
    (polls : Polls config decoder capture key added table flow) (other : FlowKey) :
    other ∈ (decoder.decodeCapture capture).2.flowTable.flows ↔
      other = key ∨ other ∈ decoder.flowTable.flows := by
  have opened := Ledger.post_opened
    (FlowTable.flowRules decoder.flowTable.activeTimeoutUs decoder.flowTable.idleTimeoutUs)
    decoder.flowTable.toBook key capture other
  rw [← accepts.posts.book] at opened
  have inserted : other ∈ table.flows.insert key
      (acceptedPoll decoder capture key added.isNew flow).flow ↔ other = key ∨
        other ∈ table.flows := AList.mem_insert _
  have table_mem : other ∈ table.flows ↔ other = key ∨ other ∈ decoder.flowTable.flows := opened
  rw [(accepts.accepted polls).flows]
  simp only [inserted, table_mem]
  tauto

theorem Accepts.retired {key : FlowKey} {added : FlowTable.Added} {table : FlowTable}
    {capture : Capture} (accepts : Accepts decoder capture key added table) {flow : Flow}
    (polls : Polls config decoder capture key added table flow)
    {entry : FlowKey × Flow}
    (member : entry ∈ (decoder.decodeCapture capture).2.flowTable.completed) :
    entry ∈ decoder.flowTable.completed ∨ entry.1 = key ∧
      decoder.flowTable.flows.lookup key = some entry.2 ∧
        decoder.flowTable.isExpired entry.2 capture.tsUs = true := by
  have closed := Ledger.post_closed
    (FlowTable.flowRules decoder.flowTable.activeTimeoutUs decoder.flowTable.idleTimeoutUs)
    decoder.flowTable.toBook key capture
  rw [← accepts.posts.book] at closed
  have same : (decoder.decodeCapture capture).2.flowTable.completed = table.toBook.closed := by
    rw [(accepts.accepted polls).flows]
    rfl
  rw [same] at member
  rcases closed with kept | ⟨account, found, expired, grown⟩
  · rw [kept] at member
    exact Or.inl member
  · rw [grown, List.mem_append, List.mem_singleton] at member
    rcases member with earlier | rfl
    · exact Or.inl earlier
    · exact Or.inr ⟨rfl, found, expired⟩

/-- Changing what one key contributes, and adding the key, changes the sum by as much. -/
theorem key_sum_step {before after : List FlowKey} (beforeUnique : before.Nodup)
    (afterUnique : after.Nodup) {key : FlowKey}
    (sameKeys : ∀ other, other ∈ after ↔ other = key ∨ other ∈ before)
    (weighBefore weighAfter : FlowKey → Totals) (extra : Totals)
    (absent : key ∉ before → weighBefore key = 0)
    (others : ∀ other ≠ key, weighAfter other = weighBefore other)
    (grown : weighAfter key = weighBefore key + extra) :
    (after.map weighAfter).sum = (before.map weighBefore).sum + extra := by
  have shuffled : after.Perm (key :: before.erase key) := by
    refine (List.perm_ext_iff_of_nodup afterUnique ?_).mpr ?_
    · exact List.nodup_cons.mpr ⟨beforeUnique.not_mem_erase, beforeUnique.erase key⟩
    · intro other
      rw [sameKeys, List.mem_cons, beforeUnique.mem_erase_iff]
      tauto
  have restSame : (before.erase key).map weighAfter = (before.erase key).map weighBefore := by
    apply List.map_congr_left
    intro other member
    exact others other (beforeUnique.mem_erase_iff.mp member).1
  have split : (before.map weighBefore).sum =
      weighBefore key + ((before.erase key).map weighBefore).sum := by
    by_cases member : key ∈ before
    · exact ((List.perm_cons_erase member).map weighBefore).sum_eq.trans (List.sum_cons)
    · rw [List.erase_of_not_mem member, absent member, zero_add]
  rw [(shuffled.map weighAfter).sum_eq, List.map_cons, List.sum_cons, restSame, grown, split]
  exact add_right_comm _ _ _

theorem Accepts.reported (reported : Reported config decoder totals)
    (calm : ¬ Restarts config decoder input) (decoded : ¬ Undecoded config input)
    {key : FlowKey} {added : FlowTable.Added} {table : FlowTable}
    (accepts : Accepts decoder (decodedCapture config input) key added table) :
    Reported config (decoder.decodeCapture (decodedCapture config input)).2
      (totals + stepRecorded config decoder input) := by
  obtain ⟨flow, polls⟩ := accepts.polls reported.sound
  have accepted := accepts.accepted polls
  have frame := accepted_poll_frame decoder (decodedCapture config input) added.isNew polls.owned
  have keyed := packet_key_accepts decoded accepts
  have recordedHere := step_recorded_accepts reported.sound decoded accepts polls
  have nodeKept : ∀ other ≠ key,
      (decoder.decodeCapture (decodedCapture config input)).2.appDecoder.flows.lookup other =
        decoder.appDecoder.flows.lookup other := by
    intro other different
    rw [accepted.appDecoder, frame.others other different]
  exact {
    sound := accepts.sound reported.sound
    decoded := by
      intro other stored
      by_cases same : other = key
      · subst same
        obtain ⟨raw, found, rfl⟩ := accepts.posts.keyed
        by_cases read : reads (decodedCapture config input).pkt raw.normalize.2 = true
        · exact reads_decoded found read
        · rw [accepted.appDecoder, acceptedPoll,
            (poll_packet_unread (by simpa using read)).1] at stored
          exact reported.decoded _ stored
      · rw [nodeKept other same] at stored
        exact reported.decoded other stored
    active := by
      intro other stored
      rw [accepts.active polls]
      by_cases same : other = key
      · exact Or.inl same
      · rw [nodeKept other same] at stored
        exact Or.inr (reported.active other stored)
    retired := by
      intro entry member
      rcases accepts.retired polls member with earlier | ⟨same, found, expired⟩
      · exact reported.retired entry earlier
      · by_contra read
        exact calm ⟨key, entry.2, keyed, same ▸ (by simpa using read),
          reported.sound.sameConfig ▸ accepts.passes, found, expired⟩
    total := by
      rw [recordedHere, ← reported.total]
      have grown : (acceptedPoll decoder (decodedCapture config input) key added.isNew
          flow).decoder.flowTotals key = decoder.appDecoder.flowTotals key + _ :=
        poll_packet_totals polls.owned (opened_without_state reported calm decoded accepts)
      refine key_sum_step decoder.flowTable.flows.keys_nodup (AList.keys_nodup _)
        (accepts.active polls) _ _ _ ?_ ?_ ?_
      · intro absent
        have nothing : decoder.appDecoder.flows.lookup key = none := by
          by_contra stored
          exact absent (reported.active key stored)
        simp [flowTotals, nothing]
      · intro other different
        simp only [flowTotals, nodeKept other different]
      · rw [accepted.appDecoder]
        exact grown }

theorem step_reported (reported : Reported config decoder totals)
    (calm : ¬ Restarts config decoder input) :
    Reported config (step decoder input) (totals + stepRecorded config decoder input) := by
  by_cases undecoded : Undecoded config input
  · rw [step_undecoded reported.sound undecoded, step_recorded_undecoded undecoded, add_zero]
    exact reported
  · rcases decode_capture_cases decoder (decodedCapture config input) with ignores |
      ⟨key, added, table, accepts⟩
    · have outside := ignores.outside
      rw [reported.sound.sameConfig] at outside
      have sound := step_sound reported.sound input
      rw [step_recorded_outside outside, add_zero]
      rw [step_decoded reported.sound undecoded] at sound ⊢
      exact {
        sound := sound
        decoded := by
          rw [ignores.appDecoder]
          exact reported.decoded
        active := by
          rw [ignores.appDecoder, ignores.flowTable]
          exact reported.active
        retired := by
          rw [ignores.flowTable]
          exact reported.retired
        total := by
          rw [← reported.total, activeTotals, activeTotals, ignores.appDecoder,
            ignores.flowTable] }
    · rw [step_decoded reported.sound undecoded]
      exact Accepts.reported reported calm undecoded accepts

theorem new_reported (config : Config) : Reported config (new config) 0 :=
  { sound := new_sound config
    decoded := fun key stored => absurd (AList.lookup_empty key) stored
    active := fun key stored => absurd (AList.lookup_empty key) stored
    retired := fun _ member => absurd member List.not_mem_nil
    total := rfl }

/-- No packet of the run restarts a flow that a decoder reads. -/
def NeverRestarts (config : Config) (inputs : List Input) : Prop :=
  ∀ before input after, inputs = before ++ input :: after →
    ¬ Restarts config (run config before) input

/-- A run restarts no flow if none of its packets does. -/
theorem never_restarts_iff {config : Config} {inputs : List Input} :
    NeverRestarts config inputs ↔ ∀ index : Fin inputs.length,
      ¬ Restarts config (run config (inputs.take index)) inputs[index] := by
  constructor
  · intro calm index
    refine calm _ _ (inputs.drop (index + 1)) ?_
    rw [Fin.getElem_fin, List.getElem_cons_drop, List.take_append_drop]
  · intro calm before input after split
    have inside : before.length < inputs.length := by
      rw [split, List.length_append, List.length_cons]
      omega
    have here := calm ⟨before.length, inside⟩
    simpa [split] using here

theorem run_append_one (config : Config) (inputs : List Input) (input : Input) :
    run config (inputs ++ [input]) = step (run config inputs) input := by
  simp [run]

theorem recorded_append_one (config : Config) (inputs : List Input) (input : Input) :
    recorded config (inputs ++ [input]) =
      recorded config inputs + stepRecorded config (run config inputs) input := by
  have sameDecoder : ∀ (inputs : List Input) (state : Decoder × Totals),
      (inputs.foldl (fun (state : Decoder × Totals) input =>
        (step state.1 input, state.2 + stepRecorded config state.1 input)) state).1 =
        inputs.foldl step state.1 := by
    intro inputs
    induction inputs with
    | nil => exact fun state => rfl
    | cons input rest ih => exact fun state => ih _
  simp only [recorded, List.foldl_append, List.foldl_cons, List.foldl_nil, sameDecoder, run]

theorem run_reported (config : Config) (inputs : List Input)
    (calm : NeverRestarts config inputs) :
    Reported config (run config inputs) (recorded config inputs) := by
  induction inputs using List.reverseRecOn with
  | nil => exact new_reported config
  | append_singleton inputs input ih =>
      have earlier : NeverRestarts config inputs := by
        intro before other after split
        exact calm before other (after ++ [input]) (by simp [split])
      rw [run_append_one, recorded_append_one]
      exact step_reported (ih earlier) (calm inputs input [] rfl)

end Reported

theorem add_flow_eq (appDecoder : AppDecoder) (totals : Totals) (key : FlowKey) :
    Cli.addFlow appDecoder totals key = totals + appDecoder.flowTotals key := by
  cases found : appDecoder.flows.lookup key with
  | none => simp [Cli.addFlow, getApplications, flowTotals, found]
  | some applications =>
      simp only [Cli.addFlow, getApplications, flowTotals, found, List.foldl_cons, List.foldl_nil,
        Option.map_some, Option.getD_some, Bool.false_eq_true, if_false, if_true]
      exact add_assoc totals (.of applications.fwd) (.of applications.rev)

/-- The order in which the flows are listed does not matter for the summary. -/
theorem print_summary_eq (table : FlowTable) (appDecoder : AppDecoder) :
    printSummary table appDecoder =
      ((table.completed ++ table.activeFlows).map fun entry =>
        appDecoder.flowTotals entry.1).sum := by
  have folded : ∀ (entries : List (FlowKey × Flow)) (totals : Totals),
      entries.foldl (fun totals entry => Cli.addFlow appDecoder totals entry.1) totals =
        totals + (entries.map fun entry => appDecoder.flowTotals entry.1).sum := by
    intro entries
    induction entries with
    | nil => simp
    | cons entry rest ih =>
        intro totals
        rw [List.foldl_cons, ih, add_flow_eq, List.map_cons, List.sum_cons, add_assoc]
  have sorted := List.mergeSort_perm (table.completed ++ table.activeFlows) FlowTable.listedBefore
  refine (folded table.allFlows 0).trans ?_
  rw [zero_add, FlowTable.allFlows, (sorted.map _).sum_eq]

theorem packet_key_inside {config : Config} {input : Input} {key : FlowKey}
    (keyed : packetKey config input = some key)
    (passes : filtered config.filter (decodedCapture config input).pkt = false) :
    ¬ Undecoded config input ∧ ¬ Outside config (decodedCapture config input).pkt := by
  constructor
  · intro undecoded
    simp only [Undecoded] at undecoded
    simp [packetKey, undecoded] at keyed
  · rintro (refused | arp | ⟨err, unkeyed⟩)
    · rw [passes] at refused
      cases refused
    · simp only [decodedCapture] at arp
      simp [packetKey, arp] at keyed
    · simp only [decodedCapture] at unkeyed
      simp [packetKey, unkeyed] at keyed

/-- As long as no flow that a decoder reads is restarted, the summary reports exactly what
was recorded, and a new flow finds no application state under its key. -/
theorem summary_reports_what_was_recorded (config : Config) (inputs : List Input)
    (calm : NeverRestarts config inputs) :
    printSummary (run config inputs).flowTable (run config inputs).appDecoder =
        recorded config inputs ∧
      ∀ before input after key, inputs = before ++ input :: after →
        filtered config.filter (decodedCapture config input).pkt = false →
        packetKey config input = some key →
        ((run config before).flowTable.addPacket (decodedCapture config input)).1.isNew = true →
        (run config before).appDecoder.flows.lookup key = none := by
  constructor
  · have reported := run_reported config inputs calm
    rw [print_summary_eq, List.map_append, List.sum_append]
    have retiredNothing : ((run config inputs).flowTable.completed.map fun entry =>
        (run config inputs).appDecoder.flowTotals entry.1).sum = 0 := by
      apply List.sum_eq_zero
      intro totals member
      obtain ⟨entry, retired, rfl⟩ := List.mem_map.mp member
      have nothing : (run config inputs).appDecoder.flows.lookup entry.1 = none := by
        by_contra stored
        have read := reported.decoded entry.1 stored
        rw [reported.retired entry retired] at read
        cases read
      simp [flowTotals, nothing]
    rw [retiredNothing, zero_add, ← reported.total]
    simp [activeTotals, FlowTable.activeFlows, AList.keys, List.keys, Function.comp_def]
  · intro before input after key split passes keyed isNew
    have earlier : NeverRestarts config before := by
      intro first other rest cut
      exact calm first other (rest ++ input :: after) (by simp [split, cut])
    have reported := run_reported config before earlier
    obtain ⟨decoded, inside⟩ := packet_key_inside keyed passes
    rcases decode_capture_cases (run config before) (decodedCapture config input) with ignores |
      ⟨other, added, table, accepts⟩
    · have outside := ignores.outside
      rw [reported.sound.sameConfig] at outside
      exact absurd outside inside
    · obtain rfl : other = key :=
        Option.some.inj ((packet_key_accepts decoded accepts).symm.trans keyed)
      rw [accepts.call] at isNew
      exact opened_without_state reported (calm before input after split) decoded accepts isNew

/-- A DNS message without records from 10.0.0.1:5000 to 10.0.0.2:53, without checksums. -/
def queryFrame : List UInt8 :=
  [2, 0, 0, 0, 0, 1, 2, 0, 0, 0, 0, 2, 0x08, 0x00,
    0x45, 0, 0, 40, 0, 0, 0, 0, 64, 17, 0, 0, 10, 0, 0, 1, 10, 0, 0, 2,
    0x13, 0x88, 0, 53, 0, 20, 0, 0,
    0, 7, 0, 0, 0, 0, 0, 0, 0, 0, 0, 0]

def queryAt (tsUs : UInt64) : Input :=
  { span := queryFrame
    capture :=
      { tsUs := tsUs
        packetHeader := { inclLen := 54, origLen := 54 }
        pkt := { datalink := .ethernet {} } } }

/-- A datagram from port 5000 of 10.0.0.`host` to a port of 10.0.0.2, without checksums. -/
def datagramAt (host port : UInt8) (payload : List UInt8) (tsUs : UInt64) : Input :=
  let length := 28 + payload.length
  { span := [2, 0, 0, 0, 0, 1, 2, 0, 0, 0, 0, 2, 0x08, 0x00,
      0x45, 0, 0, UInt8.ofNat length, 0, 0, 0, 0, 64, 17, 0, 0, 10, 0, 0, host, 10, 0, 0, 2,
      0x13, 0x88, 0, port, 0, UInt8.ofNat (length - 20), 0, 0] ++ payload
    capture :=
      { tsUs := tsUs
        packetHeader :=
          { inclLen := UInt32.ofNat (14 + length), origLen := UInt32.ofNat (14 + length) }
        pkt := { datalink := .ethernet {} } } }

/-- Two hosts send DNS messages, one of them malformed, and meanwhile a flow that no decoder
reads expires and is started again. -/
def threeFlows : List Input :=
  [queryAt 0, datagramAt 1 123 [1] 1000000, datagramAt 3 53 [0, 7, 0] 5000000, queryAt 20000000,
    datagramAt 1 123 [2] 32000000, datagramAt 3 53 (queryFrame.drop 42) 33000000,
    queryAt 40000000]

theorem summary_reports_what_was_recorded_once :
    printSummary (run { verifyChecksum := false } threeFlows).flowTable
        (run { verifyChecksum := false } threeFlows).appDecoder =
          recorded { verifyChecksum := false } threeFlows ∧
      recorded { verifyChecksum := false } threeFlows = { dnsMessages := 4, decodeFailures := 1 } ∧
      (run { verifyChecksum := false } threeFlows).flowTable.completed.length = 1 ∧
      (run { verifyChecksum := false } threeFlows).flowTable.flows.keys.length = 3 := by
  have calm : NeverRestarts { verifyChecksum := false } threeFlows := by
    rw [never_restarts_iff]
    decide +kernel
  exact ⟨(summary_reports_what_was_recorded { verifyChecksum := false } threeFlows calm).1,
    by decide +kernel, by decide +kernel, by decide +kernel⟩

/-- The flow expires after thirty seconds and is started again: its first message is lost,
and the two later ones are reported once for each of the two flows. -/
theorem restarted_flow_is_reported_twice :
    let config : Config := { verifyChecksum := false }
    let inputs := [queryAt 0, queryAt 31000000, queryAt 31000001]
    printSummary (run config inputs).flowTable (run config inputs).appDecoder =
        { dnsMessages := 4 } ∧
      recorded config inputs = { dnsMessages := 3 } := by
  intro config inputs
  rw [print_summary_eq]
  exact ⟨by decide +kernel, by decide +kernel⟩

end Decoder

end PcapAnalyzer
