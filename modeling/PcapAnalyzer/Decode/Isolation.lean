import PcapAnalyzer.Decode.Residue
import PcapAnalyzer.Library.Unwinding

/-!
# Flows are isolated from each other

Under one key the decoder holds retired flows, an active flow and application state.
A packet of another key leaves them alone, and a packet of the key acts on them through
them alone; the DNS table is written but never read.
-/

namespace PcapAnalyzer

open Pcap (Capture)

set_option autoImplicit false

section DnsTable

/-- Equal but for the DNS table. -/
def DnsPoll.Same (left right : DnsPoll) : Prop :=
  left.stream = right.stream ∧ left.applications = right.applications

theorem dns_turn_same {left right : DnsPoll} (same : left.Same right) :
    MeasuredLoop.SameTurn DnsPoll.Same DnsPoll.Same (dnsTurn left) (dnsTurn right) := by
  rcases left with ⟨stream, applications, leftTable⟩
  rcases right with ⟨_, _, rightTable⟩
  obtain ⟨rfl, rfl⟩ := same
  unfold dnsTurn
  simp only
  split_ifs
  · exact .leave ⟨rfl, rfl⟩
  · exact .leave ⟨rfl, rfl⟩
  · split <;> exact .again ⟨rfl, rfl⟩

theorem dns_loop_same {left right : DnsPoll} (same : left.Same right) :
    (dnsLoop left).Same (dnsLoop right) := by
  unfold dnsLoop
  rw [same.1]
  exact MeasuredLoop.run_related (fun left right same => dns_turn_same same)
    (fun left right same => same) _ left right same

/-- What a poll reads and writes of a stream does not depend on the DNS table. -/
def StreamPoll.Same (left right : StreamPoll) : Prop :=
  left.stream = right.stream ∧ left.applications = right.applications ∧ left.peer = right.peer

theorem poll_stream_same (key : FlowKey) {left right : StreamPoll} (same : left.Same right) :
    (pollStream key left).Same (pollStream key right) := by
  rcases left with ⟨stream, applications, peer, leftTable⟩
  rcases right with ⟨_, _, _, rightTable⟩
  obtain ⟨rfl, rfl, rfl⟩ := same
  have dns : (dnsLoop ⟨stream, applications, leftTable⟩).Same
      (dnsLoop ⟨stream, applications, rightTable⟩) := dns_loop_same ⟨rfl, rfl⟩
  unfold pollStream
  simp only
  split_ifs
  · exact ⟨rfl, rfl, rfl⟩
  · exact ⟨dns.1, dns.2, rfl⟩
  · exact ⟨rfl, rfl, rfl⟩
  · exact ⟨rfl, rfl, rfl⟩

end DnsTable

namespace AppDecoder

@[simp] theorem set_node_lookup (decoder : AppDecoder) (key : FlowKey)
    (applications : FlowApplications) :
    (decoder.setNode key applications).flows.lookup key = some applications := by
  simp [setNode]

theorem set_node_lookup_other (decoder : AppDecoder) {key other : FlowKey}
    (different : other ≠ key) (applications : FlowApplications) :
    (decoder.setNode key applications).flows.lookup other = decoder.flows.lookup other := by
  simp [setNode, AList.lookup_insert_ne different]

@[simp] theorem set_node_node (decoder : AppDecoder) (key : FlowKey)
    (applications : FlowApplications) : (decoder.setNode key applications).node key =
      applications := by
  simp [node]

/-- The pointer of a flow is unset or points to the node of the flow's own key. -/
def Owned (key : FlowKey) (flow : Flow) : Prop :=
  flow.appState = none ∨ flow.appState = some key

theorem app_state_node_owned {key : FlowKey} {flow : Flow} (owned : Owned key flow) :
    appStateNode key flow = key := by
  rcases owned with unset | own
  · simp [appStateNode, unset]
  · simp [appStateNode, own]

/-- The application state a poll starts from. -/
def startNode (decoder : AppDecoder) (key : FlowKey) (flowIsNew : Bool) : FlowApplications :=
  if flowIsNew then {} else decoder.node key

theorem app_state_for_owned (decoder : AppDecoder) {key : FlowKey} {flow : Flow}
    (owned : Owned key flow) (flowIsNew : Bool) :
    decoder.appStateFor key flow flowIsNew =
      (decoder.setNode key (decoder.startNode key flowIsNew),
        { flow with appState := some key }) := by
  simp only [appStateFor, app_state_node_owned owned, startNode]

@[simp] theorem set_node_twice (decoder : AppDecoder) (key : FlowKey)
    (first second : FlowApplications) :
    (decoder.setNode key first).setNode key second = decoder.setNode key second := by
  simp [setNode]

end AppDecoder

/-- The state of the direction being polled. -/
def FlowApplications.self (applications : FlowApplications) (isReverse : Bool) : Applications :=
  if isReverse then applications.rev else applications.fwd

def FlowApplications.sides (isReverse : Bool) (self peer : Applications) : FlowApplications :=
  if isReverse then { fwd := peer, rev := self } else { fwd := self, rev := peer }

def Flow.stream (flow : Flow) : TcpReassembler :=
  if flow.isReverse then flow.revTcp else flow.fwdTcp

def Flow.setStream (flow : Flow) (stream : TcpReassembler) : Flow :=
  if flow.isReverse then { flow with revTcp := stream } else { flow with fwdTcp := stream }

/-- The stream of the side that sends in the given direction. -/
def Flow.side (flow : Flow) (isReverse : Bool) : TcpReassembler :=
  if isReverse then flow.revTcp else flow.fwdTcp

theorem Decoder.set_stream_side (flow : Flow) (stream : TcpReassembler) :
    (flow.setStream stream).side flow.isReverse = stream ∧
      (flow.setStream stream).side (!flow.isReverse) = flow.side (!flow.isReverse) := by
  cases turned : flow.isReverse <;> simp [Flow.setStream, turned, Flow.side]

namespace AppDecoder

/-- The stream poll a flow poll makes. -/
def streamPoll (key : FlowKey) (poll : FlowPoll) (flowIsNew : Bool) : StreamPoll :=
  let start := poll.decoder.startNode key flowIsNew
  { stream := poll.flow.stream
    applications := start.self poll.flow.isReverse
    peer := start.self (!poll.flow.isReverse)
    dnsTable := poll.dnsTable }

section Polls

variable {key : FlowKey} {poll : FlowPoll} (flowIsNew : Bool)

theorem poll_flow_plain (plain : key.isDns = false ∧ key.isHttp = false) :
    pollFlow key poll flowIsNew = poll := by
  simp [pollFlow, plain]

/-- A poll of a flow on an application port is a poll of one stream over the key's node. -/
theorem poll_flow_app (app : ¬ (key.isDns = false ∧ key.isHttp = false))
    (owned : Owned key poll.flow) :
    pollFlow key poll flowIsNew =
      let polled := pollStream key (streamPoll key poll flowIsNew)
      { decoder := poll.decoder.setNode key
          (.sides poll.flow.isReverse polled.applications polled.peer)
        flow := { poll.flow.setStream polled.stream with appState := some key }
        dnsTable := polled.dnsTable } := by
  have ports : (!key.isDns && !key.isHttp) = false := by
    by_contra both
    simp only [Bool.not_eq_false, Bool.and_eq_true, Bool.not_eq_true'] at both
    exact app both
  cases turned : poll.flow.isReverse <;>
    simp [pollFlow, ports, app_state_for_owned _ owned, app_state_node_owned owned, streamPoll,
      FlowApplications.self, FlowApplications.sides, Flow.stream, Flow.setStream, turned]

theorem poll_datagram_plain {payload : List UInt8} (plain : payload = [] ∨ key.isDns = false) :
    pollDatagram key poll payload flowIsNew = poll := by
  rcases plain with empty | notDns
  · simp [pollDatagram, empty]
  · simp only [pollDatagram, notDns]
    split_ifs <;> first | rfl | contradiction

theorem poll_datagram_app {payload : List UInt8} (nonempty : payload ≠ [])
    (dns : key.isDns = true) (owned : Owned key poll.flow) :
    pollDatagram key poll payload flowIsNew =
      let start := poll.decoder.startNode key flowIsNew
      let read := datagramMessage payload (start.self poll.flow.isReverse) poll.dnsTable
      { decoder := poll.decoder.setNode key
          (.sides poll.flow.isReverse read.1 (start.self (!poll.flow.isReverse)))
        flow := { poll.flow with appState := some key }
        dnsTable := read.2 } := by
  cases turned : poll.flow.isReverse <;>
    simp [pollDatagram, nonempty, dns, app_state_for_owned _ owned, app_state_node_owned owned,
      FlowApplications.self, FlowApplications.sides, turned]

end Polls

/-- Two polls agree on all that belongs to the key. -/
structure SamePoll (key : FlowKey) (left right : FlowPoll) : Prop where
  flow : left.flow = right.flow
  node : left.decoder.flows.lookup key = right.decoder.flows.lookup key

section SamePoll

variable {key : FlowKey} {left right : FlowPoll}

theorem SamePoll.start (same : SamePoll key left right) (flowIsNew : Bool) :
    left.decoder.startNode key flowIsNew = right.decoder.startNode key flowIsNew := by
  simp only [startNode, AppDecoder.node, same.node]

theorem SamePoll.pollFlow (same : SamePoll key left right) (owned : Owned key left.flow)
    (flowIsNew : Bool) :
    SamePoll key (pollFlow key left flowIsNew) (pollFlow key right flowIsNew) := by
  by_cases plain : key.isDns = false ∧ key.isHttp = false
  · rw [poll_flow_plain flowIsNew plain, poll_flow_plain flowIsNew plain]
    exact same
  · have ownedToo : Owned key right.flow := same.flow ▸ owned
    have start : (streamPoll key left flowIsNew).Same (streamPoll key right flowIsNew) := by
      simp only [streamPoll, same.start, same.flow, StreamPoll.Same, and_self]
    have polled := poll_stream_same key start
    rw [poll_flow_app flowIsNew plain owned, poll_flow_app flowIsNew plain ownedToo]
    constructor
    · simp only [same.flow, polled.1]
    · simp only [same.flow, polled.2.1, polled.2.2, set_node_lookup]

theorem datagram_message_table (payload : List UInt8) (applications : Applications)
    (leftTable rightTable : DnsTable) :
    (datagramMessage payload applications leftTable).1 =
      (datagramMessage payload applications rightTable).1 := by
  unfold datagramMessage
  split <;> rfl

theorem SamePoll.pollDatagram (same : SamePoll key left right) (owned : Owned key left.flow)
    (payload : List UInt8) (flowIsNew : Bool) :
    SamePoll key (pollDatagram key left payload flowIsNew)
      (pollDatagram key right payload flowIsNew) := by
  by_cases plain : payload = [] ∨ key.isDns = false
  · rw [poll_datagram_plain flowIsNew plain, poll_datagram_plain flowIsNew plain]
    exact same
  · have ownedToo : Owned key right.flow := same.flow ▸ owned
    simp only [not_or, Bool.not_eq_false] at plain
    rw [poll_datagram_app flowIsNew plain.1 plain.2 owned,
      poll_datagram_app flowIsNew plain.1 plain.2 ownedToo]
    constructor
    · simp only [same.flow]
    · simp only [same.flow, same.start, set_node_lookup,
        datagram_message_table payload _ left.dnsTable right.dnsTable]

end SamePoll

/-- What a poll does not touch: the nodes of other keys, and whose node the flow points to. -/
structure PollFrame (key : FlowKey) (before after : FlowPoll) : Prop where
  others : ∀ other ≠ key, after.decoder.flows.lookup other = before.decoder.flows.lookup other
  owned : Owned key after.flow

theorem PollFrame.refl {key : FlowKey} {poll : FlowPoll} (owned : Owned key poll.flow) :
    PollFrame key poll poll := ⟨fun _ _ => rfl, owned⟩

theorem poll_flow_frame {key : FlowKey} {poll : FlowPoll} (owned : Owned key poll.flow)
    (flowIsNew : Bool) : PollFrame key poll (pollFlow key poll flowIsNew) := by
  by_cases plain : key.isDns = false ∧ key.isHttp = false
  · rw [poll_flow_plain flowIsNew plain]
    exact .refl owned
  · rw [poll_flow_app flowIsNew plain owned]
    exact ⟨fun other different => set_node_lookup_other _ different _, Or.inr rfl⟩

theorem poll_datagram_frame {key : FlowKey} {poll : FlowPoll} (owned : Owned key poll.flow)
    (payload : List UInt8) (flowIsNew : Bool) :
    PollFrame key poll (pollDatagram key poll payload flowIsNew) := by
  by_cases plain : payload = [] ∨ key.isDns = false
  · rw [poll_datagram_plain flowIsNew plain]
    exact .refl owned
  · simp only [not_or, Bool.not_eq_false] at plain
    rw [poll_datagram_app flowIsNew plain.1 plain.2 owned]
    exact ⟨fun other different => set_node_lookup_other _ different _, Or.inr rfl⟩

end AppDecoder

namespace Decoder

open AppDecoder

theorem reassemble_app_state (flow : Flow) (tcp : Tcp.Header) (payload : List UInt8) :
    (reassemble flow tcp payload).appState = flow.appState := by
  unfold reassemble
  split_ifs <;> rfl

theorem poll_packet_same (pkt : Packet) (key : FlowKey) (isNew : Bool) {left right : FlowPoll}
    (same : SamePoll key left right) (owned : Owned key left.flow) :
    SamePoll key (pollPacket pkt key isNew left) (pollPacket pkt key isNew right) := by
  cases transport : pkt.transport with
  | tcp tcp =>
      simp only [pollPacket, transport]
      have sent : SamePoll key { left with flow := reassemble left.flow tcp pkt.payload }
          { right with flow := reassemble right.flow tcp pkt.payload } :=
        ⟨congrArg (fun flow => reassemble flow tcp pkt.payload) same.flow, same.node⟩
      refine sent.pollFlow ?_ isNew
      simpa only [Owned, reassemble_app_state] using owned
  | udp udp =>
      simp only [pollPacket, transport]
      exact same.pollDatagram owned pkt.payload isNew
  | monostate | icmp _ | icmpv6 _ =>
      simp only [pollPacket, transport]
      exact same

theorem poll_packet_frame (pkt : Packet) (key : FlowKey) (isNew : Bool) {poll : FlowPoll}
    (owned : Owned key poll.flow) : PollFrame key poll (pollPacket pkt key isNew poll) := by
  cases transport : pkt.transport with
  | tcp tcp =>
      simp only [pollPacket, transport]
      have ownedToo : Owned key (reassemble poll.flow tcp pkt.payload) := by
        simpa only [Owned, reassemble_app_state] using owned
      have frame : PollFrame key { poll with flow := reassemble poll.flow tcp pkt.payload } _ :=
        poll_flow_frame ownedToo isNew
      exact ⟨frame.others, frame.owned⟩
  | udp udp =>
      simp only [pollPacket, transport]
      exact poll_datagram_frame owned pkt.payload isNew
  | monostate | icmp _ | icmpv6 _ =>
      simp only [pollPacket, transport]
      exact .refl owned

/-- The packet is counted in the flow of its key, and that flow is polled. -/
structure Accepts (decoder : Decoder) (capture : Capture) (key : FlowKey) (added : FlowTable.Added)
    (table : FlowTable) : Prop where
  passes : filtered decoder.config.filter capture.pkt = false
  call : decoder.flowTable.addPacket capture = (added, table)
  posts : FlowTable.Posts decoder.flowTable capture key added table
  result : (decoder.decodeCapture capture).2 =
    { ({ decoder with flowTable := table } : Decoder).decodeFlow capture key added.isNew with
      decoded := decoder.decoded + 1 }

/-- The packet belongs to no flow, or the filter refuses it. -/
def Outside (config : Config) (pkt : Packet) : Prop :=
  filtered config.filter pkt = true ∨ pkt.isArp = true ∨
    ∃ err, FlowTable.keyFromPacket pkt {} = .error err

/-- A packet outside all flows leaves flows, application state and names alone. -/
structure Ignores (decoder : Decoder) (capture : Capture) : Prop where
  outside : Outside decoder.config capture.pkt
  config : (decoder.decodeCapture capture).2.config = decoder.config
  flowTable : (decoder.decodeCapture capture).2.flowTable = decoder.flowTable
  appDecoder : (decoder.decodeCapture capture).2.appDecoder = decoder.appDecoder
  dnsTable : (decoder.decodeCapture capture).2.dnsTable = decoder.dnsTable

/-- Everything a decoded packet can do: nothing, or one posting followed by a poll. -/
theorem decode_capture_cases (decoder : Decoder) (capture : Capture) :
    Ignores decoder capture ∨ ∃ key added table, Accepts decoder capture key added table := by
  by_cases refused : filtered decoder.config.filter capture.pkt = true
  · left
    constructor <;> simp [decodeCapture, Outside, refused]
  · rcases FlowTable.add_packet_cases decoder.flowTable capture with ⟨arp, result⟩ |
      ⟨err, failed, unkeyed, result⟩ | ⟨key, posts⟩
    · left
      constructor <;> simp [decodeCapture, Outside, refused, result, arp]
    · left
      constructor <;> simp [decodeCapture, Outside, refused, result, failed, unkeyed]
    · right
      refine ⟨key, _, _, ⟨by simpa using refused, rfl, posts, ?_⟩⟩
      have counted : ∀ after : Decoder, after.decoded = decoder.decoded →
          { after with decoded := after.decoded + 1 } =
            { after with decoded := decoder.decoded + 1 } := by
        intro after same
        rw [same]
      simp only [decodeCapture, refused, posts.err, posts.flow, posts.outKey, ne_eq,
        not_true_eq_false, if_false, if_true, Bool.false_eq_true]
      exact counted _ (decode_flow_decoded _ capture key _)

theorem Accepts.inside {decoder : Decoder} {capture : Capture} {key : FlowKey}
    {added : FlowTable.Added} {table : FlowTable}
    (accepts : Accepts decoder capture key added table) :
    ¬ Outside decoder.config capture.pkt := by
  obtain ⟨raw, found, _⟩ := accepts.posts.keyed
  simp [Outside, accepts.passes, accepts.posts.notArp, found]

/-- What the decoder holds under one key. -/
def view (key : FlowKey) (decoder : Decoder) :
    Ledger.View Flow × Option FlowApplications :=
  (decoder.flowTable.toBook.view key, decoder.appDecoder.flows.lookup key)

/-- The invariant of every run: the configuration is in force, and every active flow points to
the application state of its own key. -/
structure Sound (config : Config) (decoder : Decoder) : Prop where
  sameConfig : decoder.config = config
  active : decoder.flowTable.activeTimeoutUs = config.flowActiveTimeoutUs
  idle : decoder.flowTable.idleTimeoutUs = config.flowIdleTimeoutUs
  owned : ∀ key flow, decoder.flowTable.flows.lookup key = some flow → Owned key flow

section Accepted

variable {config : Config} {decoder : Decoder} {capture : Capture} {key : FlowKey}
  {added : FlowTable.Added} {table : FlowTable}

/-- The flow a posting opens or counts in still points to its own node, or nowhere. -/
theorem posted_owned (activeTimeoutUs idleTimeoutUs : UInt64) (key : FlowKey) (capture : Capture)
    (view : Ledger.View Flow) (owned : ∀ flow, view.opened = some flow → Owned key flow) :
    ∃ flow, ((FlowTable.flowRules activeTimeoutUs idleTimeoutUs).postView key capture view).opened =
      some flow ∧ Owned key flow := by
  have counted : ∀ flow : Flow, Owned key flow →
      Owned key (FlowTable.countPacket flow (FlowTable.direction capture) capture) := by
    intro flow owned
    unfold FlowTable.countPacket
    split_ifs <;> exact owned
  unfold Ledger.Rules.postView
  by_cases opens : (FlowTable.flowRules activeTimeoutUs idleTimeoutUs).opens view.opened capture
  · rw [if_pos opens]
    refine ⟨_, rfl, counted _ (Or.inl ?_)⟩
    simp only [FlowTable.flowRules, FlowTable.newFlow]
    split_ifs <;> rfl
  · rw [if_neg opens]
    cases held : view.opened with
    | none => simp [Ledger.Rules.opens, held] at opens
    | some flow => exact ⟨_, rfl, counted flow (owned flow held)⟩

/-- The flow and the poll an accepted packet leads to, and what remains of them. -/
structure Polls (config : Config) (decoder : Decoder) (capture : Capture) (key : FlowKey)
    (added : FlowTable.Added) (table : FlowTable) (flow : Flow) : Prop where
  opened : (table.toBook.view key).opened = some flow
  owned : Owned key flow
  book : table.toBook.view key =
    (FlowTable.flowRules config.flowActiveTimeoutUs config.flowIdleTimeoutUs).postView key capture
      (decoder.flowTable.toBook.view key)
  isNew : added.isNew =
    (FlowTable.flowRules config.flowActiveTimeoutUs config.flowIdleTimeoutUs).opens
      (decoder.flowTable.toBook.view key).opened capture

theorem Accepts.polls (accepts : Accepts decoder capture key added table)
    (sound : Sound config decoder) : ∃ flow, Polls config decoder capture key added table flow := by
  have posts := accepts.posts
  have book := posts.book
  have isNew := posts.isNew
  rw [sound.active, sound.idle] at book isNew
  have same := Ledger.post_view_same
    (FlowTable.flowRules config.flowActiveTimeoutUs config.flowIdleTimeoutUs)
    decoder.flowTable.toBook key capture
  rw [← book] at same
  obtain ⟨flow, opened, owned⟩ := posted_owned config.flowActiveTimeoutUs
    config.flowIdleTimeoutUs key capture (decoder.flowTable.toBook.view key) (sound.owned key)
  exact ⟨flow, ⟨by rw [same, opened], owned, same, isNew⟩⟩

/-- The poll of an accepted packet. -/
def acceptedPoll (decoder : Decoder) (capture : Capture) (key : FlowKey) (isNew : Bool)
    (flow : Flow) : FlowPoll :=
  pollPacket capture.pkt key isNew
    { decoder := decoder.appDecoder, flow := flow, dnsTable := decoder.dnsTable }

theorem accepted_poll_frame (decoder : Decoder) (capture : Capture) {key : FlowKey} (isNew : Bool)
    {flow : Flow} (owned : Owned key flow) :
    PollFrame key { decoder := decoder.appDecoder, flow := flow, dnsTable := decoder.dnsTable }
      (acceptedPoll decoder capture key isNew flow) :=
  poll_packet_frame capture.pkt key isNew owned

/-- The state after an accepted packet, field by field. -/
structure Accepted (decoder : Decoder) (table : FlowTable) (key : FlowKey) (polled : FlowPoll)
    (after : Decoder) : Prop where
  config : after.config = decoder.config
  flows : after.flowTable = { table with flows := table.flows.insert key polled.flow }
  appDecoder : after.appDecoder = polled.decoder
  dnsTable : after.dnsTable = polled.dnsTable

theorem Accepts.accepted (accepts : Accepts decoder capture key added table) {flow : Flow}
    (polls : Polls config decoder capture key added table flow) :
    Accepted decoder table key (acceptedPoll decoder capture key added.isNew flow)
      (decoder.decodeCapture capture).2 := by
  have found : table.flows.lookup key = some flow := polls.opened
  rw [accepts.result]
  constructor <;> simp [decodeFlow, found, acceptedPoll]

/-- A packet acts on the view of its own key. -/
theorem Accepts.view_same (accepts : Accepts decoder capture key added table) {flow : Flow}
    (polls : Polls config decoder capture key added table flow) :
    view key (decoder.decodeCapture capture).2 =
      ({ closed := (table.toBook.view key).closed
         opened := some (acceptedPoll decoder capture key added.isNew flow).flow },
        (acceptedPoll decoder capture key added.isNew flow).decoder.flows.lookup key) := by
  have accepted := accepts.accepted polls
  simp [view, accepted.flows, accepted.appDecoder, FlowTable.toBook, Ledger.Book.view]

/-- A packet leaves the view of every other key as it is. -/
theorem Accepts.view_other (accepts : Accepts decoder capture key added table) {flow : Flow}
    (polls : Polls config decoder capture key added table flow) {other : FlowKey}
    (different : other ≠ key) :
    view other (decoder.decodeCapture capture).2 = view other decoder := by
  have accepted := accepts.accepted polls
  have frame := accepted_poll_frame decoder capture added.isNew polls.owned
  have posted := Ledger.post_view_other
    (FlowTable.flowRules decoder.flowTable.activeTimeoutUs decoder.flowTable.idleTimeoutUs)
    decoder.flowTable.toBook key capture (Ne.symm different)
  rw [← accepts.posts.book] at posted
  have sameBook : (decoder.decodeCapture capture).2.flowTable.toBook.view other =
      table.toBook.view other := by
    simp [accepted.flows, FlowTable.toBook, Ledger.Book.view, AList.lookup_insert_ne different]
  simp only [view, sameBook, posted, accepted.appDecoder]
  rw [frame.others other different]

theorem Accepts.sound (accepts : Accepts decoder capture key added table)
    (sound : Sound config decoder) : Sound config (decoder.decodeCapture capture).2 := by
  obtain ⟨flow, polls⟩ := accepts.polls sound
  have accepted := accepts.accepted polls
  constructor
  · rw [accepted.config, sound.sameConfig]
  · rw [accepted.flows, ← sound.active, ← accepts.posts.activeTimeoutUs]
  · rw [accepted.flows, ← sound.idle, ← accepts.posts.idleTimeoutUs]
  · intro other held found
    by_cases same : other = key
    · subst same
      have frame := accepted_poll_frame decoder capture added.isNew polls.owned
      rw [accepted.flows, AList.lookup_insert, Option.some.injEq] at found
      rw [← found]
      exact frame.owned
    · have unchanged := congrArg (fun seen => seen.1.opened) (accepts.view_other polls same)
      exact sound.owned other held (unchanged.symm.trans found)

end Accepted

/-- The packet bytes and the capture given to one call of `decode`. -/
structure Input where
  span : List UInt8
  capture : Capture

/-- The normalised key of the packet, if it decodes and belongs to a flow. -/
def packetKey (config : Config) (input : Input) : Option FlowKey :=
  let parsed := decodePacket input.span input.capture.pkt.reset config.verifyChecksum
  if parsed.err ≠ .none || parsed.header.isArp then none else
  match FlowTable.keyFromPacket parsed.header {} with
  | .error _ => none
  | .ok key => some key.normalize.2

def step (decoder : Decoder) (input : Input) : Decoder :=
  (decoder.decode input.span input.capture).2.2

/-- The decoder after a sequence of packets. -/
def run (config : Config) (inputs : List Input) : Decoder :=
  inputs.foldl step (new config)

section Isolation

variable {config : Config} {decoder : Decoder} {input : Input}

/-- The capture once its packet has been decoded. -/
def decodedCapture (config : Config) (input : Input) : Capture :=
  { input.capture with
    pkt := (decodePacket input.span input.capture.pkt.reset config.verifyChecksum).header }

/-- The packet does not decode. -/
def Undecoded (config : Config) (input : Input) : Prop :=
  (decodePacket input.span input.capture.pkt.reset config.verifyChecksum).err ≠ .none

theorem step_undecoded (sound : Sound config decoder) (undecoded : Undecoded config input) :
    step decoder input = decoder := by
  simp only [Undecoded, ← sound.sameConfig] at undecoded
  simp [step, decode, undecoded]

theorem step_decoded (sound : Sound config decoder) (decoded : ¬ Undecoded config input) :
    step decoder input = (decoder.decodeCapture (decodedCapture config input)).2 := by
  simp only [Undecoded] at decoded
  simp only [step, decode, sound.sameConfig, decoded, decodedCapture, if_false]

theorem packet_key_accepts {key : FlowKey} {added : FlowTable.Added} {table : FlowTable}
    (decoded : ¬ Undecoded config input)
    (accepts : Accepts decoder (decodedCapture config input) key added table) :
    packetKey config input = some key := by
  obtain ⟨raw, found, normal⟩ := accepts.posts.keyed
  have notArp := accepts.posts.notArp
  simp only [decodedCapture] at found notArp
  simp only [Undecoded, ne_eq, not_not] at decoded
  simp [packetKey, decoded, notArp, found, normal]

theorem new_sound (config : Config) : Sound config (new config) :=
  ⟨rfl, rfl, rfl, fun key flow found => by simp [new] at found⟩

theorem step_sound (sound : Sound config decoder) (input : Input) :
    Sound config (step decoder input) := by
  by_cases undecoded : Undecoded config input
  · rw [step_undecoded sound undecoded]
    exact sound
  · rw [step_decoded sound undecoded]
    rcases decode_capture_cases decoder (decodedCapture config input) with ignores |
      ⟨key, added, table, accepts⟩
    · constructor
      · rw [ignores.config, sound.sameConfig]
      · rw [ignores.flowTable, sound.active]
      · rw [ignores.flowTable, sound.idle]
      · rw [ignores.flowTable]
        exact sound.owned
    · exact accepts.sound sound

theorem Ignores.view {capture : Capture} (ignores : Ignores decoder capture) (key : FlowKey) :
    view key (decoder.decodeCapture capture).2 = view key decoder := by
  simp only [Decoder.view, ignores.flowTable, ignores.appDecoder]

theorem step_foreign (sound : Sound config decoder) {key : FlowKey}
    (foreign : packetKey config input ≠ some key) :
    view key (step decoder input) = view key decoder := by
  by_cases undecoded : Undecoded config input
  · rw [step_undecoded sound undecoded]
  · rw [step_decoded sound undecoded]
    rcases decode_capture_cases decoder (decodedCapture config input) with ignores |
      ⟨other, added, table, accepts⟩
    · exact ignores.view key
    · obtain ⟨flow, polls⟩ := accepts.polls sound
      have found := packet_key_accepts undecoded accepts
      refine accepts.view_other polls ?_
      rintro rfl
      exact foreign found

/-- A packet of the key does the same to two decoders that hold the same under the key. -/
theorem step_own {left right : Decoder} (leftSound : Sound config left)
    (rightSound : Sound config right) {key : FlowKey} (own : packetKey config input = some key)
    (same : view key left = view key right) :
    view key (step left input) = view key (step right input) := by
  by_cases undecoded : Undecoded config input
  · rw [step_undecoded leftSound undecoded, step_undecoded rightSound undecoded]
    exact same
  rw [step_decoded leftSound undecoded, step_decoded rightSound undecoded]
  have sameConfig : left.config = right.config :=
    leftSound.sameConfig.trans rightSound.sameConfig.symm
  rcases decode_capture_cases left (decodedCapture config input) with ignores |
    ⟨leftKey, leftAdded, leftTable, leftAccepts⟩
  · rcases decode_capture_cases right (decodedCapture config input) with rightIgnores |
      ⟨rightKey, rightAdded, rightTable, rightAccepts⟩
    · rw [ignores.view, rightIgnores.view, same]
    · exact absurd (sameConfig ▸ ignores.outside) rightAccepts.inside
  rcases decode_capture_cases right (decodedCapture config input) with rightIgnores |
    ⟨rightKey, rightAdded, rightTable, rightAccepts⟩
  · exact absurd (sameConfig ▸ rightIgnores.outside) leftAccepts.inside
  obtain rfl : leftKey = key :=
    Option.some.inj ((packet_key_accepts undecoded leftAccepts).symm.trans own)
  obtain rfl : rightKey = leftKey :=
    Option.some.inj ((packet_key_accepts undecoded rightAccepts).symm.trans own)
  obtain ⟨leftFlow, leftPolls⟩ := leftAccepts.polls leftSound
  obtain ⟨rightFlow, rightPolls⟩ := rightAccepts.polls rightSound
  have sameBook : left.flowTable.toBook.view rightKey = right.flowTable.toBook.view rightKey :=
    congrArg Prod.fst same
  have sameAdded : leftTable.toBook.view rightKey = rightTable.toBook.view rightKey := by
    rw [leftPolls.book, rightPolls.book, sameBook]
  have sameNew : leftAdded.isNew = rightAdded.isNew := by
    rw [leftPolls.isNew, rightPolls.isNew, sameBook]
  have sameFlow : leftFlow = rightFlow := by
    have opened := leftPolls.opened
    rw [sameAdded, rightPolls.opened] at opened
    exact (Option.some.inj opened).symm
  subst sameFlow
  have start : SamePoll rightKey
      { decoder := left.appDecoder, flow := leftFlow, dnsTable := left.dnsTable }
      { decoder := right.appDecoder, flow := leftFlow, dnsTable := right.dnsTable } :=
    ⟨rfl, congrArg Prod.snd same⟩
  have polled := poll_packet_same (decodedCapture config input).pkt rightKey rightAdded.isNew
    start leftPolls.owned
  rw [leftAccepts.view_same leftPolls, rightAccepts.view_same rightPolls, sameAdded, sameNew]
  simp only [acceptedPoll, polled.flow, polled.node]

/-- The packets of one key. -/
def ofKey (config : Config) (key : FlowKey) (inputs : List Input) : List Input :=
  inputs.filter fun input => packetKey config input = some key

theorem isolated (config : Config) (key : FlowKey) :
    Unwinding.Isolated step (Sound config) (view key)
      (fun input => decide (packetKey config input = some key)) where
  keeps _ input sound := step_sound sound input
  foreign _ _ sound foreign := step_foreign sound (by simpa using foreign)
  own _ _ _ leftSound rightSound own same :=
    step_own leftSound rightSound (by simpa using own) same

/-- What the decoder ends up with under a key is what the packets of that key alone lead to,
however they are interleaved with the packets of other flows. -/
theorem flows_are_isolated (config : Config) (inputs : List Input) (key : FlowKey) :
    let own := run config (ofKey config key inputs)
    Ledger.ofKey key (run config inputs).flowTable.completed =
        Ledger.ofKey key own.flowTable.completed ∧
      (run config inputs).flowTable.flows.lookup key = own.flowTable.flows.lookup key ∧
      (run config inputs).appDecoder.flows.lookup key = own.appDecoder.flows.lookup key ∧
      ∀ others : List Input, ofKey config key others = ofKey config key inputs →
        view key (run config others) = view key (run config inputs) := by
  intro own
  have alone : ∀ inputs : List Input,
      view key (run config inputs) = view key (run config (ofKey config key inputs)) :=
    fun inputs => Unwinding.view_run_eq (isolated config key) inputs _ _ (new_sound config)
      (new_sound config) rfl
  have seen := alone inputs
  refine ⟨congrArg (fun view => view.1.closed) seen, congrArg (fun view => view.1.opened) seen,
    congrArg Prod.snd seen, ?_⟩
  intro others sameKey
  rw [alone others, alone inputs, sameKey]

end Isolation

end Decoder

end PcapAnalyzer
