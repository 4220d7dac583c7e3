import PcapAnalyzer.Decode.Footprint
import PcapAnalyzer.Flow.Timestamps

/-!
# Names asked over UDP

What the decoder holds of a DNS conversation over UDP is what an observer remembers who hears
only the datagrams of that conversation: when its flow was seen first and last, and what each
side said since. A flow that starts anew forgets what was said, but only once somebody speaks.
-/

namespace PcapAnalyzer

open AppDecoder (datagramMessage)

set_option autoImplicit false

/-- What an observer of a conversation notices of a packet. -/
structure Overheard where
  tsUs : UInt64
  isReverse : Bool
  payload : List UInt8

/-- When the flow was seen first and last, and what was said; `none` as long as nothing was. -/
structure Observer where
  times : Option (UInt64 × UInt64) := none
  said : Option (List Overheard) := none

namespace Observer

/-- A packet older than the latest one starts no flow. -/
def startsFlow (config : Config) (times : Option (UInt64 × UInt64)) (tsUs : UInt64) : Bool :=
  match times with
  | none => true
  | some (first, last) => tsUs ≥ last ∧ (tsUs - last > config.flowIdleTimeoutUs ∨
      (config.flowActiveTimeoutUs ≠ 0 ∧ tsUs - first > config.flowActiveTimeoutUs))

def timesAfter (config : Config) (times : Option (UInt64 × UInt64)) (tsUs : UInt64) :
    Option (UInt64 × UInt64) :=
  if startsFlow config times tsUs then some (tsUs, tsUs)
  else times.map fun seen => (seen.1, tsUs)

def observe (config : Config) (observer : Observer) (datagram : Overheard) : Observer where
  times := timesAfter config observer.times datagram.tsUs
  said :=
    if datagram.payload = [] then observer.said
    else if startsFlow config observer.times datagram.tsUs then some [datagram]
    else some (observer.said.getD [] ++ [datagram])

end Observer

/-- The messages of a list of datagrams, and how many of them are none. -/
def readDatagrams (payloads : List (List UInt8)) : Applications where
  dnsMessages := payloads.filterMap fun payload =>
    (Dns.parse payload .big).toOption.map Prod.fst
  decodeFailures := payloads.countP fun payload => (Dns.parse payload .big).toOption.isNone

/-- What one of the sides said. -/
def saidBy (isReverse : Bool) (said : List Overheard) : List (List UInt8) :=
  (said.filter fun datagram => datagram.isReverse = isReverse).map Overheard.payload

/-- The application state of a conversation. -/
def readSaid (said : List Overheard) : FlowApplications where
  fwd := readDatagrams (saidBy false said)
  rev := readDatagrams (saidBy true said)

theorem read_datagrams_append_one (payloads : List (List UInt8)) (payload : List UInt8)
    (dnsTable : DnsTable) : readDatagrams (payloads ++ [payload]) =
      (datagramMessage payload (readDatagrams payloads) dnsTable).1 := by
  cases parsed : Dns.parse payload .big with
  | error err => simp [readDatagrams, datagramMessage, parsed, Except.toOption]
  | ok read => simp [readDatagrams, datagramMessage, parsed, Except.toOption]

theorem read_said_self (said : List Overheard) (isReverse : Bool) :
    (readSaid said).self isReverse = readDatagrams (saidBy isReverse said) := by
  cases isReverse <;> rfl

/-- A datagram is read into the side that said it. -/
theorem read_said_append_one (said : List Overheard) (datagram : Overheard) (dnsTable : DnsTable) :
    readSaid (said ++ [datagram]) = .sides datagram.isReverse
      (datagramMessage datagram.payload ((readSaid said).self datagram.isReverse) dnsTable).1
      ((readSaid said).self (!datagram.isReverse)) := by
  have own : saidBy datagram.isReverse (said ++ [datagram]) =
      saidBy datagram.isReverse said ++ [datagram.payload] := by
    simp [saidBy]
  have other : saidBy (!datagram.isReverse) (said ++ [datagram]) =
      saidBy (!datagram.isReverse) said := by
    simp [saidBy]
  have read := read_datagrams_append_one (saidBy datagram.isReverse said) datagram.payload dnsTable
  rw [read_said_self, read_said_self, ← read, ← own, ← other]
  cases datagram.isReverse <;> rfl

theorem read_said_nil : readSaid [] = {} := rfl

namespace Decoder

open AppDecoder

/-- The datagram of a conversation that an input carries: it decodes, belongs to the flow and the
filter lets it pass. -/
def datagramOf (config : Config) (key : FlowKey) (input : Input) : Option Overheard :=
  let capture := decodedCapture config input
  if packetKey config input = some key ∧ filtered config.filter capture.pkt = false then
    some {
      tsUs := capture.tsUs
      isReverse := FlowTable.direction capture
      payload := capture.pkt.payload }
  else none

/-- The observer after a run. -/
def observed (config : Config) (key : FlowKey) (inputs : List Input) : Observer :=
  (inputs.filterMap (datagramOf config key)).foldl (Observer.observe config) {}

section Datagrams

variable {config : Config} {decoder : Decoder} {key : FlowKey} {input : Input}

/-- Only UDP packets belong to a flow of that protocol. -/
theorem key_transport {pkt : Packet} {raw : FlowKey}
    (found : FlowTable.keyFromPacket pkt {} = .ok raw) (udp : raw.protocol = Ip.protocolUdp) :
    ∃ header, pkt.transport = .udp header := by
  have named := Conversation.key_protocol found
  rw [udp] at named
  cases transport : pkt.transport with
  | udp header => exact ⟨header, rfl⟩
  | tcp header | icmp header | icmpv6 header =>
      rw [transport] at named
      exact absurd (Option.some.inj named) (by decide)
  | monostate =>
      rw [transport] at named
      cases named

/-- The decoder holds what the observer remembers. -/
structure Mirrors (key : FlowKey) (decoder : Decoder) (observer : Observer) : Prop where
  times : (decoder.flowTable.toBook.view key).opened.map
    (fun flow => (flow.firstSeen, flow.lastSeen)) = observer.times
  node : decoder.appDecoder.flows.lookup key = observer.said.map readSaid

theorem opens_starts_flow (config : Config) (opened : Option Flow) (capture : Pcap.Capture) :
    (FlowTable.flowRules config.flowActiveTimeoutUs config.flowIdleTimeoutUs).opens opened
        capture = Observer.startsFlow config
      (opened.map fun flow => (flow.firstSeen, flow.lastSeen)) capture.tsUs := by
  cases opened with
  | none => rfl
  | some flow =>
      simp only [Ledger.Rules.opens, FlowTable.flowRules, FlowTable.isExpired, FlowTable.expiry,
        Option.map_some, Observer.startsFlow]
      rw [Bool.eq_iff_iff]
      by_cases older : capture.tsUs < flow.lastSeen
      · simp [older, UInt64.not_le.mpr older]
      · simp only [older, UInt64.not_lt.mp older, if_false, Bool.or_eq_true, Bool.and_eq_true,
          decide_eq_true_eq, gt_iff_lt, true_and]
        exact or_congr Iff.rfl (and_congr decide_eq_true_iff Iff.rfl)

/-- A posting moves the times of the open flow as the observer does. -/
theorem post_times (config : Config) (key : FlowKey) (view : Ledger.View Flow)
    (capture : Pcap.Capture) :
    ((FlowTable.flowRules config.flowActiveTimeoutUs config.flowIdleTimeoutUs).postView key capture
        view).opened.map (fun flow => (flow.firstSeen, flow.lastSeen)) =
      Observer.timesAfter config
        (view.opened.map fun flow => (flow.firstSeen, flow.lastSeen)) capture.tsUs := by
  unfold Ledger.Rules.postView Observer.timesAfter
  rw [opens_starts_flow]
  split_ifs
  · simp [FlowTable.flowRules]
  · cases opened : view.opened with
    | none => rfl
    | some flow => simp [FlowTable.flowRules]

theorem observed_append_one (config : Config) (key : FlowKey) (inputs : List Input)
    (input : Input) : observed config key (inputs ++ [input]) =
      (datagramOf config key input).elim (observed config key inputs)
        (Observer.observe config (observed config key inputs)) := by
  unfold observed
  rw [List.filterMap_append, List.foldl_append]
  cases heard : datagramOf config key input <;> simp [heard]

/-- A poll reads a datagram as the observer hears it. -/
theorem poll_mirrors {pkt : Packet} {header : Udp.Header} {poll : FlowPoll} {isNew : Bool}
    {observer : Observer} (transport : pkt.transport = .udp header) (dns : key.isDns = true)
    (owned : Owned key poll.flow)
    (node : poll.decoder.flows.lookup key = observer.said.map readSaid) {datagram : Overheard}
    (turned : datagram.isReverse = poll.flow.isReverse) (heard : datagram.payload = pkt.payload)
    (starts : isNew = Observer.startsFlow config observer.times datagram.tsUs) :
    (pollPacket pkt key isNew poll).decoder.flows.lookup key =
      (Observer.observe config observer datagram).said.map readSaid := by
  simp only [pollPacket, transport, Observer.observe, heard, ← starts]
  by_cases empty : pkt.payload = []
  · rw [poll_datagram_plain isNew (Or.inl empty), if_pos empty]
    exact node
  rw [poll_datagram_app isNew empty dns owned, if_neg empty]
  have start : poll.decoder.startNode key isNew =
      readSaid (if isNew then [] else observer.said.getD []) := by
    unfold startNode AppDecoder.node
    split_ifs
    · exact read_said_nil.symm
    · rw [node]
      cases observer.said <;> rfl
  have read := read_said_append_one (if isNew then [] else observer.said.getD []) datagram
    poll.dnsTable
  rw [turned, heard] at read
  simp only [set_node_lookup, start]
  rw [← read]
  split_ifs <;> rfl

/-- Reading a datagram changes no time of the flow. -/
theorem poll_times {pkt : Packet} {header : Udp.Header} {poll : FlowPoll} (isNew : Bool)
    (transport : pkt.transport = .udp header) (owned : Owned key poll.flow) :
    (pollPacket pkt key isNew poll).flow.firstSeen = poll.flow.firstSeen ∧
      (pollPacket pkt key isNew poll).flow.lastSeen = poll.flow.lastSeen := by
  simp only [pollPacket, transport]
  by_cases plain : pkt.payload = [] ∨ key.isDns = false
  · rw [poll_datagram_plain isNew plain]
    exact ⟨rfl, rfl⟩
  · simp only [not_or, Bool.not_eq_false] at plain
    rw [poll_datagram_app isNew plain.1 plain.2 owned]
    exact ⟨rfl, rfl⟩

theorem Mirrors.same {observer : Observer} (mirrors : Mirrors key decoder observer)
    {after : Decoder} (unchanged : view key after = view key decoder) :
    Mirrors key after observer := by
  have book : after.flowTable.toBook.view key = decoder.flowTable.toBook.view key :=
    congrArg Prod.fst unchanged
  have stored : after.appDecoder.flows.lookup key = decoder.appDecoder.flows.lookup key :=
    congrArg Prod.snd unchanged
  constructor
  · rw [book]
    exact mirrors.times
  · rw [stored]
    exact mirrors.node

/-- An accepted packet of the conversation is a datagram that the observer hears. -/
theorem Accepts.mirrors {capture : Pcap.Capture} {added : FlowTable.Added} {table : FlowTable}
    (accepts : Accepts decoder capture key added table) (udp : key.protocol = Ip.protocolUdp)
    (dns : key.isDns = true) (sound : Sound config decoder) {observer : Observer}
    (mirrors : Mirrors key decoder observer) :
    Mirrors key (decoder.decodeCapture capture).2 (Observer.observe config observer
      { tsUs := capture.tsUs
        isReverse := FlowTable.direction capture
        payload := capture.pkt.payload }) := by
  obtain ⟨counted, polls⟩ := accepts.polls sound
  obtain ⟨flow, recorded, held⟩ := polls.counts
  obtain ⟨raw, found, normal⟩ := accepts.posts.keyed
  have protocol : raw.protocol = Ip.protocolUdp := by
    rw [← FlowKey.normalize_protocol, normal, udp]
  obtain ⟨header, transport⟩ := key_transport found protocol
  have starts := opens_starts_flow config (decoder.flowTable.toBook.view key).opened capture
  rw [← polls.isNew, mirrors.times] at starts
  constructor
  · have book : (decoder.decodeCapture capture).2.flowTable.toBook.view key = _ :=
      congrArg Prod.fst (accepts.view_same polls)
    have polled := @poll_times key capture.pkt header
      { decoder := decoder.appDecoder, flow := counted, dnsTable := decoder.dnsTable } added.isNew
      transport polls.owned
    have moved := post_times config key (decoder.flowTable.toBook.view key) capture
    rw [← polls.book, polls.opened, mirrors.times] at moved
    rw [book]
    simp only [Option.map_some, acceptedPoll, polled.1, polled.2]
    exact moved
  · rw [(accepts.accepted polls).appDecoder]
    apply poll_mirrors transport dns polls.owned mirrors.node _ rfl starts
    rw [recorded, count_packet_reverse]

theorem step_mirrors (udp : key.protocol = Ip.protocolUdp) (dns : key.isDns = true)
    (sound : Sound config decoder) {observer : Observer} (mirrors : Mirrors key decoder observer) :
    Mirrors key (step decoder input) ((datagramOf config key input).elim observer
      (Observer.observe config observer)) := by
  by_cases own : packetKey config input = some key
  swap
  · have silent : datagramOf config key input = none := by simp [datagramOf, own]
    rw [silent]
    exact mirrors.same (step_foreign sound own)
  have decodes : ¬ Undecoded config input := by
    intro undecoded
    simp only [Undecoded] at undecoded
    simp [packetKey, undecoded] at own
  rw [step_decoded sound decodes]
  rcases decode_capture_cases decoder (decodedCapture config input) with ignores |
    ⟨other, added, table, accepts⟩
  · have refused : filtered config.filter (decodedCapture config input).pkt = true := by
      have outside := ignores.outside
      rw [sound.sameConfig] at outside
      by_contra passes
      exact (packet_key_inside own (by simpa using passes)).2 outside
    have silent : datagramOf config key input = none := by simp [datagramOf, refused]
    rw [silent]
    exact mirrors.same (ignores.view key)
  · obtain rfl : other = key :=
      Option.some.inj ((packet_key_accepts decodes accepts).symm.trans own)
    have passes : filtered config.filter (decodedCapture config input).pkt = false :=
      sound.sameConfig ▸ accepts.passes
    have heard : datagramOf config other input = some
        { tsUs := (decodedCapture config input).tsUs
          isReverse := FlowTable.direction (decodedCapture config input)
          payload := (decodedCapture config input).pkt.payload } := by
      simp [datagramOf, own, passes]
    rw [heard, Option.elim_some]
    exact accepts.mirrors udp dns sound mirrors

theorem run_mirrors (config : Config) (udp : key.protocol = Ip.protocolUdp) (dns : key.isDns = true)
    (inputs : List Input) : Mirrors key (run config inputs) (observed config key inputs) := by
  induction inputs using List.reverseRecOn with
  | nil => exact ⟨rfl, rfl⟩
  | append_singleton inputs input ih =>
      rw [run_append_one, observed_append_one]
      exact step_mirrors udp dns (run_sound config inputs) ih

end Datagrams

/-- In every state of every run the decoder has, of a DNS conversation over UDP, exactly the
messages in what its observer remembers, side by side and in the order of the capture, and its
flow has the times the observer has. -/
theorem datagrams_are_heard (config : Config) (inputs : List Input) (key : FlowKey)
    (udp : key.protocol = Ip.protocolUdp) (dns : key.isDns = true) :
    (∀ isReverse, (run config inputs).appDecoder.getApplications key isReverse =
      (observed config key inputs).said.map fun said => readDatagrams (saidBy isReverse said)) ∧
    ((run config inputs).flowTable.flows.lookup key).map
      (fun flow => (flow.firstSeen, flow.lastSeen)) = (observed config key inputs).times := by
  have mirrors := run_mirrors config udp dns inputs
  refine ⟨fun isReverse => ?_, mirrors.times⟩
  rw [getApplications, mirrors.node, Option.map_map]
  cases isReverse <;> rfl

def askedKey : FlowKey where
  srcIp := Address.copyV4 0x0A000001 Address.zero
  dstIp := Address.copyV4 0x0A000002 Address.zero
  isIpv4 := true
  srcPort := 5000
  dstPort := 53
  protocol := Ip.protocolUdp

/-- The second query comes after thirty seconds: it starts the flow anew, and the first one is
forgotten. -/
theorem datagrams_are_heard_anew :
    (run { verifyChecksum := false } [queryAt 0, queryAt 31000000,
        queryAt 31000001]).appDecoder.getApplications askedKey false =
      some (readDatagrams [queryFrame.drop 42, queryFrame.drop 42]) := by
  have heard := datagrams_are_heard { verifyChecksum := false } [queryAt 0, queryAt 31000000,
    queryAt 31000001] askedKey rfl rfl
  exact (heard.1 false).trans (by decide +kernel)

end Decoder

end PcapAnalyzer
