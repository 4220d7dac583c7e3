import PcapAnalyzer.Analysis.NamesByAddress
import PcapAnalyzer.Analysis.Reporting

/-!
# Sessions of a decoder

`finish` retires all flows and prunes the application state; decoding may go on afterwards. Over
any interleaving of the two, no flow that is polled has a pointer to a node that is gone, and what
is decoded after a `finish` is decoded as by a new decoder.
-/

namespace PcapAnalyzer

open Pcap (Capture)

set_option autoImplicit false

section Erasing

variable {Key Value : Type} [DecidableEq Key]

/-- Erasing some of the keys that a walk over a table comes across. -/
theorem erase_walk_lookup (keep : Key → Bool) (visited : List Key) (table : AList fun _ : Key =>
    Value) (key : Key) :
    (visited.foldl (fun table key => if keep key then table else table.erase key) table).lookup
        key = if key ∈ visited ∧ keep key = false then none else table.lookup key := by
  induction visited generalizing table with
  | nil => simp
  | cons next visited ih =>
      rw [List.foldl_cons, ih]
      by_cases kept : keep next = true
      · rw [if_pos kept]
        by_cases same : key = next
        · subst same
          simp [kept]
        · simp [same]
      · rw [if_neg kept]
        by_cases same : key = next
        · subst same
          simp [kept]
        · simp [same, AList.lookup_erase_ne same]

end Erasing

namespace AppDecoder

/-- `prune`, where `visited` lists the keys in the order in which the map is iterated. -/
def prune (decoder : AppDecoder) (table : FlowTable) (visited : List FlowKey) : AppDecoder :=
  { flows := visited.foldl (fun flows key =>
      if (table.flows.lookup key).isSome then flows else flows.erase key) decoder.flows }

/-- Whatever the order is, the nodes of active flows stay and all others go. -/
theorem prune_lookup {decoder : AppDecoder} (table : FlowTable) {visited : List FlowKey}
    (walked : visited.Perm decoder.flows.keys) (key : FlowKey) :
    (decoder.prune table visited).flows.lookup key =
      if key ∈ table.flows then decoder.flows.lookup key else none := by
  have erased := erase_walk_lookup (fun key => (table.flows.lookup key).isSome) visited
    decoder.flows key
  rw [prune, erased]
  by_cases active : key ∈ table.flows
  · simp [active, AList.lookup_isSome.mpr active]
  · have absent : table.flows.lookup key = none := AList.lookup_eq_none.mpr active
    by_cases stored : key ∈ decoder.flows
    · have seen : key ∈ visited := walked.mem_iff.mpr (AList.mem_keys.mp stored)
      simp [active, absent, seen]
    · simp [active, AList.lookup_eq_none.mpr stored]

end AppDecoder

namespace Decoder

open AppDecoder

/-- `iteration` and `visited` list the two maps in the orders in which they are iterated. -/
def finish (decoder : Decoder) (iteration : List (FlowKey × Flow)) (visited : List FlowKey) :
    Decoder :=
  let flowTable := decoder.flowTable.flush iteration
  { decoder with
    decoded := 0
    flowTable := flowTable
    appDecoder := decoder.appDecoder.prune flowTable visited }

/-- The orders are those of the maps of the decoder. -/
structure Walks (decoder : Decoder) (iteration : List (FlowKey × Flow)) (visited : List FlowKey) :
    Prop where
  flows : iteration.Perm decoder.flowTable.activeFlows
  nodes : visited.Perm decoder.appDecoder.flows.keys

/-- The decoders that calls of `decode` and `finish` lead to. -/
inductive Session (config : Config) : Decoder → Prop where
  | start : Session config (new config)
  | decode {decoder : Decoder} (session : Session config decoder) (input : Input) :
      Session config (step decoder input)
  | finish {decoder : Decoder} (session : Session config decoder)
      {iteration : List (FlowKey × Flow)} {visited : List FlowKey}
      (walks : Walks decoder iteration visited) : Session config (decoder.finish iteration visited)

section Pointers

/-- The pointer of the flow is unset or names a node that is there, that of the flow's key. -/
def PointsHome (decoder : AppDecoder) (key : FlowKey) (flow : Flow) : Prop :=
  ∀ node, flow.appState = some node → node = key ∧ node ∈ decoder.flows

theorem PointsHome.owned {decoder : AppDecoder} {key : FlowKey} {flow : Flow}
    (home : PointsHome decoder key flow) : Owned key flow := by
  cases pointer : flow.appState with
  | none => exact Or.inl pointer
  | some node => exact Or.inr (by rw [pointer, (home node pointer).1])

/-- What holds in every state of a session. -/
structure Pointers (config : Config) (decoder : Decoder) : Prop where
  sound : Sound config decoder
  home : ∀ key flow, decoder.flowTable.flows.lookup key = some flow →
    PointsHome decoder.appDecoder key flow
  listed : ∀ key ∈ decoder.appDecoder.flows, decoder.flowTable.flowsOf key ≠ []
  read : ∀ key ∈ decoder.appDecoder.flows, key.decoded = true

theorem set_node_mem (decoder : AppDecoder) (key : FlowKey) (applications : FlowApplications)
    {other : FlowKey} : other ∈ (decoder.setNode key applications).flows ↔
      other = key ∨ other ∈ decoder.flows :=
  AList.mem_insert _

/-- A poll leaves nodes where they are and a pointer only to a node that is there. -/
theorem poll_packet_home (pkt : Packet) {key : FlowKey} (isNew : Bool) {poll : FlowPoll}
    (home : PointsHome poll.decoder key poll.flow) :
    PointsHome (pollPacket pkt key isNew poll).decoder key (pollPacket pkt key isNew poll).flow ∧
      ∀ other ∈ poll.decoder.flows, other ∈ (pollPacket pkt key isNew poll).decoder.flows := by
  have owned : Owned key poll.flow := home.owned
  cases transport : pkt.transport with
  | tcp tcp =>
      simp only [pollPacket, transport]
      have sent : Owned key (reassemble poll.flow tcp pkt.payload) := by
        simpa only [Owned, reassemble_app_state] using owned
      by_cases plain : key.isDns = false ∧ key.isHttp = false
      · rw [poll_flow_plain isNew plain]
        refine ⟨?_, fun other member => member⟩
        intro node pointer
        rw [reassemble_app_state] at pointer
        exact home node pointer
      · rw [poll_flow_app isNew plain sent]
        simp only [PointsHome, Option.some.injEq, forall_eq', true_and, set_node_mem, true_or]
        exact fun other member => Or.inr member
  | udp udp =>
      simp only [pollPacket, transport]
      by_cases plain : pkt.payload = [] ∨ key.isDns = false
      · rw [poll_datagram_plain isNew plain]
        exact ⟨home, fun other member => member⟩
      · simp only [not_or, Bool.not_eq_false] at plain
        rw [poll_datagram_app isNew plain.1 plain.2 owned]
        simp only [PointsHome, Option.some.injEq, forall_eq', true_and, set_node_mem, true_or]
        exact fun other member => Or.inr member
  | monostate | icmp _ | icmpv6 _ =>
      simp only [pollPacket, transport]
      exact ⟨home, fun other member => member⟩

theorem count_packet_pointer (flow : Flow) (isReverse : Bool) (capture : Capture) :
    (FlowTable.countPacket flow isReverse capture).appState = flow.appState := by
  unfold FlowTable.countPacket
  split_ifs <;> rfl

section Accepted

variable {config : Config} {decoder : Decoder} {capture : Capture} {key : FlowKey}
  {added : FlowTable.Added} {table : FlowTable} {flow : Flow}

/-- The flow that `addPacket` hands to the application decoder is fresh or was active before. -/
theorem posts_home (posts : FlowTable.Posts decoder.flowTable capture key added table)
    (home : ∀ key flow, decoder.flowTable.flows.lookup key = some flow →
      PointsHome decoder.appDecoder key flow) (found : table.flows.lookup key = some flow) :
    PointsHome decoder.appDecoder key flow := by
  intro node pointer
  have opened := congrArg Ledger.View.opened (Ledger.post_view_same
    (FlowTable.flowRules decoder.flowTable.activeTimeoutUs decoder.flowTable.idleTimeoutUs)
    decoder.flowTable.toBook key capture)
  rw [← posts.book] at opened
  have posted := opened.symm.trans found
  rw [Ledger.Rules.postView] at posted
  split_ifs at posted
  · obtain rfl := Option.some.inj posted
    simp only [FlowTable.flowRules, count_packet_pointer, FlowTable.newFlow] at pointer
    split_ifs at pointer
  · obtain ⟨before, held, rfl⟩ := Option.map_eq_some_iff.mp posted
    simp only [FlowTable.flowRules, count_packet_pointer] at pointer
    exact home key before held node pointer

/-- Flows that are listed stay listed. -/
theorem Accepts.listed (accepts : Accepts decoder capture key added table)
    (polls : Polls config decoder capture key added table flow) (other : FlowKey)
    (kept : other = key ∨ decoder.flowTable.flowsOf other ≠ []) :
    (decoder.decodeCapture capture).2.flowTable.flowsOf other ≠ [] := by
  by_cases same : other = key
  · have active := (accepts.active polls other).mpr (Or.inl same)
    obtain ⟨held, found⟩ := Option.isSome_iff_exists.mp (AList.lookup_isSome.mpr active)
    simp [FlowTable.flowsOf, found]
  · have unchanged := congrArg Prod.fst (accepts.view_other polls same)
    have before := kept.resolve_left same
    have sameFlows : (decoder.decodeCapture capture).2.flowTable.flowsOf other =
        decoder.flowTable.flowsOf other := by
      have closed := congrArg Ledger.View.closed unchanged
      have opened := congrArg Ledger.View.opened unchanged
      simp only [view, FlowTable.toBook, Ledger.Book.view, Ledger.ofKey] at closed opened
      rw [FlowTable.flowsOf, FlowTable.flowsOf, closed, opened]
    rwa [sameFlows]

theorem Accepts.pointers (accepts : Accepts decoder capture key added table)
    (pointers : Pointers config decoder) :
    Pointers config (decoder.decodeCapture capture).2 := by
  obtain ⟨flow, polls⟩ := accepts.polls pointers.sound
  have accepted := accepts.accepted polls
  have frame := accepted_poll_frame decoder capture added.isNew polls.owned
  have home : PointsHome (FlowPoll.mk decoder.appDecoder flow decoder.dnsTable).decoder key
      (FlowPoll.mk decoder.appDecoder flow decoder.dnsTable).flow :=
    posts_home accepts.posts pointers.home polls.opened
  obtain ⟨polledHome, stays⟩ := poll_packet_home capture.pkt added.isNew home
  have kept : ∀ other ≠ key, (other ∈ (decoder.decodeCapture capture).2.appDecoder.flows ↔
      other ∈ decoder.appDecoder.flows) := by
    intro other different
    rw [← AList.lookup_isSome, ← AList.lookup_isSome, accepted.appDecoder,
      frame.others other different]
  constructor
  · exact accepts.sound pointers.sound
  · intro other held found node pointer
    by_cases same : other = key
    · subst same
      rw [accepted.flows, AList.lookup_insert, Option.some.injEq] at found
      rw [accepted.appDecoder]
      rw [← found] at pointer
      exact polledHome node pointer
    · have unchanged := congrArg (fun seen => seen.1.opened) (accepts.view_other polls same)
      have before := pointers.home other held (unchanged.symm.trans found) node pointer
      rw [accepted.appDecoder]
      exact ⟨before.1, stays node before.2⟩
  · intro other stored
    refine accepts.listed polls other ?_
    by_cases same : other = key
    · exact Or.inl same
    · exact Or.inr (pointers.listed other ((kept other same).mp stored))
  · intro other stored
    by_cases same : other = key
    · subst same
      obtain ⟨raw, found, rfl⟩ := accepts.posts.keyed
      by_cases read : reads capture.pkt raw.normalize.2 = true
      · exact reads_decoded found read
      · rw [accepted.appDecoder, acceptedPoll,
          (poll_packet_unread (by simpa using read)).1] at stored
        exact pointers.read _ stored
    · exact pointers.read other ((kept other same).mp stored)

end Accepted

theorem new_pointers (config : Config) : Pointers config (new config) where
  sound := new_sound config
  home key flow found := absurd found (by simp [new])
  listed key stored := absurd stored (AList.notMem_empty key)
  read key stored := absurd stored (AList.notMem_empty key)

theorem step_pointers {config : Config} {decoder : Decoder} (pointers : Pointers config decoder)
    (input : Input) : Pointers config (step decoder input) := by
  by_cases undecoded : Undecoded config input
  · rw [step_undecoded pointers.sound undecoded]
    exact pointers
  · have sound := step_sound pointers.sound input
    rw [step_decoded pointers.sound undecoded] at sound ⊢
    rcases decode_capture_cases decoder (decodedCapture config input) with ignores |
      ⟨key, added, table, accepts⟩
    · constructor
      · exact sound
      · rw [ignores.flowTable, ignores.appDecoder]
        exact pointers.home
      · rw [ignores.flowTable, ignores.appDecoder]
        exact pointers.listed
      · rw [ignores.appDecoder]
        exact pointers.read
    · exact accepts.pointers pointers

/-- Nothing is active after `finish`, and no application state is left. -/
theorem finish_empty {decoder : Decoder} {iteration : List (FlowKey × Flow)}
    {visited : List FlowKey} (walks : Walks decoder iteration visited) :
    (decoder.finish iteration visited).flowTable.flows = ∅ ∧
      (decoder.finish iteration visited).appDecoder.flows = ∅ := by
  refine ⟨rfl, ?_⟩
  have gone : ∀ key, key ∉ (decoder.finish iteration visited).appDecoder.flows := by
    intro key
    have pruned := prune_lookup (decoder.flowTable.flush iteration) walks.nodes key
    exact AList.lookup_eq_none.mp (pruned.trans (if_neg (AList.notMem_empty key)))
  apply AList.ext
  cases stored : (decoder.finish iteration visited).appDecoder.flows.entries with
  | nil => rfl
  | cons entry rest =>
      refine absurd ?_ (gone entry.1)
      rw [AList.mem_keys, AList.keys, List.keys, stored]
      exact List.mem_cons_self

theorem finish_pointers {config : Config} {decoder : Decoder} (pointers : Pointers config decoder)
    {iteration : List (FlowKey × Flow)} {visited : List FlowKey}
    (walks : Walks decoder iteration visited) :
    Pointers config (decoder.finish iteration visited) := by
  obtain ⟨noFlows, noNodes⟩ := finish_empty walks
  have sound := pointers.sound
  constructor
  · refine ⟨sound.sameConfig, sound.active, sound.idle, ?_⟩
    intro key flow found
    rw [noFlows] at found
    cases found
  · intro key flow found
    rw [noFlows] at found
    cases found
  · intro key stored
    rw [noNodes] at stored
    exact absurd stored (AList.notMem_empty key)
  · intro key stored
    rw [noNodes] at stored
    exact absurd stored (AList.notMem_empty key)

theorem session_pointers {config : Config} {decoder : Decoder} (session : Session config decoder) :
    Pointers config decoder := by
  induction session with
  | start => exact new_pointers config
  | decode _ input ih => exact step_pointers ih input
  | finish _ walks ih => exact finish_pointers ih walks

/-- All flows are still listed after `finish`. -/
theorem finish_lists {decoder : Decoder} {iteration : List (FlowKey × Flow)}
    {visited : List FlowKey} (walks : Walks decoder iteration visited) (key : FlowKey) :
    (decoder.finish iteration visited).flowTable.flowsOf key = decoder.flowTable.flowsOf key := by
  have active := Ledger.of_key_perm_entries decoder.flowTable.flows key iteration walks.flows
  rw [Ledger.ofKey] at active
  simp only [FlowTable.flowsOf, finish, FlowTable.flush, AList.lookup_empty, Option.toList_none,
    List.append_nil, List.filter_append, List.map_append, active]

/-- Whatever the order of packets and of calls of `finish` is: a flow that is active or handed to
the application decoder has no pointer or one to the node of its own key, which is there; a node
belongs to a key that is read and whose flows are listed; and `finish` leaves no flow active and
no node behind but lists all flows. -/
theorem app_state_never_dangles (config : Config) (decoder : Decoder)
    (session : Session config decoder) :
    (∀ key flow, decoder.flowTable.flows.lookup key = some flow →
      PointsHome decoder.appDecoder key flow) ∧
    (∀ capture flow, (decoder.flowTable.addPacket capture).1.flow = true →
      (decoder.flowTable.addPacket capture).2.flows.lookup
        (decoder.flowTable.addPacket capture).1.key = some flow →
      PointsHome decoder.appDecoder (decoder.flowTable.addPacket capture).1.key flow) ∧
    (∀ key ∈ decoder.appDecoder.flows,
      key.decoded = true ∧ decoder.flowTable.flowsOf key ≠ []) ∧
    ∀ iteration visited, Walks decoder iteration visited →
      let finished := decoder.finish iteration visited
      finished.flowTable.flows = ∅ ∧ finished.appDecoder.flows = ∅ ∧
        ∀ key, finished.flowTable.flowsOf key = decoder.flowTable.flowsOf key := by
  have pointers := session_pointers session
  refine ⟨pointers.home, ?_, ?_, ?_⟩
  · intro capture flow handed found
    rcases FlowTable.add_packet_cases decoder.flowTable capture with ⟨-, result⟩ |
      ⟨_, -, -, result⟩ | ⟨key, posts⟩
    · rw [result] at handed
      cases handed
    · rw [result] at handed
      cases handed
    · rw [posts.outKey] at found ⊢
      exact posts_home posts pointers.home found
  · intro key stored
    exact ⟨pointers.read key stored, pointers.listed key stored⟩
  · intro iteration visited walks
    exact ⟨(finish_empty walks).1, (finish_empty walks).2, finish_lists walks⟩

/-- A query, the end of the session, and the same query again. -/
theorem app_state_never_dangles_query :
    let config : Config := { verifyChecksum := false }
    let before := step (new config) (queryAt 0)
    let decoder := step (before.finish before.flowTable.activeFlows before.appDecoder.flows.keys)
      (queryAt 31000000)
    decoder.appDecoder.flows.keys.length = 1 ∧
      ∀ key ∈ decoder.appDecoder.flows, key.decoded = true ∧ decoder.flowTable.flowsOf key ≠ [] :=
  ⟨by decide +kernel, (app_state_never_dangles _ _
    (((Session.start.decode (queryAt 0)).finish ⟨List.Perm.refl _, List.Perm.refl _⟩).decode
      (queryAt 31000000))).2.2.1⟩

end Pointers

end Decoder

section Log

def DnsPoll.withTable (poll : DnsPoll) (table : DnsTable) : DnsPoll :=
  { poll with dnsTable := table }

/-- A turn of the DNS loop reads the same messages whatever table they are recorded in. -/
theorem dns_turn_log (poll : DnsPoll) :
    (∃ result : DnsPoll, ∀ table, dnsTurn (poll.withTable table) =
      .leave (result.withTable table)) ∨
    ∃ (next : DnsPoll) (messages : List Dns.Header), ∀ table, dnsTurn (poll.withTable table) =
      .again (next.withTable (messages.foldl DnsTable.record table)) := by
  unfold dnsTurn DnsPoll.withTable
  simp only
  split_ifs
  · exact Or.inl ⟨poll, fun _ => rfl⟩
  · exact Or.inl ⟨poll, fun _ => rfl⟩
  · split
    · exact Or.inr ⟨{ poll with stream := _, applications := _ }, [], fun _ => rfl⟩
    · next header _ _ =>
        exact Or.inr ⟨{ poll with stream := _, applications := _ }, [header], fun _ => rfl⟩

theorem dns_run_log (fuel : Nat) (poll : DnsPoll) :
    ∃ (result : DnsPoll) (messages : List Dns.Header), ∀ table,
      MeasuredLoop.run dnsTurn id fuel (poll.withTable table) =
        result.withTable (messages.foldl DnsTable.record table) := by
  induction fuel generalizing poll with
  | zero => exact ⟨poll, [], fun _ => rfl⟩
  | succ fuel ih =>
      rcases dns_turn_log poll with ⟨result, turn⟩ | ⟨next, messages, turn⟩
      · refine ⟨result, [], fun table => ?_⟩
        simp only [MeasuredLoop.run, turn table, List.foldl_nil]
      · obtain ⟨result, later, run⟩ := ih next
        refine ⟨result, messages ++ later, fun table => ?_⟩
        simp only [MeasuredLoop.run, turn table, run, List.foldl_append]

def StreamPoll.withTable (poll : StreamPoll) (table : DnsTable) : StreamPoll :=
  { poll with dnsTable := table }

/-- A poll of a stream reads the same messages whatever table they are recorded in. -/
theorem poll_stream_log (key : FlowKey) (poll : StreamPoll) :
    ∃ (result : StreamPoll) (messages : List Dns.Header), ∀ table,
      pollStream key (poll.withTable table) =
        result.withTable (messages.foldl DnsTable.record table) := by
  obtain ⟨loop, messages, run⟩ := dns_run_log (poll.stream.available + 1)
    { stream := poll.stream, applications := poll.applications, dnsTable := poll.dnsTable }
  unfold pollStream dnsLoop StreamPoll.withTable
  simp only
  split_ifs
  · exact ⟨poll, [], fun _ => rfl⟩
  · refine ⟨{ poll with stream := loop.stream, applications := loop.applications }, messages,
      fun table => ?_⟩
    simp only [DnsPoll.withTable] at run
    rw [run]
  · exact ⟨{ poll with stream := _, applications := _, peer := _ }, [], fun _ => rfl⟩
  · exact ⟨poll, [], fun _ => rfl⟩

namespace AppDecoder

def FlowPoll.withTable (poll : FlowPoll) (table : DnsTable) : FlowPoll :=
  { poll with dnsTable := table }

theorem datagram_message_log (payload : List UInt8) (applications : Applications) :
    ∃ (result : Applications) (messages : List Dns.Header), ∀ table,
      datagramMessage payload applications table =
        (result, messages.foldl DnsTable.record table) := by
  unfold datagramMessage
  split
  · exact ⟨_, [], fun _ => rfl⟩
  · next header _ _ => exact ⟨_, [header], fun _ => rfl⟩

end AppDecoder

namespace Decoder

open AppDecoder

/-- So does a poll of a packet. -/
theorem poll_packet_log (pkt : Packet) {key : FlowKey} (isNew : Bool) {poll : FlowPoll}
    (owned : Owned key poll.flow) :
    ∃ (result : FlowPoll) (messages : List Dns.Header), ∀ table,
      pollPacket pkt key isNew (poll.withTable table) =
        result.withTable (messages.foldl DnsTable.record table) := by
  cases transport : pkt.transport with
  | tcp tcp =>
      simp only [pollPacket, transport]
      have sent : Owned key (reassemble poll.flow tcp pkt.payload) := by
        simpa only [Owned, reassemble_app_state] using owned
      by_cases plain : key.isDns = false ∧ key.isHttp = false
      · refine ⟨{ poll with flow := reassemble poll.flow tcp pkt.payload }, [], fun table => ?_⟩
        rw [poll_flow_plain isNew plain]
        rfl
      · obtain ⟨result, messages, stream⟩ := poll_stream_log key
          (streamPoll key { poll with flow := reassemble poll.flow tcp pkt.payload } isNew)
        refine ⟨{
          decoder := poll.decoder.setNode key
            (.sides (reassemble poll.flow tcp pkt.payload).isReverse result.applications result.peer)
          flow := { (reassemble poll.flow tcp pkt.payload).setStream result.stream with
            appState := some key }
          dnsTable := poll.dnsTable }, messages, fun table => ?_⟩
        rw [poll_flow_app isNew plain sent]
        have read := stream table
        simp only [StreamPoll.withTable, streamPoll] at read
        simp only [FlowPoll.withTable, streamPoll, read]
  | udp udp =>
      simp only [pollPacket, transport]
      by_cases plain : pkt.payload = [] ∨ key.isDns = false
      · refine ⟨poll, [], fun table => ?_⟩
        rw [poll_datagram_plain isNew plain]
        rfl
      · simp only [not_or, Bool.not_eq_false] at plain
        obtain ⟨result, messages, read⟩ := datagram_message_log pkt.payload
          ((poll.decoder.startNode key isNew).self poll.flow.isReverse)
        refine ⟨{
          decoder := poll.decoder.setNode key (.sides poll.flow.isReverse result
            ((poll.decoder.startNode key isNew).self (!poll.flow.isReverse)))
          flow := { poll.flow with appState := some key }
          dnsTable := poll.dnsTable }, messages, fun table => ?_⟩
        have ownedToo : Owned key (poll.withTable table).flow := owned
        rw [poll_datagram_app isNew plain.1 plain.2 ownedToo]
        simp only [FlowPoll.withTable, read]
  | monostate | icmp _ | icmpv6 _ =>
      simp only [pollPacket, transport]
      exact ⟨poll, [], fun _ => rfl⟩

end Decoder

end Log

/-- The table with what was retired and counted before. -/
def FlowTable.behind (past table : FlowTable) : FlowTable :=
  { table with
    totalBytes := past.totalBytes + table.totalBytes
    completed := past.completed ++ table.completed }

theorem FlowTable.add_packet_behind (past table : FlowTable) (capture : Capture) :
    (past.behind table).addPacket capture =
      ((table.addPacket capture).1, past.behind (table.addPacket capture).2) := by
  unfold addPacket
  split_ifs
  · rfl
  · cases keyFromPacket capture.pkt {} with
    | error err => rfl
    | ok key =>
        have retired : ∀ table : FlowTable,
            (past.behind table).retireExpired key.normalize.2 capture.tsUs =
              past.behind (table.retireExpired key.normalize.2 capture.tsUs) := by
          intro table
          unfold retireExpired
          cases found : table.flows.lookup key.normalize.2 with
          | none =>
              have foundToo : (past.behind table).flows.lookup key.normalize.2 = none := found
              simp only [foundToo]
          | some flow =>
              have same : (past.behind table).isExpired flow capture.tsUs =
                  table.isExpired flow capture.tsUs := rfl
              have foundToo : (past.behind table).flows.lookup key.normalize.2 = some flow := found
              simp only [foundToo, same]
              split_ifs
              · simp only [behind, List.append_assoc]
              · rfl
        have counted : ∀ table : FlowTable, ({ past.behind table with
            totalBytes := (past.behind table).totalBytes + capture.packetHeader.inclLen.toNat } :
              FlowTable) = past.behind { table with
                totalBytes := table.totalBytes + capture.packetHeader.inclLen.toNat } := by
          intro table
          simp only [behind, Nat.add_assoc]
        simp only [addToFlow, counted, retired]
        rfl

namespace Decoder

open AppDecoder

/-- One decoder has gone on from a past that holds neither active flows nor application state
while the other started anew. -/
structure Follows (past later fresh : Decoder) : Prop where
  config : later.config = fresh.config
  decoded : later.decoded = fresh.decoded
  appDecoder : later.appDecoder = fresh.appDecoder
  flowTable : later.flowTable = past.flowTable.behind fresh.flowTable
  dnsTable : ∃ messages : List Dns.Header,
    later.dnsTable = messages.foldl DnsTable.record past.dnsTable ∧
      fresh.dnsTable = messages.foldl DnsTable.record {}

section Follows

variable {config : Config} {past later fresh : Decoder}

theorem Follows.decodeFlow (follows : Follows past later fresh) (capture : Capture) {key : FlowKey}
    (isNew : Bool) (owned : ∀ flow, fresh.flowTable.flows.lookup key = some flow →
      Owned key flow) :
    Follows past (later.decodeFlow capture key isNew) (fresh.decodeFlow capture key isNew) := by
  have sameFlows : later.flowTable.flows = fresh.flowTable.flows := by
    rw [follows.flowTable]
    rfl
  unfold Decoder.decodeFlow
  rw [sameFlows]
  cases found : fresh.flowTable.flows.lookup key with
  | none => exact follows
  | some flow =>
      obtain ⟨messages, laterTable, freshTable⟩ := follows.dnsTable
      have own : Owned key (FlowPoll.mk fresh.appDecoder flow {}).flow := owned flow found
      obtain ⟨result, more, read⟩ := poll_packet_log capture.pkt isNew own
      simp only [FlowPoll.withTable] at read
      constructor
      · exact follows.config
      · exact follows.decoded
      · simp only [follows.appDecoder, read]
      · simp only [follows.appDecoder, follows.flowTable, read]
        rfl
      · refine ⟨messages ++ more, ?_, ?_⟩
        · simp only [follows.appDecoder, read, laterTable, List.foldl_append]
        · simp only [read, freshTable, List.foldl_append]

theorem Follows.counted (follows : Follows past later fresh) :
    Follows past { later with decoded := later.decoded + 1 }
      { fresh with decoded := fresh.decoded + 1 } :=
  ⟨follows.config, congrArg (· + 1) follows.decoded, follows.appDecoder, follows.flowTable,
    follows.dnsTable⟩

theorem Follows.decodeCapture (follows : Follows past later fresh)
    (pointers : Pointers config fresh) (capture : Capture) :
    (later.decodeCapture capture).1 = (fresh.decodeCapture capture).1 ∧
      Follows past (later.decodeCapture capture).2 (fresh.decodeCapture capture).2 := by
  have added := FlowTable.add_packet_behind past.flowTable fresh.flowTable capture
  have posted : Follows past
      { later with
        config := fresh.config
        flowTable := past.flowTable.behind (fresh.flowTable.addPacket capture).2 }
      { fresh with flowTable := (fresh.flowTable.addPacket capture).2 } :=
    ⟨rfl, follows.decoded, follows.appDecoder, rfl, follows.dnsTable⟩
  unfold Decoder.decodeCapture
  rw [follows.config, follows.flowTable, added]
  by_cases refused : filtered fresh.config.filter capture.pkt = true
  · simp only [if_pos refused, true_and]
    exact follows
  simp only [if_neg refused]
  by_cases failed : (fresh.flowTable.addPacket capture).1.err ≠ .none
  · simp only [if_pos failed, true_and]
    exact posted
  simp only [if_neg failed, true_and]
  by_cases inFlow : (fresh.flowTable.addPacket capture).1.flow = true
  · simp only [inFlow, if_true]
    refine (posted.decodeFlow capture _ ?_).counted
    intro flow found
    rcases FlowTable.add_packet_cases fresh.flowTable capture with ⟨-, result⟩ |
      ⟨_, -, -, result⟩ | ⟨key, posts⟩
    · rw [result] at inFlow
      cases inFlow
    · rw [result] at inFlow
      cases inFlow
    · rw [posts.outKey] at found ⊢
      exact (posts_home posts pointers.home found).owned
  · simp only [inFlow]
    exact posted.counted

theorem Follows.decode (follows : Follows past later fresh) (pointers : Pointers config fresh)
    (input : Input) :
    (later.decode input.span input.capture).1 = (fresh.decode input.span input.capture).1 ∧
      (later.decode input.span input.capture).2.1 =
        (fresh.decode input.span input.capture).2.1 ∧
      Follows past (step later input) (step fresh input) := by
  unfold step Decoder.decode
  rw [follows.config]
  simp only
  split_ifs
  · exact ⟨rfl, rfl, follows⟩
  · have decoded := follows.decodeCapture pointers { input.capture with
      pkt := (decodePacket input.span input.capture.pkt.reset
        fresh.config.verifyChecksum).header }
    exact ⟨decoded.1, rfl, decoded.2⟩

theorem Follows.run (follows : Follows past later fresh) (pointers : Pointers config fresh)
    (inputs : List Input) :
    Follows past (inputs.foldl step later) (inputs.foldl step fresh) ∧
      Pointers config (inputs.foldl step fresh) := by
  induction inputs generalizing later fresh with
  | nil => exact ⟨follows, pointers⟩
  | cons input inputs ih =>
      exact ih (follows.decode pointers input).2.2 (step_pointers pointers input)

theorem finish_follows {decoder : Decoder} (sound : Sound config decoder)
    {iteration : List (FlowKey × Flow)} {visited : List FlowKey}
    (walks : Walks decoder iteration visited) :
    Follows (decoder.finish iteration visited) (decoder.finish iteration visited)
      (new config) := by
  constructor
  · exact sound.sameConfig
  · rfl
  · have noNodes := (finish_empty walks).2
    generalize (decoder.finish iteration visited).appDecoder = left at noNodes ⊢
    cases left
    exact congrArg AppDecoder.mk noNodes
  · simp only [FlowTable.behind, finish, FlowTable.flush, new, sound.active, sound.idle,
      List.append_nil, Nat.add_zero]
  · exact ⟨[], rfl, rfl⟩

end Follows

/-- After `finish` packets are decoded as by a new decoder: the same return codes and packets, the
same active flows and application state. The flows it retires come behind those of the past, the
bytes add up, and the same DNS messages are recorded, in the table of the past. -/
theorem finish_restarts (config : Config) (decoder : Decoder) (session : Session config decoder)
    (iteration : List (FlowKey × Flow)) (visited : List FlowKey)
    (walks : Walks decoder iteration visited) (inputs : List Input) :
    let later := inputs.foldl step (decoder.finish iteration visited)
    let fresh := run config inputs
    (∀ input : Input, (later.decode input.span input.capture).1 =
        (fresh.decode input.span input.capture).1 ∧
      (later.decode input.span input.capture).2.1 =
        (fresh.decode input.span input.capture).2.1) ∧
    later.decoded = fresh.decoded ∧ later.appDecoder = fresh.appDecoder ∧
    later.flowTable.flows = fresh.flowTable.flows ∧
    later.flowTable.completed =
      decoder.flowTable.completed ++ iteration ++ fresh.flowTable.completed ∧
    later.flowTable.totalBytes = decoder.flowTable.totalBytes + fresh.flowTable.totalBytes ∧
    ∃ messages : List Dns.Header,
      later.dnsTable = messages.foldl DnsTable.record decoder.dnsTable ∧
        fresh.dnsTable = DnsTable.recorded messages := by
  intro later fresh
  have starts := finish_follows (session_pointers session).sound walks
  obtain ⟨follows, pointers⟩ := starts.run (new_pointers config) inputs
  refine ⟨?_, follows.decoded, follows.appDecoder, ?_, ?_, ?_, follows.dnsTable⟩
  · intro input
    have decoded := follows.decode pointers input
    exact ⟨decoded.1, decoded.2.1⟩
  · exact (congrArg FlowTable.flows follows.flowTable).trans rfl
  · exact congrArg FlowTable.completed follows.flowTable
  · exact congrArg FlowTable.totalBytes follows.flowTable

theorem finish_restarts_query :
    let config : Config := { verifyChecksum := false }
    let before := step (new config) (queryAt 0)
    let finished := before.finish before.flowTable.activeFlows before.appDecoder.flows.keys
    before.flowTable.totalBytes = 54 ∧
      ([queryAt 7].foldl step finished).flowTable.totalBytes = 54 +
        (run config [queryAt 7]).flowTable.totalBytes :=
  ⟨by decide +kernel, (finish_restarts _ _ (Session.start.decode (queryAt 0)) _ _
    ⟨List.Perm.refl _, List.Perm.refl _⟩ [queryAt 7]).2.2.2.2.2.1⟩

end Decoder

end PcapAnalyzer
