import PcapAnalyzer.Flow.Conversation
import PcapAnalyzer.Library.Ledger

/-!
# Every packet is counted once

A flow table is a ledger: the flow of a key is its open account, an accepted packet
is posted to it, and `flush` settles. The table never loses a packet and never counts
one twice, whatever the timestamps and timeouts are.
-/

namespace PcapAnalyzer.FlowTable

open Pcap (Capture)

set_option autoImplicit false

/-- What `normalize` returned for the key of the packet. -/
def direction (capture : Capture) : Bool :=
  match keyFromPacket capture.pkt {} with
  | .ok key => key.normalize.1
  | .error _ => false

def expiry (activeTimeoutUs idleTimeoutUs : UInt64) : FlowTable :=
  { activeTimeoutUs := activeTimeoutUs, idleTimeoutUs := idleTimeoutUs }

def flowRules (activeTimeoutUs idleTimeoutUs : UInt64) : Ledger.Rules FlowKey Flow Capture where
  expired flow capture := (expiry activeTimeoutUs idleTimeoutUs).isExpired flow capture.tsUs
  fresh key capture := newFlow key capture.tsUs
  record flow capture := countPacket flow (direction capture) capture

def toBook (table : FlowTable) : Ledger.Book FlowKey Flow :=
  { opened := table.flows, closed := table.completed }

theorem retire_expired_frame (table : FlowTable) (key : FlowKey) (tsUs : UInt64) :
    (table.retireExpired key tsUs).totalBytes = table.totalBytes ∧
      (table.retireExpired key tsUs).activeTimeoutUs = table.activeTimeoutUs ∧
      (table.retireExpired key tsUs).idleTimeoutUs = table.idleTimeoutUs := by
  unfold retireExpired
  split
  · split_ifs <;> exact ⟨rfl, rfl, rfl⟩
  · exact ⟨rfl, rfl, rfl⟩

/-- Retiring, looking up and counting is one posting. -/
theorem post_eq (table : FlowTable) (capture : Capture) (key : FlowKey) :
    let retired := table.retireExpired key capture.tsUs
    let flow := (retired.findOrCreate key capture.tsUs).2
    ({ opened := retired.flows.insert key (countPacket flow (direction capture) capture)
       closed := retired.completed } : Ledger.Book FlowKey Flow) =
      table.toBook.post (flowRules table.activeTimeoutUs table.idleTimeoutUs) key capture := by
  cases active : table.flows.lookup key with
  | none => simp [retireExpired, findOrCreate, active, toBook, Ledger.Book.post, flowRules]
  | some flow =>
      have sameTimeouts : (expiry table.activeTimeoutUs table.idleTimeoutUs).isExpired flow
          capture.tsUs = table.isExpired flow capture.tsUs := rfl
      by_cases expired : table.isExpired flow capture.tsUs = true
      · simp [retireExpired, findOrCreate, active, toBook, Ledger.Book.post, flowRules, expired,
          sameTimeouts]
      · simp [retireExpired, findOrCreate, active, toBook, Ledger.Book.post, flowRules, expired,
          sameTimeouts]

theorem is_new_eq (table : FlowTable) (capture : Capture) (key : FlowKey) :
    ((table.retireExpired key capture.tsUs).findOrCreate key capture.tsUs).1 =
      (flowRules table.activeTimeoutUs table.idleTimeoutUs).opens (table.flows.lookup key)
        capture := by
  cases active : table.flows.lookup key with
  | none => simp [retireExpired, findOrCreate, active, Ledger.Rules.opens]
  | some flow =>
      have sameTimeouts : (expiry table.activeTimeoutUs table.idleTimeoutUs).isExpired flow
          capture.tsUs = table.isExpired flow capture.tsUs := rfl
      by_cases expired : table.isExpired flow capture.tsUs = true
      · simp [retireExpired, findOrCreate, active, Ledger.Rules.opens, flowRules, expired,
          sameTimeouts]
      · simp [retireExpired, findOrCreate, active, Ledger.Rules.opens, flowRules, expired,
          sameTimeouts]

/-- The table took the packet in: it was posted to the flow of its key. -/
structure Posts (table : FlowTable) (capture : Capture) (key : FlowKey)
    (added : Added) (after : FlowTable) : Prop where
  notArp : capture.pkt.isArp = false
  err : added.err = .none
  outKey : added.key = key
  flow : added.flow = true
  isNew : added.isNew = (flowRules table.activeTimeoutUs table.idleTimeoutUs).opens
    (table.flows.lookup key) capture
  keyed : ∃ raw, keyFromPacket capture.pkt {} = .ok raw ∧ raw.normalize.2 = key
  normal : key.normalize = (false, key)
  book : after.toBook = table.toBook.post
    (flowRules table.activeTimeoutUs table.idleTimeoutUs) key capture
  totalBytes : after.totalBytes = table.totalBytes + capture.packetHeader.inclLen.toNat
  activeTimeoutUs : after.activeTimeoutUs = table.activeTimeoutUs
  idleTimeoutUs : after.idleTimeoutUs = table.idleTimeoutUs

/-- Everything a call can do: nothing for an ARP packet or on an error, else one posting. -/
theorem add_packet_cases (table : FlowTable) (capture : Capture) :
    (capture.pkt.isArp = true ∧ table.addPacket capture = ({ err := .none }, table)) ∨
    (∃ err, err ≠ ParseError.none ∧ keyFromPacket capture.pkt {} = .error err ∧
      table.addPacket capture = ({ err := err }, table)) ∨
    ∃ key, Posts table capture key (table.addPacket capture).1 (table.addPacket capture).2 := by
  by_cases arp : capture.pkt.isArp = true
  · exact Or.inl ⟨arp, by simp [addPacket, arp]⟩
  right
  cases found : keyFromPacket capture.pkt {} with
  | error err =>
      left
      refine ⟨err, ?_, rfl, by simp [addPacket, arp, found]⟩
      unfold keyFromPacket at found
      split at found
      · cases found
        decide
      · split at found
        · cases found
          decide
        · cases found
  | ok key =>
      right
      have turned : direction capture = key.normalize.1 := by simp [direction, found]
      have notArp : capture.pkt.isArp = false := by simpa using arp
      refine ⟨key.normalize.2, ?_⟩
      have result : table.addPacket capture =
          table.addToFlow capture (direction capture) key.normalize.2 := by
        simp [addPacket, notArp, found, turned]
      have frame := retire_expired_frame
        { table with totalBytes := table.totalBytes + capture.packetHeader.inclLen.toNat }
        key.normalize.2 capture.tsUs
      rw [result]
      exact {
        notArp := notArp
        err := rfl
        outKey := rfl
        flow := rfl
        isNew := is_new_eq _ capture key.normalize.2
        keyed := ⟨key, found, rfl⟩
        normal := FlowKey.normalize_normalized key
        book := post_eq _ capture key.normalize.2
        totalBytes := frame.1
        activeTimeoutUs := frame.2.1
        idleTimeoutUs := frame.2.2 }

theorem add_packet_error (table : FlowTable) (capture : Capture)
    (failed : (table.addPacket capture).1.err ≠ .none) : (table.addPacket capture).2 = table := by
  rcases add_packet_cases table capture with ⟨_, result⟩ | ⟨_, _, _, result⟩ | ⟨_, posts⟩
  · rw [result]
  · rw [result]
  · exact absurd posts.err failed

/-- A call of `addPacket` with what it returned. -/
structure Offered where
  capture : Capture
  added : Added

namespace Offered

/-- Not an ARP packet, and `addPacket` returned `None`. -/
def accepted (offered : Offered) : Bool :=
  !offered.capture.pkt.isArp && offered.added.err = .none

/-- The key that `addPacket` reported and the direction it counted are those of the packet's own
headers: of the two endpoints that speak to each other, where they do. -/
structure Keyed (offered : Offered) : Prop where
  own : ∃ raw, keyFromPacket offered.capture.pkt {} = .ok raw ∧
    raw.normalize = (direction offered.capture, offered.added.key)
  spoken : ∀ conversation, Conversation.ofPacket offered.capture.pkt = some conversation →
    conversation.key.normalize = (direction offered.capture, offered.added.key)

end Offered

/-- The tables that calls of `addPacket` and `flush` lead to, with all packets offered. A
flush may iterate the active flows in any order. -/
inductive Run (activeTimeoutUs idleTimeoutUs : UInt64) : List Offered → FlowTable → Prop where
  | start : Run activeTimeoutUs idleTimeoutUs [] (expiry activeTimeoutUs idleTimeoutUs)
  | addPacket {history : List Offered} {table : FlowTable}
      (run : Run activeTimeoutUs idleTimeoutUs history table) (capture : Capture) :
      Run activeTimeoutUs idleTimeoutUs (history ++ [⟨capture, (table.addPacket capture).1⟩])
        (table.addPacket capture).2
  | flush {history : List Offered} {table : FlowTable}
      (run : Run activeTimeoutUs idleTimeoutUs history table) (iteration : List (FlowKey × Flow))
      (listed : iteration.Perm table.activeFlows) :
      Run activeTimeoutUs idleTimeoutUs history (table.flush iteration)

def acceptedPackets (history : List Offered) : List Capture :=
  (history.filter Offered.accepted).map Offered.capture

def acceptedOf (key : FlowKey) (history : List Offered) : List Capture :=
  ((history.filter Offered.accepted).filter fun offered => offered.added.key = key).map
    Offered.capture

/-- The statistics that count exactly these packets. -/
def statsOf (packets : List Capture) : FlowStats :=
  { packets := packets.length
    bytes := (packets.map fun capture => capture.packetHeader.inclLen.toNat).sum }

def posted (history : List Offered) : List (FlowKey × Capture) :=
  (history.filter Offered.accepted).map fun offered => (offered.added.key, offered.capture)

section History

variable {activeTimeoutUs idleTimeoutUs : UInt64} {history : List Offered} {table : FlowTable}

theorem of_key_posted (key : FlowKey) (history : List Offered) :
    Ledger.ofKey key (posted history) = acceptedOf key history := by
  simp [Ledger.ofKey, posted, acceptedOf, List.filter_map, Function.comp_def]

/-- What a run keeps besides the flows. -/
structure Kept (activeTimeoutUs idleTimeoutUs : UInt64) (history : List Offered)
    (table : FlowTable) : Prop where
  ledger : Ledger.Run (flowRules activeTimeoutUs idleTimeoutUs) (posted history) table.toBook
  normal : ∀ entry ∈ posted history, entry.1.normalize = (false, entry.1)
  totalBytes : table.totalBytes = (statsOf (acceptedPackets history)).bytes
  active : table.activeTimeoutUs = activeTimeoutUs
  idle : table.idleTimeoutUs = idleTimeoutUs

theorem kept_rejected (kept : Kept activeTimeoutUs idleTimeoutUs history table) (offered : Offered)
    (rejected : offered.accepted = false) :
    Kept activeTimeoutUs idleTimeoutUs (history ++ [offered]) table := by
  have same : posted (history ++ [offered]) = posted history := by simp [posted, rejected]
  have sameBytes : acceptedPackets (history ++ [offered]) = acceptedPackets history := by
    simp [acceptedPackets, rejected]
  exact {
    ledger := same ▸ kept.ledger
    normal := same ▸ kept.normal
    totalBytes := sameBytes ▸ kept.totalBytes
    active := kept.active
    idle := kept.idle }

theorem kept_posts (kept : Kept activeTimeoutUs idleTimeoutUs history table) {capture : Capture}
    {key : FlowKey} {added : Added} {after : FlowTable}
    (posts : Posts table capture key added after) :
    Kept activeTimeoutUs idleTimeoutUs (history ++ [⟨capture, added⟩]) after := by
  have accepted : Offered.accepted ⟨capture, added⟩ = true := by
    simp [Offered.accepted, posts.notArp, posts.err]
  have grown : posted (history ++ [⟨capture, added⟩]) = posted history ++ [(key, capture)] := by
    simp [posted, accepted, posts.outKey]
  have book := posts.book
  rw [kept.active, kept.idle] at book
  constructor
  · rw [grown, book]
    exact kept.ledger.post key capture
  · intro entry member
    rw [grown, List.mem_append, List.mem_singleton] at member
    rcases member with earlier | rfl
    · exact kept.normal entry earlier
    · exact posts.normal
  · rw [posts.totalBytes, kept.totalBytes]
    simp [statsOf, acceptedPackets, accepted]
  · rw [posts.activeTimeoutUs, kept.active]
  · rw [posts.idleTimeoutUs, kept.idle]

theorem run_kept (run : Run activeTimeoutUs idleTimeoutUs history table) :
    Kept activeTimeoutUs idleTimeoutUs history table := by
  induction run with
  | start =>
      exact {
        ledger := .start
        normal := by simp [posted]
        totalBytes := rfl
        active := rfl
        idle := rfl }
  | @addPacket history table run capture kept =>
      rcases add_packet_cases table capture with ⟨arp, result⟩ | ⟨err, failed, _, result⟩ |
        ⟨key, posts⟩
      · rw [result]
        exact kept_rejected kept _ (by simp [Offered.accepted, arp])
      · rw [result]
        exact kept_rejected kept _ (by simp [Offered.accepted, failed])
      · exact kept_posts kept posts
  | flush run iteration listed kept =>
      exact {
        ledger := kept.ledger.settle iteration listed
        normal := kept.normal
        totalBytes := kept.totalBytes
        active := kept.active
        idle := kept.idle }

theorem Posts.offered_keyed {capture : Capture} {key : FlowKey} {added : Added}
    {after : FlowTable} (posts : Posts table capture key added after) :
    Offered.Keyed ⟨capture, added⟩ := by
  obtain ⟨raw, found, normal⟩ := posts.keyed
  have turned : direction capture = raw.normalize.1 := by rw [direction, found]
  have own : raw.normalize = (direction capture, added.key) := by
    rw [turned, posts.outKey, ← normal]
  refine ⟨⟨raw, found, own⟩, ?_⟩
  intro conversation spoken
  have same := (Conversation.key_from_packet spoken).1
  rw [found] at same
  rw [← Except.ok.inj same]
  exact own

/-- Every packet that was taken in was filed under its own key. -/
theorem run_keyed (run : Run activeTimeoutUs idleTimeoutUs history table) :
    ∀ offered ∈ history, offered.accepted = true → offered.Keyed := by
  induction run with
  | start => exact fun offered member => absurd member List.not_mem_nil
  | @addPacket history table run capture ih =>
      intro offered member accepted
      rcases List.mem_append.mp member with earlier | here
      · exact ih offered earlier accepted
      rw [List.mem_singleton] at here
      subst here
      rcases add_packet_cases table capture with ⟨arp, -⟩ | ⟨err, failed, -, result⟩ |
        ⟨key, posts⟩
      · simp [Offered.accepted, arp] at accepted
      · simp [Offered.accepted, result, failed] at accepted
      · exact posts.offered_keyed
  | flush run iteration listed ih => exact ih

end History

section Statistics

variable (flow : Flow) (capture : Capture)

theorem count_packet_packets :
    (countPacket flow (direction capture) capture).totalPackets = flow.totalPackets + 1 := by
  cases turned : direction capture
  · simp [countPacket, Flow.totalPackets, FlowStats.count]
    omega
  · simp [countPacket, Flow.totalPackets, FlowStats.count]
    omega

theorem count_packet_bytes :
    (countPacket flow (direction capture) capture).totalBytes =
      flow.totalBytes + capture.packetHeader.inclLen.toNat := by
  cases turned : direction capture
  · simp [countPacket, Flow.totalBytes, FlowStats.count]
    omega
  · simp [countPacket, Flow.totalBytes, FlowStats.count]
    omega

theorem new_flow_stats (key : FlowKey) (tsUs : UInt64) :
    (newFlow key tsUs).fwdStats = {} ∧ (newFlow key tsUs).revStats = {} := by
  unfold newFlow
  split_ifs <;> exact ⟨rfl, rfl⟩

/-- A flow that recorded a run of packets has counted each of them in its direction. -/
theorem record_stats (activeTimeoutUs idleTimeoutUs : UInt64) (run : List Capture) (flow : Flow)
    (before : List Capture)
    (fwd : flow.fwdStats = statsOf (before.filter fun capture => !direction capture))
    (rev : flow.revStats = statsOf (before.filter direction)) :
    let final := run.foldl (flowRules activeTimeoutUs idleTimeoutUs).record flow
    final.fwdStats = statsOf ((before ++ run).filter fun capture => !direction capture) ∧
      final.revStats = statsOf ((before ++ run).filter direction) := by
  induction run generalizing flow before with
  | nil => simpa using ⟨fwd, rev⟩
  | cons capture rest ih =>
      have step := ih ((flowRules activeTimeoutUs idleTimeoutUs).record flow capture)
        (before ++ [capture])
      simp only [List.append_assoc, List.singleton_append] at step
      apply step
      · cases turned : direction capture <;>
          simp [flowRules, countPacket, turned, fwd, statsOf, FlowStats.count]
      · cases turned : direction capture <;>
          simp [flowRules, countPacket, turned, rev, statsOf, FlowStats.count]

end Statistics

/-- The flow counts exactly the packets of a run, each in its direction. -/
structure CountsRun (run : List Capture) (flow : Flow) : Prop where
  nonempty : run ≠ []
  fwdStats : flow.fwdStats = statsOf (run.filter fun capture => !direction capture)
  revStats : flow.revStats = statsOf (run.filter direction)

theorem records_counts (activeTimeoutUs idleTimeoutUs : UInt64) (key : FlowKey)
    (run : List Capture) (flow : Flow)
    (records : Ledger.Records (flowRules activeTimeoutUs idleTimeoutUs) key run flow) :
    CountsRun run flow := by
  rcases records with ⟨first, rest, rfl, rfl⟩
  have fresh := new_flow_stats key first.tsUs
  have stats := record_stats activeTimeoutUs idleTimeoutUs (first :: rest)
    (newFlow key first.tsUs) [] fresh.1 fresh.2
  exact ⟨List.cons_ne_nil first rest, stats.1, stats.2⟩

/-- Keys are normalised and unique; packets and bytes add up over all flows; the flows of
a key cut its packets into consecutive runs, the key of a packet being that of its headers;
and an error changes nothing. -/
theorem flow_table_counts_every_packet_once (activeTimeoutUs idleTimeoutUs : UInt64)
    (history : List Offered) (table : FlowTable)
    (run : Run activeTimeoutUs idleTimeoutUs history table) :
    (table.flows.keys.Nodup ∧ ∀ key ∈ table.flows, key.normalize = (false, key)) ∧
    ((table.completed ++ table.activeFlows).map fun entry => entry.2.totalPackets).sum =
      (history.filter Offered.accepted).length ∧
    ((table.completed ++ table.activeFlows).map fun entry => entry.2.totalBytes).sum =
      table.totalBytes ∧
    (∀ key, ∃ runs : List (List Capture), runs.flatten = acceptedOf key history ∧
      List.Forall₂ CountsRun runs (table.flowsOf key)) ∧
    (∀ offered ∈ history, offered.accepted = true → offered.Keyed) ∧
    ∀ capture, (table.addPacket capture).1.err ≠ .none →
      (table.addPacket capture).2 = table := by
  have kept := run_kept run
  refine ⟨⟨table.flows.keys_nodup, ?_⟩, ?_, ?_, ?_, run_keyed run, ?_⟩
  · intro key member
    obtain ⟨capture, offered⟩ := Ledger.run_opened kept.ledger member
    exact kept.normal _ offered
  · have packets := Ledger.run_total Flow.totalPackets (fun _ => 1)
      (fun key capture => by
        simp [flowRules, Flow.totalPackets, new_flow_stats])
      count_packet_packets kept.ledger
    rw [List.map_append, List.sum_append]
    refine Eq.trans packets ?_
    simp [posted, Function.comp_def]
  · have bytes := Ledger.run_total Flow.totalBytes
      (fun capture => capture.packetHeader.inclLen.toNat)
      (fun key capture => by
        simp [flowRules, Flow.totalBytes, new_flow_stats])
      count_packet_bytes kept.ledger
    rw [List.map_append, List.sum_append]
    refine Eq.trans bytes ?_
    rw [kept.totalBytes]
    simp [posted, statsOf, acceptedPackets, Function.comp_def]
  · intro key
    obtain ⟨runs, flat, records⟩ := Ledger.run_cuts kept.ledger key
    refine ⟨runs, by rw [flat, of_key_posted], ?_⟩
    exact records.imp fun run flow => records_counts activeTimeoutUs idleTimeoutUs key run flow
  · exact add_packet_error table

/-- A datagram, and its answer after the flow has expired. -/
theorem flow_table_counts_every_packet_once_expired :
    let query : Capture :=
      { tsUs := 5
        packetHeader := { inclLen := 60 }
        pkt :=
          { network := .v4 { srcIp := 0x0A000001, dstIp := 0x0A000002 }
            transport := .udp { srcPort := 5000, dstPort := 53 } } }
    let answer : Capture :=
      { tsUs := 5000
        packetHeader := { inclLen := 90 }
        pkt :=
          { network := .v4 { srcIp := 0x0A000002, dstIp := 0x0A000001 }
            transport := .udp { srcPort := 53, dstPort := 5000 } } }
    let table := (((expiry 0 1000).addPacket query).2.addPacket answer).2
    ((table.completed ++ table.activeFlows).map fun entry => entry.2.totalPackets).sum = 2 ∧
      table.completed.length = 1 ∧
      table.completed.map Prod.fst = table.activeFlows.map Prod.fst := by
  intro query answer table
  have counted := flow_table_counts_every_packet_once 0 1000 _ table
    ((Run.start.addPacket query).addPacket answer)
  exact ⟨counted.2.1.trans (by decide), by decide, by decide⟩

end PcapAnalyzer.FlowTable
