import PcapAnalyzer.Flow.Listing
import PcapAnalyzer.Library.Tallies

/-!
# Bytes by protocol

The flow report adds up the bytes of the listed flows by protocol. The map it does so in may be
iterated in any order and protocols with as many bytes as each other may be sorted either way; the
rows are the same.
-/

namespace PcapAnalyzer.StatsEngine

open Conversation (protocolOf)
open FlowTable (Offered Run acceptedPackets statsOf flowRules posted)
open Pcap (Capture)

set_option autoImplicit false

/-- The rows of `protocolBytes`, in some order. -/
def protocolBytes (sortedFlow : List (FlowKey × Flow)) : List (UInt8 × Nat) :=
  Tallies.rows (fun entry => entry.1.protocol) (fun entry => entry.2.totalBytes) sortedFlow

def sortedProtocolsByBytes (sortedFlow : List (FlowKey × Flow)) : List (UInt8 × Nat) :=
  (protocolBytes sortedFlow).mergeSort fun a b => b.2 ≤ a.2

/-- What `sortedProtocolsByBytes` may return, whatever the iteration and the sort do. -/
def SortedProtocols (sortedFlow : List (FlowKey × Flow)) (sorted : List (UInt8 × Nat)) : Prop :=
  Listings.Lists (fun a b => a.2 > b.2) (protocolBytes sortedFlow) sorted

theorem sorted_protocols_by_bytes_sorted (sortedFlow : List (FlowKey × Flow)) :
    SortedProtocols sortedFlow (sortedProtocolsByBytes sortedFlow) := by
  refine ⟨List.mergeSort_perm _ _, ?_⟩
  refine (List.pairwise_mergeSort ?_ ?_ _).imp fun earlier => ?_
  · intro a b c first second
    simp only [decide_eq_true_eq] at *
    exact second.trans first
  · intro a b
    simp only [Bool.or_eq_true, decide_eq_true_eq]
    exact Nat.le_total _ _
  · simpa using earlier

section Rows

variable {sortedFlow : List (FlowKey × Flow)} {sorted : List (UInt8 × Nat)}

/-- Each protocol of the flows has one row, with the bytes of its flows. -/
theorem sorted_rows (outcome : SortedProtocols sortedFlow sorted) :
    (sorted.map Prod.fst).Nodup ∧ (sorted.Pairwise fun a b => b.2 ≤ a.2) ∧
      (sorted.map Prod.snd).sum = (sortedFlow.map fun entry => entry.2.totalBytes).sum ∧
      ∀ protocol bytes, (protocol, bytes) ∈ sorted ↔
        (∃ entry ∈ sortedFlow, entry.1.protocol = protocol) ∧
          bytes = Tallies.selected (fun key => decide (key.protocol = protocol)) Flow.totalBytes
            sortedFlow := by
  have labels := (outcome.entries.map Prod.fst).nodup_iff
  refine ⟨labels.mpr (Tallies.rows_labels_nodup _ _ _), ?_, ?_, ?_⟩
  · exact outcome.sorted.imp fun notBefore => Nat.not_lt.mp notBefore
  · exact (outcome.entries.map Prod.snd).sum_eq.trans (Tallies.rows_total _ _ _)
  · intro protocol bytes
    rw [outcome.entries.mem_iff, protocolBytes, Tallies.mem_rows, List.mem_map]
    rfl

end Rows

section History

variable {activeTimeoutUs idleTimeoutUs : UInt64} {history : List Offered} {table : FlowTable}

/-- The flows of a key, and the bytes of the packets that were filed under it. -/
theorem listed_key (run : Run activeTimeoutUs idleTimeoutUs history table)
    {listing : List (FlowKey × Flow)} (listed : table.ListedAs listing) (key : FlowKey) :
    ((Ledger.ofKey key listing).map Flow.totalBytes).sum =
        ((Ledger.ofKey key (posted history)).map fun capture =>
          capture.packetHeader.inclLen.toNat).sum ∧
      (Ledger.ofKey key listing = [] ↔ Ledger.ofKey key (posted history) = []) := by
  have kept := FlowTable.run_kept run
  have total := Ledger.run_key_total Flow.totalBytes
    (fun capture => capture.packetHeader.inclLen.toNat)
    (fun key capture => by simp [flowRules, Flow.totalBytes, FlowTable.new_flow_stats])
    FlowTable.count_packet_bytes kept.ledger key
  have active := Ledger.of_key_perm_entries table.flows key table.activeFlows (.refl _)
  have entries := ((FlowTable.listed_as_iff table listing).mp listed).entries
  have shuffled : (Ledger.ofKey key listing).Perm (table.toBook.accounts key) := by
    rw [Ledger.Book.accounts, FlowTable.toBook, ← active, ← Ledger.of_key_append]
    exact (entries.filter _).map _
  refine ⟨(shuffled.map _).sum_eq.trans total.1, Iff.trans ?_ total.2⟩
  constructor
  · intro none
    exact List.nil_perm.mp (none ▸ shuffled)
  · intro none
    exact List.perm_nil.mp (none ▸ shuffled)

/-- A packet that was taken in carries the protocol of the key it was filed under. -/
theorem accepted_protocol (run : Run activeTimeoutUs idleTimeoutUs history table)
    {offered : Offered} (member : offered ∈ history) (accepted : offered.accepted = true) :
    protocolOf offered.capture.pkt.transport = some offered.added.key.protocol := by
  obtain ⟨raw, found, normal⟩ := (FlowTable.run_keyed run offered member accepted).own
  have same := raw.normalize_protocol
  rw [normal] at same
  rw [Conversation.key_protocol found, same]

theorem of_key_nonempty {Value : Type} (key : FlowKey) (entries : List (FlowKey × Value)) :
    Ledger.ofKey key entries ≠ [] ↔ ∃ entry ∈ entries, entry.1 = key := by
  rw [Ledger.ofKey, Ne, List.map_eq_nil_iff, List.filter_eq_nil_iff]
  simp

end History

/-- Whatever the calls of `addPacket` and `flush` were: the report has one row for each protocol
that a packet was accepted of, with the bytes of exactly these packets, the most bytes first, and
the rows add up to `total_bytes`. The protocol is that of the transport header. -/
theorem protocols_account_for_all_bytes (activeTimeoutUs idleTimeoutUs : UInt64)
    (history : List Offered) (table : FlowTable)
    (run : Run activeTimeoutUs idleTimeoutUs history table) (listing : List (FlowKey × Flow))
    (listed : table.ListedAs listing) (sorted : List (UInt8 × Nat))
    (outcome : SortedProtocols listing sorted) :
    (sorted.map Prod.fst).Nodup ∧ (sorted.Pairwise fun a b => b.2 ≤ a.2) ∧
      (sorted.map Prod.snd).sum = table.totalBytes ∧
      (∀ protocol bytes, (protocol, bytes) ∈ sorted ↔
        (∃ offered ∈ history, offered.accepted = true ∧ offered.added.key.protocol = protocol) ∧
          bytes = (statsOf ((history.filter fun offered => offered.accepted &&
            offered.added.key.protocol = protocol).map Offered.capture)).bytes) ∧
      ∀ offered ∈ history, offered.accepted = true →
        protocolOf offered.capture.pkt.transport = some offered.added.key.protocol := by
  have kept := FlowTable.run_kept run
  obtain ⟨unique, descending, total, rows⟩ := sorted_rows outcome
  have weighs := fun among => Tallies.selected_congr Flow.totalBytes
    (fun capture : Capture => capture.packetHeader.inclLen.toNat)
    (fun key => (listed_key run listed key).1) among
  refine ⟨unique, descending, ?_, ?_, fun _ => accepted_protocol run⟩
  · have all := weighs fun _ => true
    simp only [Tallies.selected, List.filter_true] at all
    rw [total, all, kept.totalBytes]
    simp [posted, statsOf, acceptedPackets, Function.comp_def]
  · intro protocol bytes
    rw [rows, weighs]
    have keys : ∀ key, (∃ entry ∈ listing, entry.1 = key) ↔
        ∃ entry ∈ posted history, entry.1 = key := by
      intro key
      rw [← of_key_nonempty, ← of_key_nonempty, Ne, Ne, (listed_key run listed key).2]
    have occurs : (∃ entry ∈ listing, entry.1.protocol = protocol) ↔
        ∃ offered ∈ history, offered.accepted = true ∧ offered.added.key.protocol = protocol := by
      constructor
      · intro present
        obtain ⟨entry, member, same⟩ := present
        obtain ⟨filed, inPosted, sameKey⟩ := (keys entry.1).mp ⟨entry, member, rfl⟩
        obtain ⟨offered, inHistory, rfl⟩ := List.mem_map.mp inPosted
        obtain ⟨inHistory, taken⟩ := List.mem_filter.mp inHistory
        refine ⟨offered, inHistory, taken, ?_⟩
        rw [← same, ← sameKey]
      · intro accepted
        obtain ⟨offered, inHistory, taken, same⟩ := accepted
        have filed : (offered.added.key, offered.capture) ∈ posted history :=
          List.mem_map_of_mem (List.mem_filter.mpr ⟨inHistory, taken⟩)
        obtain ⟨entry, member, sameKey⟩ := (keys offered.added.key).mpr ⟨_, filed, rfl⟩
        exact ⟨entry, member, by rw [sameKey, same]⟩
    rw [occurs]
    simp only [Tallies.selected, posted, statsOf, List.filter_map, List.map_map,
      Function.comp_def, List.filter_filter, Bool.and_comm]

/-- A query and its answer, the flow of which expired, and an echo request. -/
theorem protocols_account_for_all_bytes_mixed :
    let packet : UInt64 → UInt32 → TransportHeader → Capture := fun tsUs inclLen transport =>
      { tsUs := tsUs
        packetHeader := { inclLen := inclLen }
        pkt :=
          { network := .v4 { srcIp := 0x0A000001, dstIp := 0x0A000002 }
            transport := transport } }
    let table := ((((FlowTable.expiry 0 1000).addPacket
      (packet 5 60 (.udp { srcPort := 5000, dstPort := 53 }))).2.addPacket
      (packet 5000 90 (.udp { srcPort := 5000, dstPort := 53 }))).2.addPacket
      (packet 5001 98 (.icmp { type := 8 }))).2
    let listing := table.activeFlows ++ table.completed
    SortedProtocols listing [(17, 150), (1, 98)] ∧
      ([(17, 150), (1, 98)].map Prod.snd : List Nat).sum = table.totalBytes ∧
      ((sortedProtocolsByBytes listing).map Prod.snd).sum = table.totalBytes := by
  intro packet table listing
  have listed : table.ListedAs listing :=
    ⟨⟨table.activeFlows, .refl _, List.perm_append_comm⟩, by decide⟩
  have outcome : SortedProtocols listing [(17, 150), (1, 98)] := ⟨by decide, by decide⟩
  have rows := protocols_account_for_all_bytes 0 1000 _ table
    (((Run.start.addPacket _).addPacket _).addPacket _) listing listed
  exact ⟨outcome, (rows _ outcome).2.2.1,
    (rows _ (sorted_protocols_by_bytes_sorted listing)).2.2.1⟩

end PcapAnalyzer.StatsEngine
