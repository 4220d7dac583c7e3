import Mathlib.Data.List.Induction
import PcapAnalyzer.Flow.Accounting

/-!
# The times of a flow

A flow keeps the time of its first packet and of its latest one, and `isExpired` subtracts
both from the time of the next packet. A packet older than the latest one expires nothing, but
it becomes the latest one: as soon as it is older than the first packet the flow ends before it
starts, and the next subtraction wraps.
-/

namespace PcapAnalyzer

open Pcap (Capture)

set_option autoImplicit false

def Flow.durationUs (flow : Flow) : UInt64 := flow.lastSeen - flow.firstSeen

namespace FlowTable

/-- Calls of `addPacket`, one after the other. -/
def addPackets (table : FlowTable) (captures : List Capture) : FlowTable :=
  captures.foldl (fun table capture => (table.addPacket capture).2) table

/-- The calls with what they return. -/
def offers : FlowTable → List Capture → List Offered
  | _, [] => []
  | table, capture :: captures =>
      ⟨capture, (table.addPacket capture).1⟩ :: offers (table.addPacket capture).2 captures

/-- The active flow that `isExpired` is asked about. -/
def foundFlow (table : FlowTable) (capture : Capture) : Option Flow :=
  if capture.pkt.isArp then none else
  match keyFromPacket capture.pkt {} with
  | .error _ => none
  | .ok key => table.flows.lookup key.normalize.2

/-- The flow was first seen with the first packet of the run and last seen with the last one. -/
structure SeenIn (run : List Capture) (flow : Flow) : Prop where
  first : run.head?.map Capture.tsUs = some flow.firstSeen
  last : run.getLast?.map Capture.tsUs = some flow.lastSeen

/-- The times are in order after the call, its subtractions do not wrap, and it retires a flow
only when one of the timeouts has passed. -/
structure TimesSound (activeTimeoutUs idleTimeoutUs : UInt64) (table : FlowTable)
    (capture : Capture) : Prop where
  ordered : ∀ entry ∈ (table.addPacket capture).2.completed ++
      (table.addPacket capture).2.activeFlows,
    entry.2.firstSeen ≤ entry.2.lastSeen ∧
      entry.2.durationUs.toNat + entry.2.firstSeen.toNat = entry.2.lastSeen.toNat
  subtracted : ∀ flow ∈ table.foundFlow capture, ¬ capture.tsUs < flow.lastSeen →
    (capture.tsUs - flow.lastSeen).toNat + flow.lastSeen.toNat = capture.tsUs.toNat ∧
      (capture.tsUs - flow.firstSeen).toNat + flow.firstSeen.toNat = capture.tsUs.toNat
  retired : ∀ key flow,
    (table.addPacket capture).2.completed = table.completed ++ [(key, flow)] →
    flow.lastSeen.toNat + idleTimeoutUs.toNat < capture.tsUs.toNat ∨
      (activeTimeoutUs ≠ 0 ∧
        flow.firstSeen.toNat + activeTimeoutUs.toNat < capture.tsUs.toNat)

section Calls

variable (table : FlowTable) (captures : List Capture) (capture : Capture)

@[simp] theorem add_packets_nil : table.addPackets [] = table := rfl

@[simp] theorem add_packets_cons : table.addPackets (capture :: captures) =
    (table.addPacket capture).2.addPackets captures := rfl

@[simp] theorem add_packets_append_one : table.addPackets (captures ++ [capture]) =
    ((table.addPackets captures).addPacket capture).2 :=
  List.foldl_append

theorem run_add_packets {activeTimeoutUs idleTimeoutUs : UInt64} {history : List Offered}
    {table : FlowTable} (run : Run activeTimeoutUs idleTimeoutUs history table)
    (captures : List Capture) :
    Run activeTimeoutUs idleTimeoutUs (history ++ offers table captures)
      (table.addPackets captures) := by
  induction captures generalizing history table with
  | nil =>
      rw [offers, List.append_nil]
      exact run
  | cons capture captures ih =>
      have later := ih (run.addPacket capture)
      rw [List.append_assoc, List.singleton_append] at later
      exact later

end Calls

section Counting

variable (flow : Flow) (isReverse : Bool) (capture : Capture)

@[simp] theorem count_packet_first_seen :
    (countPacket flow isReverse capture).firstSeen = flow.firstSeen := by
  cases isReverse <;> rfl

@[simp] theorem count_packet_last_seen :
    (countPacket flow isReverse capture).lastSeen = capture.tsUs := by
  cases isReverse <;> rfl

@[simp] theorem new_flow_first_seen (key : FlowKey) (tsUs : UInt64) :
    (newFlow key tsUs).firstSeen = tsUs := by
  unfold newFlow
  split_ifs <;> rfl

/-- A flow that records a run of packets keeps the times of its ends. -/
theorem records_seen (activeTimeoutUs idleTimeoutUs : UInt64) {key : FlowKey}
    {run : List Capture} {flow : Flow}
    (records : Ledger.Records (flowRules activeTimeoutUs idleTimeoutUs) key run flow) :
    SeenIn run flow := by
  obtain ⟨first, rest, rfl, rfl⟩ := records
  induction rest using List.reverseRecOn with
  | nil => exact ⟨by simp [flowRules], by simp [flowRules]⟩
  | append_singleton rest last ih =>
      have grown := ih.first
      rw [← List.cons_append, List.foldl_append, List.foldl_cons, List.foldl_nil]
      constructor
      · rw [List.cons_append, List.head?_cons, Option.map_some]
        rw [List.head?_cons, Option.map_some] at grown
        rw [grown]
        exact congrArg some (count_packet_first_seen _ _ _).symm
      · rw [List.getLast?_concat, Option.map_some]
        exact congrArg some (count_packet_last_seen _ _ _).symm

end Counting

theorem all_iff {good : Flow → Prop} (table : FlowTable) :
    table.toBook.All good ↔ ∀ entry ∈ table.completed ++ table.activeFlows, good entry.2 := by
  constructor
  · intro all entry member
    rcases List.mem_append.mp member with retired | active
    · exact all.closed entry retired
    · obtain ⟨stored, listed, rfl⟩ := List.mem_map.mp active
      exact all.opened stored.1 stored.2 (AList.mem_lookup_iff.mpr listed)
  · intro every
    constructor
    · intro entry member
      exact every entry (List.mem_append_left _ member)
    · intro key flow found
      refine every (key, flow) (List.mem_append_right _ (List.mem_map.mpr ⟨⟨key, flow⟩, ?_, rfl⟩))
      exact AList.mem_lookup_iff.mp found

/-- No flow ends before it starts. -/
def Ordered (table : FlowTable) : Prop :=
  table.toBook.All fun flow => flow.firstSeen ≤ flow.lastSeen

section Step

variable {activeTimeoutUs idleTimeoutUs : UInt64} {table : FlowTable} {capture : Capture}

theorem sub_to_nat {left right : UInt64} (order : right ≤ left) :
    (left - right).toNat + right.toNat = left.toNat := by
  rw [UInt64.toNat_sub_of_le _ _ order]
  exact Nat.sub_add_cancel order

theorem Posts.found_flow {key : FlowKey} {added : Added} {after : FlowTable}
    (posts : Posts table capture key added after) :
    table.foundFlow capture = table.flows.lookup key := by
  obtain ⟨raw, found, rfl⟩ := posts.keyed
  rw [foundFlow, posts.notArp, found]
  rfl

theorem found_flow_none (failed : ∀ key, ¬ Posts table capture key (table.addPacket capture).1
    (table.addPacket capture).2) :
    table.foundFlow capture = none ∧ (table.addPacket capture).2 = table := by
  rcases add_packet_cases table capture with ⟨arp, result⟩ | ⟨err, _, found, result⟩ | ⟨key, posts⟩
  · rw [foundFlow, arp, result]
    exact ⟨rfl, rfl⟩
  · rw [foundFlow, found, result]
    exact ⟨ite_self _, rfl⟩
  · exact absurd posts (failed key)

/-- A packet that is not older than the flow it is counted in keeps the times in order. -/
theorem ordered_step (ordered : table.Ordered)
    (notBefore : ∀ flow ∈ table.foundFlow capture, flow.firstSeen ≤ capture.tsUs) :
    (table.addPacket capture).2.Ordered := by
  by_cases taken : ∃ key, Posts table capture key (table.addPacket capture).1
      (table.addPacket capture).2
  · obtain ⟨key, posts⟩ := taken
    rw [posts.found_flow] at notBefore
    rw [Ordered, posts.book]
    apply Ledger.Book.All.post _ _ _ _ ordered
    · simp [flowRules]
    · intro flow found _
      simpa [flowRules] using notBefore flow found
  · rw [(found_flow_none (by simpa using taken)).2]
    exact ordered

/-- What retires a flow. -/
theorem retires_expired (active : table.activeTimeoutUs = activeTimeoutUs)
    (idle : table.idleTimeoutUs = idleTimeoutUs) {key : FlowKey} {flow : Flow}
    (grown : (table.addPacket capture).2.completed = table.completed ++ [(key, flow)]) :
    table.foundFlow capture = some flow ∧
      (expiry activeTimeoutUs idleTimeoutUs).isExpired flow capture.tsUs = true := by
  have differs : table.completed ≠ table.completed ++ [(key, flow)] := by
    intro same
    exact absurd (congrArg List.length same) (by simp)
  by_cases taken : ∃ key, Posts table capture key (table.addPacket capture).1
      (table.addPacket capture).2
  · obtain ⟨posted, posts⟩ := taken
    have closed : (table.addPacket capture).2.completed =
        (table.toBook.post (flowRules activeTimeoutUs idleTimeoutUs) posted capture).closed := by
      rw [← active, ← idle, ← posts.book]
      rfl
    rcases Ledger.post_closed (flowRules activeTimeoutUs idleTimeoutUs) table.toBook posted capture
      with same | ⟨account, found, expired, retired⟩
    · rw [closed, same] at grown
      exact absurd grown differs
    · rw [closed, retired] at grown
      have entry := List.append_cancel_left grown
      simp only [List.cons.injEq, Prod.mk.injEq, and_true] at entry
      rw [← entry.2, posts.found_flow]
      exact ⟨found, expired⟩
  · rw [(found_flow_none (by simpa using taken)).2] at grown
    exact absurd grown differs

/-- In a table whose flows are in order, a call is sound if the packet is not older than the flow
it is counted in. -/
theorem times_sound_step (active : table.activeTimeoutUs = activeTimeoutUs)
    (idle : table.idleTimeoutUs = idleTimeoutUs) (ordered : table.Ordered)
    (notBefore : ∀ flow ∈ table.foundFlow capture, flow.firstSeen ≤ capture.tsUs) :
    TimesSound activeTimeoutUs idleTimeoutUs table capture := by
  have after := (all_iff _).mp (ordered_step ordered notBefore)
  constructor
  · intro entry member
    exact ⟨after entry member, sub_to_nat (after entry member)⟩
  · intro flow found late
    exact ⟨sub_to_nat (UInt64.not_lt.mp late), sub_to_nat (notBefore flow found)⟩
  · intro key flow grown
    obtain ⟨found, expired⟩ := retires_expired active idle grown
    unfold isExpired at expired
    split_ifs at expired with early
    have sinceLast := sub_to_nat (UInt64.not_lt.mp early)
    have sinceFirst := sub_to_nat (notBefore flow found)
    simp only [expiry, Bool.or_eq_true, decide_eq_true_eq, Bool.and_eq_true, ne_eq,
      gt_iff_lt, UInt64.lt_iff_toNat_lt] at expired
    rcases expired with idled | ⟨limited, ended⟩
    · exact .inl (by omega)
    · exact .inr ⟨of_decide_eq_true limited, by omega⟩

/-- A packet older than the flow it finds ends that flow before its start. -/
theorem not_before_of_sound (ordered : table.Ordered)
    (sound : TimesSound activeTimeoutUs idleTimeoutUs table capture) :
    ∀ flow ∈ table.foundFlow capture, flow.firstSeen ≤ capture.tsUs := by
  intro flow found
  by_contra before
  have taken : ∃ key, Posts table capture key (table.addPacket capture).1
      (table.addPacket capture).2 := by
    by_contra none
    rw [(found_flow_none (by simpa using none)).1] at found
    cases found
  obtain ⟨key, posts⟩ := taken
  rw [posts.found_flow] at found
  have order := ordered.opened key flow found
  have early : capture.tsUs < flow.lastSeen :=
    UInt64.lt_of_lt_of_le (UInt64.not_le.mp before) order
  have unexpired : (flowRules table.activeTimeoutUs table.idleTimeoutUs).expired flow capture =
      false := if_pos early
  have view := congrArg Ledger.View.opened (Ledger.post_view_same
    (flowRules table.activeTimeoutUs table.idleTimeoutUs) table.toBook key capture)
  rw [← posts.book] at view
  have continued : (table.addPacket capture).2.toBook.opened.lookup key =
      some (countPacket flow (direction capture) capture) := by
    refine view.trans ?_
    have opened : (table.toBook.view key).opened = some flow := found
    rw [Ledger.Rules.postView, opened, Ledger.Rules.opens, unexpired]
    rfl
  have after : (table.addPacket capture).2.toBook.All
      fun flow => flow.firstSeen ≤ flow.lastSeen :=
    (all_iff _).mpr fun entry member => (sound.ordered entry member).1
  have kept := after.opened key _ continued
  simp only [count_packet_first_seen, count_packet_last_seen] at kept
  exact before kept

end Step

/-- What holds at each of the calls. -/
def EachCall (table : FlowTable) (captures : List Capture)
    (holds : FlowTable → Capture → Prop) : Prop :=
  ∀ before capture after, captures = before ++ capture :: after →
    holds (table.addPackets before) capture

/-- The packet is not older than the first packet of the flow it finds. -/
def NotBeforeFirst (table : FlowTable) (capture : Capture) : Prop :=
  ∀ flow ∈ table.foundFlow capture, flow.firstSeen ≤ capture.tsUs

theorem EachCall.front {table : FlowTable} {captures more : List Capture}
    {holds : FlowTable → Capture → Prop} (each : EachCall table (captures ++ more) holds) :
    EachCall table captures holds := by
  intro before capture after cut
  apply each before capture (after ++ more)
  rw [cut, List.append_assoc, List.cons_append]

theorem EachCall.last {table : FlowTable} {captures : List Capture} {capture : Capture}
    {holds : FlowTable → Capture → Prop} (each : EachCall table (captures ++ [capture]) holds) :
    holds (table.addPackets captures) capture :=
  each captures capture [] rfl

section Runs

variable {activeTimeoutUs idleTimeoutUs : UInt64} {captures : List Capture}

theorem add_packets_timeouts (captures : List Capture) :
    ((expiry activeTimeoutUs idleTimeoutUs).addPackets captures).activeTimeoutUs =
        activeTimeoutUs ∧
      ((expiry activeTimeoutUs idleTimeoutUs).addPackets captures).idleTimeoutUs =
        idleTimeoutUs := by
  have kept := run_kept (run_add_packets (.start : Run activeTimeoutUs idleTimeoutUs _ _) captures)
  exact ⟨kept.active, kept.idle⟩

theorem run_ordered
    (times : EachCall (expiry activeTimeoutUs idleTimeoutUs) captures NotBeforeFirst) :
    ((expiry activeTimeoutUs idleTimeoutUs).addPackets captures).Ordered := by
  induction captures using List.reverseRecOn with
  | nil => exact ⟨by rintro entry ⟨⟩, by rintro key flow ⟨⟩⟩
  | append_singleton captures capture ih =>
      rw [add_packets_append_one]
      exact ordered_step (ih times.front) times.last

theorem ordered_of_sound (sound : EachCall (expiry activeTimeoutUs idleTimeoutUs) captures
      (TimesSound activeTimeoutUs idleTimeoutUs)) :
    ((expiry activeTimeoutUs idleTimeoutUs).addPackets captures).Ordered := by
  cases captures using List.reverseRecOn with
  | nil => exact ⟨by rintro entry ⟨⟩, by rintro key flow ⟨⟩⟩
  | append_singleton captures capture =>
      rw [add_packets_append_one]
      apply (all_iff _).mpr
      intro entry member
      exact (sound.last.ordered entry member).1

end Runs

/-- A flow keeps the times of the first and the last of its packets. They are in order and no
difference of them wraps, in every state of a run, exactly if no packet of the run is older than
the first packet of the flow it is counted in. -/
theorem flow_times_are_sound_iff (activeTimeoutUs idleTimeoutUs : UInt64)
    (captures : List Capture) :
    (∀ key, ∃ runs : List (List Capture),
      runs.flatten = acceptedOf key (offers (expiry activeTimeoutUs idleTimeoutUs) captures) ∧
      List.Forall₂ SeenIn runs
        (((expiry activeTimeoutUs idleTimeoutUs).addPackets captures).flowsOf key)) ∧
    (EachCall (expiry activeTimeoutUs idleTimeoutUs) captures
        (TimesSound activeTimeoutUs idleTimeoutUs) ↔
      EachCall (expiry activeTimeoutUs idleTimeoutUs) captures NotBeforeFirst) := by
  constructor
  · intro key
    have kept := run_kept
      (run_add_packets (.start : Run activeTimeoutUs idleTimeoutUs _ _) captures)
    obtain ⟨runs, flat, records⟩ := Ledger.run_cuts kept.ledger key
    refine ⟨runs, by rw [flat, of_key_posted, List.nil_append], ?_⟩
    exact records.imp fun run flow => records_seen activeTimeoutUs idleTimeoutUs
  · constructor
    · intro sound before capture after cut
      have now := sound before capture after cut
      rw [cut] at sound
      exact not_before_of_sound (ordered_of_sound sound.front) now
    · intro times before capture after cut
      have timeouts := @add_packets_timeouts activeTimeoutUs idleTimeoutUs before
      apply times_sound_step timeouts.1 timeouts.2
      · apply run_ordered
        rw [cut] at times
        exact times.front
      · exact times before capture after cut

/-- A datagram at the given time. -/
def datagramAt (tsUs : UInt64) : Capture :=
  { tsUs := tsUs
    packetHeader := { inclLen := 60 }
    pkt :=
      { network := .v4 { srcIp := 0x0A000001, dstIp := 0x0A000002 }
        transport := .udp { srcPort := 5000, dstPort := 6000 } } }

/-- The second packet is older than the first; for the third, `4 - 5` is longer than any time. -/
theorem older_packet_retires_flow : ¬ ∀ (activeTimeoutUs idleTimeoutUs : UInt64)
    (captures : List Capture), EachCall (expiry activeTimeoutUs idleTimeoutUs) captures
      (TimesSound activeTimeoutUs idleTimeoutUs) := by
  intro always
  have sound := always 10 1000 _ [datagramAt 5, datagramAt 3] (datagramAt 4) [] rfl
  have retired : ∃ entry : FlowKey × Flow,
      (((expiry 10 1000).addPackets [datagramAt 5, datagramAt 3]).addPacket
        (datagramAt 4)).2.completed =
          ((expiry 10 1000).addPackets [datagramAt 5, datagramAt 3]).completed ++ [entry] ∧
        entry.2.lastSeen = 3 ∧ entry.2.firstSeen = 5 :=
    ⟨(((expiry 10 1000).addPackets [datagramAt 5, datagramAt 3]).addPacket
      (datagramAt 4)).2.completed.head (by decide), by decide, by decide, by decide⟩
  obtain ⟨⟨key, flow⟩, grown, last, first⟩ := retired
  have passed := sound.retired key flow grown
  rw [last, first] at passed
  exact absurd passed (by decide)

end FlowTable

end PcapAnalyzer
