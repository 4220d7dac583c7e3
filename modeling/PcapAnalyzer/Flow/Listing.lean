import PcapAnalyzer.Flow.Accounting
import PcapAnalyzer.Library.Listings
import PcapAnalyzer.Library.RunPrefixes

/-!
# The listing of the flows

`allFlows` sorts by bytes and breaks ties by key. Retired flows of one key may count as many
bytes as each other or as the active flow, and then the comparator leaves their order to the sort
and to the iteration of the map.
-/

namespace PcapAnalyzer.FlowKey

set_option autoImplicit false

theorem port_bytes_injective {left right : UInt16} (low : left.toUInt8 = right.toUInt8)
    (high : (left >>> 8).toUInt8 = (right >>> 8).toUInt8) : left = right := by
  have leftBound := left.toNat_lt
  have rightBound := right.toNat_lt
  rw [← UInt8.toNat_inj, UInt16.toNat_toUInt8, UInt16.toNat_toUInt8] at low high
  rw [UInt16.toNat_shiftRight, UInt16.toNat_shiftRight, show (8 : UInt16).toNat % 16 = 8 from rfl,
    Nat.shiftRight_eq_div_pow, Nat.shiftRight_eq_div_pow] at high
  rw [← UInt16.toNat_inj]
  omega

/-- The packed struct determines the key. -/
theorem bytes_injective : Function.Injective bytes := by
  rintro ⟨leftIpv4, leftSrc, leftDst, leftSrcPort, leftDstPort, leftProtocol⟩
    ⟨rightIpv4, rightSrc, rightDst, rightSrcPort, rightDstPort, rightProtocol⟩ same
  simp only [bytes, List.cons_append, List.append_assoc, List.cons.injEq] at same
  obtain ⟨version, rest⟩ := same
  obtain ⟨src, rest⟩ := List.append_inj rest (leftSrc.property.trans rightSrc.property.symm)
  obtain ⟨dst, rest⟩ := List.append_inj rest (leftDst.property.trans rightDst.property.symm)
  simp only [List.cons.injEq, and_true] at rest
  obtain ⟨srcLow, srcHigh, dstLow, dstHigh, rfl⟩ := rest
  obtain rfl := Subtype.ext src
  obtain rfl := Subtype.ext dst
  obtain rfl := port_bytes_injective srcLow srcHigh
  obtain rfl := port_bytes_injective dstLow dstHigh
  have sameVersion : leftIpv4 = rightIpv4 := by
    cases leftIpv4 <;> cases rightIpv4 <;> first | rfl | cases version
  rw [sameVersion]

end PcapAnalyzer.FlowKey

namespace PcapAnalyzer.FlowTable

open Pcap (Capture)

set_option autoImplicit false

/-- The comparator of `allFlows`. -/
def comparesBefore (left right : FlowKey × Flow) : Bool :=
  if left.2.totalBytes ≠ right.2.totalBytes then
    left.2.totalBytes > right.2.totalBytes
  else compare left.1.bytes right.1.bytes = .lt

/-- What `allFlows` may return: the map is iterated in some order, and the sort leaves no entry
behind one that the comparator puts after it. -/
structure ListedAs (table : FlowTable) (listing : List (FlowKey × Flow)) : Prop where
  entries : ∃ iteration, iteration.Perm table.activeFlows ∧
    listing.Perm (table.completed ++ iteration)
  sorted : listing.Pairwise fun left right => comparesBefore right left = false

/-- The comparator is a strict order, any two distinct entries are ordered one way, and the
listing does not depend on the iteration of the map or on the sort. -/
structure Determined (table : FlowTable) : Prop where
  irreflexive : ∀ entry, comparesBefore entry entry = false
  transitive : ∀ left middle right, comparesBefore left middle = true →
    comparesBefore middle right = true → comparesBefore left right = true
  total : (table.completed ++ table.activeFlows).Pairwise fun left right =>
    comparesBefore left right = true ∨ comparesBefore right left = true
  listing : ∀ listing, table.ListedAs listing ↔ listing = table.allFlows

section Comparator

theorem compares_before_iff (left right : FlowKey × Flow) : comparesBefore left right = true ↔
    Listings.Before (fun entry => entry.2.totalBytes) (fun entry => entry.1.bytes) left right := by
  unfold comparesBefore Listings.Before
  split_ifs with different
  · simp only [gt_iff_lt, decide_eq_true_eq]
    omega
  · rw [decide_eq_true_eq]
    simp only [not_ne_iff.mp different, lt_self_iff_false, false_or, true_and]

theorem listed_before_iff (left right : FlowKey × Flow) :
    listedBefore left right = true ↔ comparesBefore right left = false := by
  rw [← Bool.not_eq_true, compares_before_iff, Listings.not_before_iff]
  simp only [listedBefore, gt_iff_lt, Bool.or_eq_true, decide_eq_true_eq, Bool.and_eq_true]
  generalize compare left.1.bytes right.1.bytes = order
  cases order <;> simp <;> omega

/-- Sorting lists the entries, whatever order the map was iterated in. -/
theorem listed_as_iff (table : FlowTable) (listing : List (FlowKey × Flow)) :
    table.ListedAs listing ↔
      Listings.Lists (fun left right => comparesBefore left right = true)
        (table.completed ++ table.activeFlows) listing := by
  constructor
  · rintro ⟨⟨iteration, order, entries⟩, sorted⟩
    exact ⟨entries.trans (order.append_left _), sorted.imp fun earlier => by simp [earlier]⟩
  · rintro ⟨entries, sorted⟩
    exact ⟨⟨_, .refl _, entries⟩, sorted.imp fun earlier => by simpa using earlier⟩

theorem all_flows_listed (table : FlowTable) : table.ListedAs table.allFlows := by
  refine ⟨⟨table.activeFlows, .refl _, List.mergeSort_perm _ _⟩, ?_⟩
  refine (List.pairwise_mergeSort ?_ ?_ _).imp fun earlier => (listed_before_iff _ _).mp earlier
  · intro left middle right first second
    rw [listed_before_iff, ← Bool.not_eq_true, compares_before_iff] at *
    exact Listings.not_before_trans _ _ first second
  · intro left right
    rw [Bool.or_eq_true, listed_before_iff, listed_before_iff, ← Bool.not_eq_true,
      ← Bool.not_eq_true, compares_before_iff, compares_before_iff, ← not_and_or]
    rintro ⟨first, second⟩
    exact Listings.before_irrefl _ _ _ (Listings.before_trans _ _ first second)

end Comparator

/-- The bytes counted by the flows of each key tell them apart. -/
def BytesApart (table : FlowTable) : Prop :=
  ∀ key, ((table.flowsOf key).map Flow.totalBytes).Nodup

section Table

variable (table : FlowTable)

theorem flows_of_accounts (key : FlowKey) : table.flowsOf key = table.toBook.accounts key := rfl

theorem of_key_entries (key : FlowKey) :
    Ledger.ofKey key ((table.completed ++ table.activeFlows).map fun entry =>
      (entry.1, entry.2.totalBytes)) = (table.flowsOf key).map Flow.totalBytes := by
  have active : Ledger.ofKey key table.activeFlows = (table.flows.lookup key).toList :=
    Ledger.of_key_perm_entries table.flows key _ (.refl _)
  rw [flows_of_accounts, Ledger.Book.accounts, toBook, ← active, ← Ledger.of_key_append]
  simp [Ledger.ofKey, List.filter_map, Function.comp_def]

/-- The comparator orders any two entries exactly if the flows of each key are apart. -/
theorem ordered_iff_bytes_apart :
    Listings.Ordered (fun left right => comparesBefore left right = true)
      (table.completed ++ table.activeFlows) ↔ table.BytesApart := by
  have named : Function.Injective
      (Prod.map FlowKey.bytes id : FlowKey × Nat → List UInt8 × Nat) :=
    FlowKey.bytes_injective.prodMap Function.injective_id
  simp only [compares_before_iff]
  rw [Listings.ordered_iff_nodup, show (fun entry : FlowKey × Flow =>
      (entry.1.bytes, entry.2.totalBytes)) = Prod.map FlowKey.bytes id ∘ fun entry =>
        (entry.1, entry.2.totalBytes) from rfl, ← List.map_map, List.nodup_map_iff named,
    Ledger.nodup_iff_of_key]
  simp only [of_key_entries, BytesApart]

theorem determined_iff : table.Determined ↔ table.BytesApart := by
  rw [← ordered_iff_bytes_apart]
  constructor
  · exact fun determined => determined.total
  · intro ordered
    refine ⟨fun entry => ?_, fun left middle right first second => ?_, ordered, ?_⟩
    · rw [← Bool.not_eq_true, compares_before_iff]
      exact Listings.before_irrefl _ _ _
    · rw [compares_before_iff] at *
      exact Listings.before_trans _ _ first second
    · intro listing
      constructor
      · intro listed
        exact Listings.lists_unique ordered ((listed_as_iff table _).mp listed)
          ((listed_as_iff table _).mp (all_flows_listed table))
      · rintro rfl
        exact all_flows_listed table

end Table

/-- An order in which the map is iterated. -/
structure Iteration where
  order : FlowTable → List (FlowKey × Flow)
  lists : ∀ table, (order table).Perm table.activeFlows

/-- A call that changes a flow table. -/
inductive Call where
  | addPacket (capture : Capture)
  | flush (iteration : Iteration)

def call (table : FlowTable) : Call → FlowTable
  | .addPacket capture => (table.addPacket capture).2
  | .flush iteration => table.flush (iteration.order table)

/-- The table after calls on a fresh one. -/
def reached (activeTimeoutUs idleTimeoutUs : UInt64) (calls : List Call) : FlowTable :=
  calls.foldl call (expiry activeTimeoutUs idleTimeoutUs)

/-- The bytes of the active flow that a packet continues. -/
def continuedBytes (table : FlowTable) (key : FlowKey) (tsUs : UInt64) : Nat :=
  match table.flows.lookup key with
  | some flow => if table.isExpired flow tsUs then 0 else flow.totalBytes
  | none => 0

/-- The bytes of the flows of a key that are retired once a packet is taken in. -/
def retiredBytes (table : FlowTable) (key : FlowKey) (tsUs : UInt64) : List Nat :=
  (table.completed.filter fun entry => entry.1 = key).map (fun entry => entry.2.totalBytes) ++
    match table.flows.lookup key with
    | some flow => if table.isExpired flow tsUs then [flow.totalBytes] else []
    | none => []

/-- With the packet its flow counts as many bytes as a retired flow of the same key. -/
def TiesRetired (table : FlowTable) : Call → Prop
  | .addPacket capture => capture.pkt.isArp = false ∧
      ∃ raw, keyFromPacket capture.pkt {} = .ok raw ∧
        table.continuedBytes raw.normalize.2 capture.tsUs + capture.packetHeader.inclLen.toNat ∈
          table.retiredBytes raw.normalize.2 capture.tsUs
  | .flush _ => False

section Steps

variable {table : FlowTable}

/-- The flows of a packet's key: those that are retired and the one that counts the packet. -/
theorem posts_bytes {capture : Capture} {key : FlowKey} {added : Added} {after : FlowTable}
    (posts : Posts table capture key added after) :
    (after.flowsOf key).map Flow.totalBytes = table.retiredBytes key capture.tsUs ++
      [table.continuedBytes key capture.tsUs + capture.packetHeader.inclLen.toNat] := by
  have fresh : (newFlow key capture.tsUs).totalBytes = 0 := by
    obtain ⟨fwd, rev⟩ := new_flow_stats key capture.tsUs
    rw [Flow.totalBytes, fwd, rev]
    rfl
  have closed : (Ledger.ofKey key table.completed).map Flow.totalBytes =
      (table.completed.filter fun entry => entry.1 = key).map fun entry => entry.2.totalBytes := by
    simp [Ledger.ofKey, Function.comp_def]
  rw [flows_of_accounts, Ledger.accounts_eq_view, posts.book, Ledger.post_view_same, retiredBytes,
    continuedBytes, ← closed]
  unfold Ledger.Rules.postView Ledger.Rules.opens Ledger.Book.view toBook
  cases active : table.flows.lookup key with
  | none =>
      simp [flowRules, count_packet_bytes, fresh]
  | some flow =>
      have sameTimeouts : (expiry table.activeTimeoutUs table.idleTimeoutUs).isExpired flow
          capture.tsUs = table.isExpired flow capture.tsUs := rfl
      by_cases expired : table.isExpired flow capture.tsUs = true
      · simp [flowRules, sameTimeouts, expired, count_packet_bytes, fresh]
      · simp [flowRules, sameTimeouts, expired, count_packet_bytes]

/-- The flows that are retired once a packet is taken in are flows of the key before. -/
theorem retired_bytes_nodup (apart : table.BytesApart) (key : FlowKey) (tsUs : UInt64) :
    (table.retiredBytes key tsUs).Nodup := by
  refine (apart key).sublist ?_
  rw [flowsOf, List.map_append, List.map_map, retiredBytes]
  refine List.Sublist.append (.refl _) ?_
  cases table.flows.lookup key with
  | none => exact List.nil_sublist _
  | some flow =>
      by_cases expired : table.isExpired flow tsUs = true
      · simp [expired]
      · simp [expired]

theorem call_bytes_apart_iff (apart : table.BytesApart) (next : Call) :
    (table.call next).BytesApart ↔ ¬ table.TiesRetired next := by
  cases next with
  | flush iteration =>
      have same (key : FlowKey) : (table.call (.flush iteration)).flowsOf key = table.flowsOf key :=
        Ledger.settle_accounts table.toBook key _ (iteration.lists table)
      refine iff_of_true (fun key => ?_) id
      rw [same]
      exact apart key
  | addPacket capture =>
      rcases add_packet_cases table capture with ⟨arp, result⟩ | ⟨err, -, failed, result⟩ |
        ⟨key, posts⟩
      · rw [call, result]
        refine iff_of_true apart ?_
        rintro ⟨notArp, -⟩
        rw [arp] at notArp
        cases notArp
      · rw [call, result]
        refine iff_of_true apart ?_
        rintro ⟨-, raw, found, -⟩
        rw [failed] at found
        cases found
      · have ties : table.TiesRetired (.addPacket capture) ↔
            table.continuedBytes key capture.tsUs + capture.packetHeader.inclLen.toNat ∈
              table.retiredBytes key capture.tsUs := by
          obtain ⟨raw, found, rfl⟩ := posts.keyed
          constructor
          · rintro ⟨-, other, same, tied⟩
            obtain rfl : raw = other := Except.ok.inj (found.symm.trans same)
            exact tied
          · exact fun tied => ⟨posts.notArp, raw, found, tied⟩
        rw [ties, call]
        constructor
        · intro after tied
          have own := after key
          rw [posts_bytes posts, List.nodup_append] at own
          exact own.2.2 _ tied _ (List.mem_singleton_self _) rfl
        · intro free other
          by_cases different : key ≠ other
          · rw [flows_of_accounts, posts.book, Ledger.post_accounts_other _ _ _ _ different]
            exact apart other
          · obtain rfl := not_ne_iff.mp different
            rw [posts_bytes posts, List.nodup_append]
            refine ⟨retired_bytes_nodup apart key capture.tsUs, List.nodup_singleton _, ?_⟩
            rintro bytes member _ single rfl
            rw [List.mem_singleton.mp single] at member
            exact free member

end Steps

theorem reached_append_one {activeTimeoutUs idleTimeoutUs : UInt64} (calls : List Call)
    (next : Call) : reached activeTimeoutUs idleTimeoutUs (calls ++ [next]) =
      (reached activeTimeoutUs idleTimeoutUs calls).call next :=
  List.foldl_append

/-- In every run the listing is determined at each table reached exactly if no packet makes its
flow count as many bytes as a retired flow of its key. -/
theorem listing_determined_iff (activeTimeoutUs idleTimeoutUs : UInt64) (calls : List Call) :
    (∀ first, first <+: calls → (reached activeTimeoutUs idleTimeoutUs first).Determined) ↔
      ∀ before next, before ++ [next] <+: calls →
        ¬ (reached activeTimeoutUs idleTimeoutUs before).TiesRetired next := by
  refine RunPrefixes.holds_throughout_iff ?_ ?_ calls
  · rw [determined_iff]
    intro key
    exact List.nodup_nil
  · intro before next determined
    rw [determined_iff] at determined ⊢
    rw [reached_append_one]
    exact call_bytes_apart_iff determined next

/-- A packet is repeated after the idle timeout: its two flows count as many bytes and may be
listed in either order. -/
theorem repeated_packet_ties :
    let packet : UInt64 → Capture := fun tsUs =>
      { tsUs := tsUs
        packetHeader := { inclLen := 60 }
        pkt :=
          { network := .v4 { srcIp := 0x0A000001, dstIp := 0x0A000002 }
            transport := .udp { srcPort := 5000, dstPort := 5001 } } }
    let table := reached 0 defaultIdleTimeoutUs
      [.addPacket (packet 0), .addPacket (packet 30000001)]
    ¬ table.Determined ∧
      ∃ left right, left ≠ right ∧ table.ListedAs left ∧ table.ListedAs right := by
  intro packet table
  let listing := table.completed ++ table.activeFlows
  have different : listing ≠ listing.reverse := by decide
  have listed : table.ListedAs listing :=
    ⟨⟨table.activeFlows, .refl _, .refl _⟩, by decide⟩
  have turned : table.ListedAs listing.reverse :=
    ⟨⟨table.activeFlows, .refl _, List.reverse_perm _⟩, by decide⟩
  refine ⟨fun determined => different ?_, _, _, different, listed, turned⟩
  exact ((determined.listing _).mp listed).trans ((determined.listing _).mp turned).symm

end PcapAnalyzer.FlowTable
