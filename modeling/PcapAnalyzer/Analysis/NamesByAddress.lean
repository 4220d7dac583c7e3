import PcapAnalyzer.Analysis.DnsTable
import PcapAnalyzer.Decode.Layers
import PcapAnalyzer.Flow.Conversation

/-!
# The names of an address

What the table answers for the addresses of a flow is what the responses recorded so far say
about these addresses. The flow side pads the bytes of a header with zeros and the DNS side
the bytes of a record, and the two meet in the same key.
-/

namespace PcapAnalyzer

open Conversation (addresses)

set_option autoImplicit false

namespace DnsTable

def recorded (messages : List Dns.Header) : DnsTable := messages.foldl record {}

/-- The records of a message that are filed. -/
def filedRecords (message : Dns.Header) : List Dns.ResourceRecord :=
  if message.isResponse then message.answers ++ message.additional else []

/-- The record gives the address: an `A` record with its four octets, an `AAAA` record with
its sixteen. -/
def gives (isIpv4 : Bool) (wire : List UInt8) (rr : Dns.ResourceRecord) : Bool :=
  if isIpv4 then rr.type = Dns.typeA && rr.rdata.length = 4 && rr.rdata = wire
  else rr.type = Dns.typeAaaa && rr.rdata.length = 16 && rr.rdata = wire

/-- Nothing for no names at all, else the names in the order they first occur. -/
def listed (names : List (List UInt8)) : Option (List (List UInt8)) :=
  if names = [] then none else some names.eraseDups

/-- What the responses say about an address. -/
def namesOf (messages : List Dns.Header) (isIpv4 : Bool) (wire : List UInt8) :
    Option (List (List UInt8)) :=
  listed (((messages.flatMap filedRecords).filter (gives isIpv4 wire)).map
    Dns.ResourceRecord.name)

section Recording

/-- The table answers for every address what the messages say about it, and holds nothing
else. -/
structure Tells (table : DnsTable) (messages : List Dns.Header) : Prop where
  names : ∀ (isIpv4 : Bool) (wire : List UInt8), wire.length = (if isIpv4 then 4 else 16) →
    table.domainsFor (Address.copy wire) isIpv4 = namesOf messages isIpv4 wire
  others : ∀ key : IpKey, (∀ wire : List UInt8, wire.length = (if key.isIpv4 then 4 else 16) →
    key.ip ≠ Address.copy wire) → table.domainsByIp.lookup key = none

/-- The table holds what the records so far say. -/
def Holds (table : DnsTable) (past : List Dns.ResourceRecord) : Prop :=
  ∀ key, table.domainsByIp.lookup key =
    listed ((past.filter fun rr => addressOf rr = some key).map Dns.ResourceRecord.name)

theorem listed_snoc (names : List (List UInt8)) (name : List UInt8) :
    listed (names ++ [name]) = some (if name ∈ (listed names).getD [] then (listed names).getD []
      else (listed names).getD [] ++ [name]) := by
  have added : (names ++ [name]).eraseDups =
      if name ∈ names.eraseDups then names.eraseDups else names.eraseDups ++ [name] := by
    rw [List.eraseDups_append]
    by_cases known : name ∈ names
    · simp [List.removeAll, known]
    · simp [List.removeAll, known, List.eraseDups_cons]
  have nonempty : names ++ [name] ≠ [] := by simp
  rw [listed, if_neg nonempty, added]
  by_cases empty : names = []
  · simp [listed, empty]
  · simp [listed, empty]

theorem record_record_holds {table : DnsTable} {past : List Dns.ResourceRecord}
    (holds : table.Holds past) (rr : Dns.ResourceRecord) :
    (table.recordRecord rr).Holds (past ++ [rr]) := by
  intro key
  have before := holds key
  rw [List.filter_append, List.map_append]
  unfold recordRecord
  cases given : addressOf rr with
  | none => simpa [given] using before
  | some other =>
      by_cases same : other = key
      · subst same
        simp only [List.filter_cons, given, decide_true, if_true, List.filter_nil, List.map_cons,
          List.map_nil, listed_snoc, AList.lookup_insert, before]
      · have unequal : ¬ some other = some key := by simpa using same
        rw [AList.lookup_insert_ne (Ne.symm same)]
        simpa [given, same] using before

theorem record_records_holds {table : DnsTable} {past : List Dns.ResourceRecord}
    (holds : table.Holds past) (records : List Dns.ResourceRecord) :
    (table.recordRecords records).Holds (past ++ records) := by
  unfold recordRecords
  induction records generalizing table past with
  | nil => simpa using holds
  | cons rr records ih =>
      have step := ih (record_record_holds holds rr)
      rw [List.append_assoc, List.singleton_append] at step
      exact step

theorem record_holds {table : DnsTable} {past : List Dns.ResourceRecord}
    (holds : table.Holds past) (message : Dns.Header) :
    (table.record message).Holds (past ++ filedRecords message) := by
  unfold record filedRecords
  cases message.isResponse with
  | false => simpa using holds
  | true =>
      rw [if_pos rfl, if_pos rfl, ← List.append_assoc]
      exact record_records_holds (record_records_holds holds _) _

theorem record_all_holds {table : DnsTable} {past : List Dns.ResourceRecord}
    (holds : table.Holds past) (messages : List Dns.Header) :
    (messages.foldl record table).Holds (past ++ messages.flatMap filedRecords) := by
  induction messages generalizing table past with
  | nil => simpa using holds
  | cons message messages ih =>
      have step := ih (record_holds holds message)
      rw [List.append_assoc] at step
      exact step

theorem recorded_holds (messages : List Dns.Header) :
    (recorded messages).Holds (messages.flatMap filedRecords) := by
  have empty : Holds {} [] := fun _ => rfl
  exact record_all_holds empty messages

end Recording

section Addresses

theorem copy_same_iff {left right : List UInt8} {size : Nat} (leftSize : left.length = size)
    (rightSize : right.length = size) (fits : size ≤ 16) :
    Address.copy left = Address.copy right ↔ left = right :=
  ⟨Address.copy_inj (leftSize.trans rightSize.symm) (leftSize.le.trans fits),
    congrArg Address.copy⟩

/-- A record is filed under the padded address it gives. -/
theorem address_of_iff (rr : Dns.ResourceRecord) {isIpv4 : Bool} {wire : List UInt8}
    (sized : wire.length = if isIpv4 then 4 else 16) :
    addressOf rr = some { isIpv4 := isIpv4, ip := Address.copy wire } ↔
      gives isIpv4 wire rr = true := by
  unfold addressOf gives
  by_cases quad : rr.type = Dns.typeA ∧ rr.rdata.length = 4
  · rw [if_pos quad]
    cases isIpv4 with
    | true => simp [quad, copy_same_iff quad.2 sized (by decide)]
    | false => simp [quad, Dns.typeA, Dns.typeAaaa]
  rw [if_neg quad]
  by_cases full : rr.type = Dns.typeAaaa ∧ rr.rdata.length = 16
  · rw [if_pos full]
    cases isIpv4 with
    | true => simp [full]
    | false => simp [full, copy_same_iff full.2 sized (by decide)]
  · rw [if_neg full]
    rw [not_and] at quad full
    cases isIpv4 with
    | true => simpa using fun type length _ => quad type length
    | false => simpa using fun type length _ => full type length

/-- The records that are filed under a padded address are those that give it. -/
theorem filed_under_wire (records : List Dns.ResourceRecord) {isIpv4 : Bool} {wire : List UInt8}
    (sized : wire.length = if isIpv4 then 4 else 16) :
    records.filter (fun rr => addressOf rr = some { isIpv4 := isIpv4, ip := Address.copy wire }) =
      records.filter (gives isIpv4 wire) := by
  apply List.filter_congr
  intro rr _
  rw [Bool.eq_iff_iff, decide_eq_true_iff]
  exact address_of_iff rr sized

/-- A record is filed under an address of four or sixteen octets. -/
theorem address_of_sized {rr : Dns.ResourceRecord} {key : IpKey} (given : addressOf rr = some key) :
    rr.rdata.length = (if key.isIpv4 then 4 else 16) ∧ key.ip = Address.copy rr.rdata := by
  unfold addressOf at given
  split_ifs at given with quad full
  · cases given
    exact ⟨quad.2, rfl⟩
  · cases given
    exact ⟨full.2, rfl⟩

/-- No record is filed under what is no padded address. -/
theorem unfiled_of_unpadded (records : List Dns.ResourceRecord) {key : IpKey}
    (unpadded : ∀ wire : List UInt8, wire.length = (if key.isIpv4 then 4 else 16) →
      key.ip ≠ Address.copy wire) : records.filter (fun rr => addressOf rr = some key) = [] := by
  apply List.filter_eq_nil_iff.mpr
  intro rr _ given
  obtain ⟨sized, copied⟩ := address_of_sized (of_decide_eq_true given)
  exact unpadded rr.rdata sized copied

/-- A table that holds the filed records of messages tells what the messages say. -/
theorem tells_iff_holds (table : DnsTable) (messages : List Dns.Header) :
    table.Tells messages ↔ table.Holds (messages.flatMap filedRecords) := by
  constructor
  · intro tells key
    by_cases unpadded : ∀ wire : List UInt8, wire.length = (if key.isIpv4 then 4 else 16) →
        key.ip ≠ Address.copy wire
    · rw [unfiled_of_unpadded _ unpadded]
      exact tells.others key unpadded
    · push Not at unpadded
      obtain ⟨wire, sized, copied⟩ := unpadded
      obtain ⟨isIpv4, ip⟩ := key
      subst copied
      rw [filed_under_wire _ sized]
      exact tells.names isIpv4 wire sized
  · intro holds
    constructor
    · intro isIpv4 wire sized
      rw [domainsFor, holds, filed_under_wire _ sized]
      rfl
    · intro key unpadded
      rw [holds, unfiled_of_unpadded _ unpadded]
      rfl

theorem empty_tells : Tells {} [] := (tells_iff_holds {} []).mpr fun _ => rfl

/-- Recording messages makes the table tell what they say besides what it told. -/
theorem Tells.record_all {table : DnsTable} {past : List Dns.Header} (tells : table.Tells past)
    (messages : List Dns.Header) : (messages.foldl record table).Tells (past ++ messages) := by
  rw [tells_iff_holds] at tells ⊢
  rw [List.flatMap_append]
  exact record_all_holds tells messages

theorem domains_for_wire (messages : List Dns.Header) {isIpv4 : Bool} {wire : List UInt8}
    (sized : wire.length = if isIpv4 then 4 else 16) :
    (recorded messages).domainsFor (Address.copy wire) isIpv4 =
      namesOf messages isIpv4 wire :=
  (empty_tells.record_all messages).names isIpv4 wire sized

/-- The answers for the two addresses of a key. -/
structure Answers (messages : List Dns.Header) (key : FlowKey) (isIpv4 : Bool)
    (source destination : List UInt8) : Prop where
  version : key.isIpv4 = isIpv4
  src : (recorded messages).domainsFor key.srcIp key.isIpv4 = namesOf messages isIpv4 source
  dst : (recorded messages).domainsFor key.dstIp key.isIpv4 = namesOf messages isIpv4 destination

theorem Answers.swap {messages : List Dns.Header} {key : FlowKey} {isIpv4 : Bool}
    {source destination : List UInt8}
    (answers : Answers messages key isIpv4 source destination) :
    Answers messages key.swap isIpv4 destination source :=
  ⟨answers.version, answers.dst, answers.src⟩

/-- The answers for a key and for the normalised key. -/
structure AnswersEitherWay (messages : List Dns.Header) (key : FlowKey) (isIpv4 : Bool)
    (source destination : List UInt8) : Prop where
  asBuilt : Answers messages key isIpv4 source destination
  normalised : if key.normalize.1 then Answers messages key.normalize.2 isIpv4 destination source
    else Answers messages key.normalize.2 isIpv4 source destination

theorem set_ports_network {transport : TransportHeader} {before key : FlowKey}
    (set : FlowTable.setPorts transport before = some key) : key.isIpv4 = before.isIpv4 ∧
      key.srcIp = before.srcIp ∧ key.dstIp = before.dstIp := by
  cases transport with
  | monostate => cases set
  | tcp header =>
      cases set
      exact ⟨rfl, rfl, rfl⟩
  | udp header =>
      cases set
      exact ⟨rfl, rfl, rfl⟩
  | icmp header =>
      simp only [FlowTable.setPorts, FlowTable.setIcmpPorts, Option.some.injEq] at set
      subst set
      split_ifs <;> exact ⟨rfl, rfl, rfl⟩
  | icmpv6 header =>
      simp only [FlowTable.setPorts, FlowTable.setIcmpPorts, Option.some.injEq] at set
      subst set
      split_ifs <;> exact ⟨rfl, rfl, rfl⟩

/-- The addresses of a key are those of the header, padded. -/
theorem key_addresses {pkt : Packet} {key : FlowKey} {isIpv4 : Bool}
    {source destination : List UInt8}
    (keyed : FlowTable.keyFromPacket pkt {} = .ok key)
    (wired : addresses pkt.network = some (isIpv4, source, destination)) :
    key.isIpv4 = isIpv4 ∧ key.srcIp = Address.copy source ∧
      key.dstIp = Address.copy destination := by
  unfold FlowTable.keyFromPacket at keyed
  simp only [Conversation.set_network_addresses wired] at keyed
  cases set : FlowTable.setPorts pkt.transport
    { isIpv4 := isIpv4, srcIp := Address.copy source, dstIp := Address.copy destination } with
  | none => simp [set] at keyed
  | some filed =>
      simp only [set, Except.ok.injEq] at keyed
      subst keyed
      exact set_ports_network set

theorem answers_either_way (messages : List Dns.Header) {pkt : Packet} {key : FlowKey}
    {isIpv4 : Bool} {source destination : List UInt8}
    (keyed : FlowTable.keyFromPacket pkt {} = .ok key)
    (wired : addresses pkt.network = some (isIpv4, source, destination)) :
    AnswersEitherWay messages key isIpv4 source destination := by
  obtain ⟨sourceSized, destinationSized⟩ := Conversation.addresses_sized wired
  obtain ⟨version, src, dst⟩ := key_addresses keyed wired
  have built : Answers messages key isIpv4 source destination := by
    refine ⟨version, ?_, ?_⟩
    · rw [version, src]
      exact domains_for_wire messages sourceSized
    · rw [version, dst]
      exact domains_for_wire messages destinationSized
  refine ⟨built, ?_⟩
  unfold FlowKey.normalize
  by_cases reversed : key.reversed = true
  · rw [if_pos reversed]
    exact built.swap
  · rw [if_neg reversed]
    exact built

end Addresses

section Frames

/-- The addresses of an IP header, cut out of the datagram. -/
def wireAddresses (isIpv4 : Bool) (datagram : List UInt8) : List UInt8 × List UInt8 :=
  if isIpv4 then (slice datagram 12 4, slice datagram 16 4)
  else (slice datagram 8 16, slice datagram 24 16)

theorem network_addresses {datagram : List UInt8} {verify : Bool} {network : NetworkHeader}
    {before key : FlowKey} (reads : NetworkOf datagram verify network)
    (set : FlowTable.setNetwork network before = some key) :
    addresses network = some (key.isIpv4, wireAddresses key.isIpv4 datagram) := by
  cases reads with
  | arp accepts => cases set
  | v4 accepts =>
      cases set
      have fixed := accepts.fixed
      simp only [Ip.V4.minHeaderLen] at fixed
      have src := wire32_to_host datagram 12 (by omega)
      have dst := wire32_to_host datagram 16 (by omega)
      simp only [addresses, wireAddresses, if_true]
      rw [← src, ← dst]
      rfl
  | v6 accepts =>
      cases set
      have fixed := accepts.fixed
      simp only [Ip.V6.headerLen] at fixed
      have sized : (slice datagram 8 16).length = 16 ∧ (slice datagram 24 16).length = 16 := by
        rw [slice_length, slice_length]
        omega
      exact if_pos sized

end Frames

/-- What the table answers for the addresses of a key is exactly what was recorded about the
bytes they have in the header, and so about the bytes they have on the wire. -/
theorem domains_for_exact (messages : List Dns.Header) :
    (∀ (pkt : Packet) (key : FlowKey) (isIpv4 : Bool) (source destination : List UInt8),
      FlowTable.keyFromPacket pkt {} = .ok key →
      addresses pkt.network = some (isIpv4, source, destination) →
      AnswersEitherWay messages key isIpv4 source destination) ∧
    ∀ (frame : List UInt8) (out : Packet) (verify : Bool) (key : FlowKey),
      (decodePacket frame out verify).err = .none →
      FlowTable.keyFromPacket (decodePacket frame out verify).header {} = .ok key →
      AnswersEitherWay messages key key.isIpv4
        (wireAddresses key.isIpv4 (decodeLayer2 frame out).span).1
        (wireAddresses key.isIpv4 (decodeLayer2 frame out).span).2 := by
  refine ⟨fun _ _ _ _ _ keyed wired => answers_either_way messages keyed wired, ?_⟩
  intro frame out verify key passed keyed
  have network := decode_packet_network passed
  apply answers_either_way messages keyed
  unfold FlowTable.keyFromPacket at keyed
  cases set : FlowTable.setNetwork (decodePacket frame out verify).header.network {} with
  | none => simp [set] at keyed
  | some before =>
      have wired := network_addresses network set
      simp only [set] at keyed
      cases ported : FlowTable.setPorts (decodePacket frame out verify).header.transport before with
      | none => simp [ported] at keyed
      | some filed =>
          simp only [ported, Except.ok.injEq] at keyed
          subst keyed
          rw [(set_ports_network ported).1]
          exact wired

/-- A response that gives one address twice, under two names. -/
def nameResponse : Dns.Header :=
  { flags := 0x8000
    answers :=
      [{ name := text ['a'], type := Dns.typeA, rdata := [10, 0, 0, 2] },
        { name := text ['b'], type := Dns.typeA, rdata := [10, 0, 0, 2] },
        { name := text ['a'], type := Dns.typeA, rdata := [10, 0, 0, 2] }] }

/-- A datagram without payload from 10.0.0.1 to 10.0.0.2. -/
def namedFrame : List UInt8 :=
  List.replicate 12 0 ++ wire16 Ethernet.ethertypeIpv4 ++
    [0x45, 0, 0, 28, 0, 0, 0, 0, 64, 17, 0, 0, 10, 0, 0, 1, 10, 0, 0, 2] ++
    [0x9C, 0x40, 0, 80, 0, 8, 0, 0]

theorem domains_for_exact_named :
    ∃ given decoded : FlowKey,
      AnswersEitherWay [nameResponse] given true [10, 0, 0, 2] [10, 0, 0, 1] ∧
      AnswersEitherWay [nameResponse] decoded true [10, 0, 0, 1] [10, 0, 0, 2] ∧
      namesOf [nameResponse] true [10, 0, 0, 2] = some [text ['a'], text ['b']] ∧
      namesOf [nameResponse] true [10, 0, 0, 1] = none :=
  ⟨_, _,
    (domains_for_exact [nameResponse]).1
      { network := .v4 { srcIp := 0x0A000002, dstIp := 0x0A000001 }, transport := .udp {} }
      _ true [10, 0, 0, 2] [10, 0, 0, 1] rfl rfl,
    (domains_for_exact [nameResponse]).2 namedFrame { datalink := .ethernet {} } false _ rfl rfl,
    by decide, by decide⟩

end DnsTable

end PcapAnalyzer
