import PcapAnalyzer.Decode.Session
import PcapAnalyzer.Library.Limits
import PcapAnalyzer.Library.Multimaps
import PcapAnalyzer.Protocols.AddressPrinting

/-!
# The report of names

`printDns` turns the table of names by address round into one of addresses by name. The table is
iterated in any order; the addresses of a name are sorted, those of IPv4 first.
-/

namespace PcapAnalyzer

set_option autoImplicit false

def IpKey.print (ip : IpKey) : List UInt8 :=
  if ip.isIpv4 then Ip.V4.printIp ip.ip.val else Ip.V6.printIp ip.ip.val

namespace DnsTable

/-- An address with its text. -/
abbrev Resolved := IpKey × List UInt8

def resolveEntry (resolved : List (List UInt8 × List Resolved))
    (entry : (_ : IpKey) × List (List UInt8)) : List (List UInt8 × List Resolved) :=
  entry.2.foldl (fun resolved domain =>
    Multimaps.file domain (entry.1, entry.1.print) resolved) resolved

/-- The first loop, over the table in the order in which it is iterated. -/
def resolve (iteration : List ((_ : IpKey) × List (List UInt8))) :
    List (List UInt8 × List Resolved) :=
  iteration.foldl resolveEntry []

/-- The comparator of the second loop. -/
def addressBefore (left right : Resolved) : Bool :=
  if left.1.isIpv4 ≠ right.1.isIpv4 then left.1.isIpv4
  else compare left.1.ip.val right.1.ip.val = .lt

/-- What `resolved` may be once it is sorted: the table is iterated in some order, and the sort
leaves no address behind one that the comparator puts after it. -/
def ResolvedAs (table : DnsTable) (rows : List (List UInt8 × List Resolved)) : Prop :=
  ∃ iteration, iteration.Perm table.domainsByIp.entries ∧
    List.Forall₂ (fun filed row => row.1 = filed.1 ∧
      Listings.Lists (fun left right => addressBefore left right = true) filed.2 row.2)
      (resolve iteration) rows

def printRow (row : List UInt8 × List Resolved) : List UInt8 :=
  text "  ".toList ++ row.1 ++ List.replicate (48 - row.1.length) (code ' ') ++ text " ".toList ++
    (text ", ".toList).intercalate (row.2.map Prod.snd) ++ text "\n".toList

/-- `printDns` from the sorted table on. -/
def printDns (printLimit : Nat) (resolved : List (List UInt8 × List Resolved)) : List UInt8 :=
  let (os, more) := Limits.stopping (fun os row => os ++ printRow row) printLimit 0 resolved
    (text "  names resolved    ".toList ++ decimal resolved.length ++ text "\n".toList)
  os ++ (if more then text "  ... limit reached\n".toList else []) ++
    (if resolved = [] then text "  (no answers)\n".toList else []) ++ text "\n".toList

/-- The rows that the responses ask for: a row for each name of an address record, the names in
ascending order, with exactly the addresses it was given, in strict order. -/
structure Reports (messages : List Dns.Header) (rows : List (List UInt8 × List Resolved)) :
    Prop where
  names : Multimaps.Ascending rows
  addresses : ∀ row ∈ rows,
    row.2 ≠ [] ∧ row.2.Pairwise fun left right => addressBefore left right = true
  exact : ∀ name ip, (∃ row ∈ rows, row.1 = name ∧ ip ∈ row.2) ↔ ip.2 = ip.1.print ∧
    ∃ rr ∈ messages.flatMap filedRecords, rr.name = name ∧ addressOf rr = some ip.1

section Comparator

theorem address_before_iff (left right : Resolved) : addressBefore left right = true ↔
    Listings.Before (fun ip : Resolved => if ip.1.isIpv4 then 1 else 0)
      (fun ip => ip.1.ip.val) left right := by
  unfold addressBefore Listings.Before
  dsimp only
  cases left.1.isIpv4 <;> cases right.1.isIpv4 <;> simp

theorem address_before_asymm (left right : Resolved) (before : addressBefore left right = true) :
    ¬ addressBefore right left = true := by
  rw [address_before_iff] at before ⊢
  intro after
  exact Listings.before_irrefl _ _ _ (Listings.before_trans _ _ before after)

/-- Entries of different addresses are ordered. -/
theorem addresses_ordered {addresses : List Resolved}
    (apart : (addresses.map Prod.fst).Nodup) :
    Listings.Ordered (fun left right => addressBefore left right = true) addresses := by
  refine (List.pairwise_map.mp (List.nodup_iff_pairwise_ne.mp apart)).imp ?_
  intro left right different
  simp only [address_before_iff, Listings.before_or_before_iff]
  intro same
  apply different
  obtain ⟨ip, version⟩ := Prod.mk.inj same
  obtain ⟨⟨leftV4, leftIp⟩, leftText⟩ := left
  obtain ⟨⟨rightV4, rightIp⟩, rightText⟩ := right
  obtain rfl := Subtype.ext ip
  cases leftV4 <;> cases rightV4 <;> simp_all

end Comparator

section Entries

/-- The pairs of a name and an address that the first loop comes across. -/
def entriesOf (iteration : List ((_ : IpKey) × List (List UInt8))) :
    List (List UInt8 × Resolved) :=
  iteration.flatMap fun entry => entry.2.map fun domain => (domain, entry.1, entry.1.print)

theorem resolve_eq (iteration : List ((_ : IpKey) × List (List UInt8))) :
    resolve iteration = Multimaps.fileAll (entriesOf iteration) [] := by
  unfold resolve Multimaps.fileAll entriesOf
  rw [List.foldl_flatMap]
  congr 1
  funext resolved entry
  rw [List.foldl_map]
  rfl

theorem erase_dups_nodup (names : List (List UInt8)) : names.eraseDups.Nodup := by
  induction names using List.reverseRecOn with
  | nil => exact List.nodup_nil
  | append_singleton names name ih =>
      rw [List.eraseDups_append]
      by_cases known : name ∈ names
      · simpa [List.removeAll, known] using ih
      · have apart : ∀ other ∈ names, ¬ other = name := by
          rintro other member rfl
          exact known member
        simpa [List.removeAll, known, List.eraseDups_cons, List.nodup_append] using ⟨ih, apart⟩

theorem listed_some {names kept : List (List UInt8)} :
    listed names = some kept ↔ names ≠ [] ∧ kept = names.eraseDups := by
  unfold listed
  split_ifs with none <;> simp [none, eq_comm]

variable {messages : List Dns.Header} {iteration : List ((_ : IpKey) × List (List UInt8))}

theorem iteration_entry (order : iteration.Perm (recorded messages).domainsByIp.entries)
    {entry : (_ : IpKey) × List (List UInt8)} : entry ∈ iteration ↔
      listed (((messages.flatMap filedRecords).filter fun rr => addressOf rr = some entry.1).map
        Dns.ResourceRecord.name) = some entry.2 := by
  rw [order.mem_iff, ← recorded_holds messages entry.1]
  exact AList.mem_lookup_iff.symm

theorem mem_entries_of (order : iteration.Perm (recorded messages).domainsByIp.entries)
    {name : List UInt8} {ip : Resolved} : (name, ip) ∈ entriesOf iteration ↔
      ip.2 = ip.1.print ∧
        ∃ rr ∈ messages.flatMap filedRecords, rr.name = name ∧ addressOf rr = some ip.1 := by
  simp only [entriesOf, List.mem_flatMap, List.mem_map, Prod.mk.injEq]
  constructor
  · rintro ⟨entry, stored, domain, named, rfl, rfl⟩
    obtain ⟨-, kept⟩ := listed_some.mp ((iteration_entry order).mp stored)
    rw [kept, List.mem_eraseDups, List.mem_map] at named
    obtain ⟨rr, filed, named⟩ := named
    rw [List.mem_filter, decide_eq_true_eq] at filed
    exact ⟨rfl, rr, List.mem_flatMap.mp filed.1, named, filed.2⟩
  · rintro ⟨printed, rr, filed, rfl, given⟩
    have kept : rr.name ∈ ((messages.flatMap filedRecords).filter fun rr =>
        addressOf rr = some ip.1).map Dns.ResourceRecord.name :=
      List.mem_map_of_mem (List.mem_filter.mpr ⟨List.mem_flatMap.mpr filed, by simpa using given⟩)
    refine ⟨⟨ip.1, _⟩, (iteration_entry order).mpr
      (listed_some.mpr ⟨List.ne_nil_of_mem kept, rfl⟩), rr.name, List.mem_eraseDups.mpr kept, rfl, ?_⟩
    exact Prod.ext rfl printed.symm

/-- No name has an address twice. -/
theorem values_apart (order : iteration.Perm (recorded messages).domainsByIp.entries)
    (name : List UInt8) :
    ((Multimaps.valuesOf name (entriesOf iteration)).map Prod.fst).Nodup := by
  have keys : iteration.Pairwise fun left right => left.1 ≠ right.1 :=
    (List.nodupKeys_iff_pairwise.mp (recorded messages).domainsByIp.nodupKeys).perm order.symm
      fun different => different.symm
  have pairs : (entriesOf iteration).Pairwise fun left right =>
      left.1 ≠ right.1 ∨ left.2.1 ≠ right.2.1 := by
    unfold entriesOf
    rw [List.pairwise_flatMap]
    constructor
    · intro entry stored
      obtain ⟨-, kept⟩ := listed_some.mp ((iteration_entry order).mp stored)
      have apart : entry.2.Nodup := kept ▸ erase_dups_nodup _
      exact List.pairwise_map.mpr (apart.imp Or.inl)
    · refine keys.imp ?_
      intro left right different entry member other otherMember
      obtain ⟨_, -, rfl⟩ := List.mem_map.mp member
      obtain ⟨_, -, rfl⟩ := List.mem_map.mp otherMember
      exact Or.inr different
  unfold Multimaps.valuesOf
  rw [List.nodup_iff_pairwise_ne, List.pairwise_map, List.pairwise_map]
  refine (pairs.filter _).imp_of_mem ?_
  intro left right member otherMember different
  have named := (List.mem_filter.mp member).2
  have otherNamed := (List.mem_filter.mp otherMember).2
  rw [decide_eq_true_eq] at named otherNamed
  exact different.resolve_left (not_not.mpr (named.trans otherNamed.symm))

end Entries

section Reports

variable {messages : List Dns.Header} {rows : List (List UInt8 × List Resolved)}

/-- A row that is printed comes from one that was gathered. -/
theorem row_gathered {filed : List (List UInt8 × List Resolved)}
    (sorted : List.Forall₂ (fun filed row => row.1 = filed.1 ∧
      Listings.Lists (fun left right => addressBefore left right = true) filed.2 row.2)
      filed rows) :
    rows.map Prod.fst = filed.map Prod.fst ∧
      (∀ row ∈ rows, ∃ held ∈ filed, row.1 = held.1 ∧
        Listings.Lists (fun left right => addressBefore left right = true) held.2 row.2) ∧
      ∀ held ∈ filed, ∃ row ∈ rows, row.1 = held.1 ∧ row.2.Perm held.2 := by
  induction sorted with
  | nil => simp
  | cons head _ ih =>
      obtain ⟨names, back, forth⟩ := ih
      refine ⟨?_, ?_, ?_⟩
      · rw [List.map_cons, List.map_cons, head.1, names]
      · rw [List.forall_mem_cons]
        refine ⟨⟨_, List.mem_cons_self, head⟩, fun row member => ?_⟩
        obtain ⟨held, stored, same⟩ := back row member
        exact ⟨held, List.mem_cons_of_mem _ stored, same⟩
      · rw [List.forall_mem_cons]
        refine ⟨⟨_, List.mem_cons_self, head.1, head.2.entries⟩, fun held member => ?_⟩
        obtain ⟨row, stored, same⟩ := forth held member
        exact ⟨row, List.mem_cons_of_mem _ stored, same⟩

/-- Whatever order the table is iterated in and however the addresses are sorted, the rows are
those that the responses ask for. -/
theorem resolved_reports (resolved : (recorded messages).ResolvedAs rows) :
    Reports messages rows := by
  obtain ⟨iteration, order, sorted⟩ := resolved
  rw [resolve_eq] at sorted
  have gathers := Multimaps.file_all_gathers (entriesOf iteration)
  obtain ⟨names, back, forth⟩ := row_gathered sorted
  constructor
  · have ascending := List.pairwise_map (f := Prod.fst)
      (R := fun left right : List UInt8 => compare left right = .lt) |>.mpr gathers.ascending
    rw [← names] at ascending
    exact List.pairwise_map.mp ascending
  · intro row member
    obtain ⟨held, stored, -, lists⟩ := back row member
    obtain ⟨nonempty, values⟩ := (gathers.holds held.1 held.2).mp stored
    refine ⟨fun empty => nonempty (List.nil_perm.mp (empty ▸ lists.entries)), ?_⟩
    apply Listings.lists_strict _ lists
    rw [values]
    exact addresses_ordered (values_apart order held.1)
  · intro name ip
    rw [← mem_entries_of order, ← Multimaps.mem_values_of]
    constructor
    · rintro ⟨row, member, rfl, given⟩
      obtain ⟨held, stored, same, lists⟩ := back row member
      obtain ⟨-, values⟩ := (gathers.holds held.1 held.2).mp stored
      rw [same, ← values]
      exact lists.entries.subset given
    · intro given
      have stored := (gathers.holds name _).mpr ⟨List.ne_nil_of_mem given, rfl⟩
      obtain ⟨row, member, same, entries⟩ := forth _ stored
      exact ⟨row, member, same, entries.symm.subset given⟩

theorem Reports.row_mem (reports : Reports messages rows) {row : List UInt8 × List Resolved}
    (member : row ∈ rows) (ip : Resolved) : ip ∈ row.2 ↔ ip.2 = ip.1.print ∧
      ∃ rr ∈ messages.flatMap filedRecords, rr.name = row.1 ∧ addressOf rr = some ip.1 := by
  rw [← reports.exact]
  constructor
  · exact fun given => ⟨row, member, rfl, given⟩
  · rintro ⟨other, stored, same, given⟩
    rwa [Multimaps.row_unique reports.names stored member same] at given

/-- The responses ask for one table of rows only. -/
theorem reports_unique {left right : List (List UInt8 × List Resolved)}
    (leftReports : Reports messages left) (rightReports : Reports messages right) :
    left = right := by
  have included : ∀ {rows others : List (List UInt8 × List Resolved)}, Reports messages rows →
      Reports messages others → ∀ row ∈ rows, row ∈ others := by
    intro rows others reports othersReport row member
    obtain ⟨nonempty, strict⟩ := reports.addresses row member
    obtain ⟨ip, given⟩ := List.exists_mem_of_ne_nil _ nonempty
    obtain ⟨other, stored, same, -⟩ :=
      (othersReport.exact row.1 ip).mpr ((reports.row_mem member ip).mp given)
    have values : row.2 = other.2 := by
      refine Listings.strict_unique address_before_asymm strict
        (othersReport.addresses other stored).2 fun ip => ?_
      rw [reports.row_mem member, othersReport.row_mem stored, same]
    rwa [Prod.ext same.symm values]
  exact Multimaps.ascending_unique leftReports.names rightReports.names fun row =>
    ⟨included leftReports rightReports row, included rightReports leftReports row⟩

theorem print_dns_rows (printLimit : Nat) (rows : List (List UInt8 × List Resolved)) :
    printDns printLimit rows =
      text "  names resolved    ".toList ++ decimal rows.length ++ text "\n".toList ++
        (Limits.limited printLimit rows).flatMap printRow ++
        (if printLimit ≠ 0 ∧ printLimit < rows.length then text "  ... limit reached\n".toList
        else []) ++
        (if rows = [] then text "  (no answers)\n".toList else []) ++ text "\n".toList := by
  have loop := Limits.stopping_remaining
    (fun (os : List UInt8) (row : List UInt8 × List Resolved) => os ++ printRow row)
    printLimit 0 rows
    (text "  names resolved    ".toList ++ decimal rows.length ++ text "\n".toList)
    fun _ => Nat.zero_le _
  rw [Limits.remaining_start, List.foldl_append_eq_append, ← List.flatMap_def] at loop
  simp only [printDns, loop, Nat.zero_add, decide_eq_true_eq]

end Reports

end DnsTable

namespace Decoder

open AppDecoder

theorem step_recorded {config : Config} {decoder : Decoder} (pointers : Pointers config decoder)
    {messages : List Dns.Header} (recorded : decoder.dnsTable = DnsTable.recorded messages)
    (input : Input) : ∃ more, (step decoder input).dnsTable =
      DnsTable.recorded (messages ++ more) := by
  have same : decoder.dnsTable = DnsTable.recorded (messages ++ []) := by
    rw [List.append_nil, recorded]
  by_cases undecoded : Undecoded config input
  · rw [step_undecoded pointers.sound undecoded]
    exact ⟨[], same⟩
  · rw [step_decoded pointers.sound undecoded]
    rcases decode_capture_cases decoder (decodedCapture config input) with ignores |
      ⟨key, added, table, accepts⟩
    · rw [ignores.dnsTable]
      exact ⟨[], same⟩
    · obtain ⟨flow, polls⟩ := accepts.polls pointers.sound
      have owned : Owned key (FlowPoll.mk decoder.appDecoder flow decoder.dnsTable).flow :=
        polls.owned
      obtain ⟨result, more, read⟩ := poll_packet_log (decodedCapture config input).pkt added.isNew
        owned
      refine ⟨more, ?_⟩
      have table := congrArg FlowPoll.dnsTable (read decoder.dnsTable)
      rw [(accepts.accepted polls).dnsTable, DnsTable.recorded, List.foldl_append,
        ← DnsTable.recorded, ← recorded]
      exact table

/-- The table of names holds what messages it was given, in every state of a session. -/
theorem session_recorded {config : Config} {decoder : Decoder} (session : Session config decoder) :
    ∃ messages, decoder.dnsTable = DnsTable.recorded messages := by
  induction session with
  | start => exact ⟨[], rfl⟩
  | decode session input ih =>
      obtain ⟨messages, recorded⟩ := ih
      obtain ⟨more, extended⟩ := step_recorded (session_pointers session) recorded input
      exact ⟨messages ++ more, extended⟩
  | finish _ _ ih => exact ih

end Decoder

namespace DnsTable

/-- The table of every session is one that some messages were recorded in, and whatever messages
those are: `printDns` prints the one table of rows that their records ask for, up to the limit,
however the table was iterated and the addresses were sorted. -/
theorem names_report_exact (printLimit : Nat) :
    (∀ (config : Config) (decoder : Decoder), Decoder.Session config decoder →
      ∃ messages, decoder.dnsTable = recorded messages) ∧
    ∀ (messages : List Dns.Header) (rows : List (List UInt8 × List Resolved)),
      (recorded messages).ResolvedAs rows →
        Reports messages rows ∧ (∀ other, Reports messages other → other = rows) ∧
          printDns printLimit rows =
            text "  names resolved    ".toList ++ decimal rows.length ++ text "\n".toList ++
              (Limits.limited printLimit rows).flatMap printRow ++
              (if printLimit ≠ 0 ∧ printLimit < rows.length then
                text "  ... limit reached\n".toList else []) ++
              (if rows = [] then text "  (no answers)\n".toList else []) ++
              text "\n".toList := by
  refine ⟨fun _ _ session => Decoder.session_recorded session, ?_⟩
  intro messages rows resolved
  have reports := resolved_reports resolved
  exact ⟨reports, fun other others => reports_unique others reports,
    print_dns_rows printLimit rows⟩

/-- Two names for one address, of which one is printed. -/
theorem names_report_exact_one :
    let ip : IpKey := { isIpv4 := true, ip := Address.copy [10, 0, 0, 2] }
    let rows := [(text ['a'], [(ip, ip.print)]), (text ['b'], [(ip, ip.print)])]
    printDns 1 rows = text "  names resolved    2\n  a".toList ++
        List.replicate 47 (code ' ') ++ text " 10.0.0.2\n  ... limit reached\n\n".toList ∧
      Reports [nameResponse] rows ∧
      ∃ messages, (Decoder.new {}).dnsTable = recorded messages := by
  intro ip rows
  have resolved : (recorded [nameResponse]).ResolvedAs rows := by
    refine ⟨_, .refl _, ?_⟩
    have gathered : resolve (recorded [nameResponse]).domainsByIp.entries = rows := by
      decide +kernel
    rw [gathered]
    have single : Listings.Lists (fun left right => addressBefore left right = true)
        [(ip, ip.print)] [(ip, ip.print)] := ⟨.refl _, List.pairwise_singleton _ _⟩
    exact .cons ⟨rfl, single⟩ (.cons ⟨rfl, single⟩ .nil)
  have report := (names_report_exact 1).2 [nameResponse] rows resolved
  refine ⟨?_, report.1, (names_report_exact 1).1 {} _ .start⟩
  decide +kernel

end DnsTable

end PcapAnalyzer
