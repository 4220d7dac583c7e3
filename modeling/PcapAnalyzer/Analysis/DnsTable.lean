import PcapAnalyzer.Flow.FlowTable
import PcapAnalyzer.Protocols.Dns

/-!
# Names by address

The answers and additional records of every DNS response, filed under the address
they give.
-/

namespace PcapAnalyzer

set_option autoImplicit false

structure IpKey where
  isIpv4 : Bool := false
  ip : Address := Address.zero
  deriving DecidableEq

structure DnsTable where
  domainsByIp : AList fun _ : IpKey => List (List UInt8) := ∅

namespace DnsTable

/-- The address of an `A` or `AAAA` record of the right length. -/
def addressOf (rr : Dns.ResourceRecord) : Option IpKey :=
  if rr.type = Dns.typeA ∧ rr.rdata.length = 4 then
    some { isIpv4 := true, ip := Address.copy rr.rdata }
  else if rr.type = Dns.typeAaaa ∧ rr.rdata.length = 16 then
    some { isIpv4 := false, ip := Address.copy rr.rdata }
  else none

def recordRecord (table : DnsTable) (rr : Dns.ResourceRecord) : DnsTable :=
  match addressOf rr with
  | none => table
  | some key =>
      let names := (table.domainsByIp.lookup key).getD []
      { domainsByIp := table.domainsByIp.insert key
          (if rr.name ∈ names then names else names ++ [rr.name]) }

def recordRecords (table : DnsTable) (records : List Dns.ResourceRecord) : DnsTable :=
  records.foldl recordRecord table

def record (table : DnsTable) (message : Dns.Header) : DnsTable :=
  if message.isResponse then
    (table.recordRecords message.answers).recordRecords message.additional
  else table

/-- `none` is the null pointer of the source. -/
def domainsFor (table : DnsTable) (ip : Address) (isIpv4 : Bool) : Option (List (List UInt8)) :=
  table.domainsByIp.lookup { isIpv4 := isIpv4, ip := ip }

end DnsTable

end PcapAnalyzer
