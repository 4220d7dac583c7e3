import Mathlib.Data.List.AList
import PcapAnalyzer.Capture.Pcap
import PcapAnalyzer.Flow.FlowKey
import PcapAnalyzer.Flow.TcpReassembler

/-!
# The flow table

`addPacket` counts a packet in the flow of its key, retiring the active flow first
when it has expired. An unordered map is an association list with unique keys; the
order in which it is iterated is a parameter wherever the source iterates it.
Packet and byte counters are natural numbers, timestamps are 64-bit words.
-/

namespace PcapAnalyzer

open Pcap (Capture)

set_option autoImplicit false

/-- `std::unordered_map`. -/
abbrev KeyMap (Value : Type) : Type := AList fun _ : FlowKey => Value

structure FlowStats where
  packets : Nat := 0
  bytes : Nat := 0
  deriving DecidableEq, Repr

/-- `appState` points to a node of the application decoder's map, which is named by
the node's key. -/
structure Flow where
  firstSeen : UInt64 := 0
  lastSeen : UInt64 := 0
  fwdStats : FlowStats := {}
  revStats : FlowStats := {}
  fwdTcp : TcpReassembler := {}
  revTcp : TcpReassembler := {}
  isReverse : Bool := false
  appState : Option FlowKey := none
  deriving DecidableEq

namespace Flow

def totalPackets (flow : Flow) : Nat := flow.fwdStats.packets + flow.revStats.packets

def totalBytes (flow : Flow) : Nat := flow.fwdStats.bytes + flow.revStats.bytes

end Flow

def FlowStats.count (stats : FlowStats) (inclLen : UInt32) : FlowStats :=
  { packets := stats.packets + 1
    bytes := stats.bytes + inclLen.toNat }

def defaultIdleTimeoutUs : UInt64 := 30000000

structure FlowTable where
  activeTimeoutUs : UInt64 := 0
  idleTimeoutUs : UInt64 := defaultIdleTimeoutUs
  totalBytes : Nat := 0
  flows : KeyMap Flow := ∅
  completed : List (FlowKey × Flow) := []

namespace FlowTable

def dnsPort : UInt16 := 53
def httpPort : UInt16 := 80

def portHasAppDecoder (key : FlowKey) : Bool :=
  key.srcPort = dnsPort || key.dstPort = dnsPort || key.srcPort = httpPort ||
    key.dstPort = httpPort

def setNetwork (network : NetworkHeader) (out : FlowKey) : Option FlowKey :=
  match network with
  | .v4 v4 => some { out with
      srcIp := Address.copyV4 v4.srcIp out.srcIp
      dstIp := Address.copyV4 v4.dstIp out.dstIp
      isIpv4 := true }
  | .v6 v6 => some { out with
      srcIp := Address.copy v6.srcIp
      dstIp := Address.copy v6.dstIp
      isIpv4 := false }
  | .arp _ | .monostate => none

/-- An echo message is filed under its identifier, any other ICMP message under its
type and code. -/
def setIcmpPorts (protocol : UInt8) (echo : Bool) (type code : UInt8) (id : UInt16)
    (out : FlowKey) : FlowKey :=
  if echo then { out with protocol := protocol, srcPort := id, dstPort := id }
  else { out with
    protocol := protocol
    srcPort := (type.toUInt16 <<< 8) ||| code.toUInt16
    dstPort := 0 }

def setPorts (transport : TransportHeader) (out : FlowKey) : Option FlowKey :=
  match transport with
  | .icmp h => some (setIcmpPorts Ip.protocolIcmp
      (h.type = Icmp.typeEchoRequest || h.type = Icmp.typeEchoReply) h.type h.code h.echoId out)
  | .icmpv6 h => some (setIcmpPorts Ip.protocolIcmpv6
      (h.type = Icmpv6.typeEchoRequest || h.type = Icmpv6.typeEchoReply) h.type h.code
      h.echoId out)
  | .tcp tcp => some { out with
      srcPort := tcp.srcPort, dstPort := tcp.dstPort, protocol := Ip.protocolTcp }
  | .udp udp => some { out with
      srcPort := udp.srcPort, dstPort := udp.dstPort, protocol := Ip.protocolUdp }
  | .monostate => none

def keyFromPacket (pkt : Packet) (out : FlowKey) : Except ParseError FlowKey :=
  match setNetwork pkt.network out with
  | none => .error .unsupportedNetworkType
  | some out =>
      match setPorts pkt.transport out with
      | none => .error .unsupportedTransportType
      | some out => .ok out

def isExpired (table : FlowTable) (flow : Flow) (tsUs : UInt64) : Bool :=
  if tsUs < flow.lastSeen then false else
  tsUs - flow.lastSeen > table.idleTimeoutUs ||
    (table.activeTimeoutUs ≠ 0 && tsUs - flow.firstSeen > table.activeTimeoutUs)

/-- The flow `try_emplace` creates. Payload is kept only where a decoder reads it. -/
def newFlow (key : FlowKey) (tsUs : UInt64) : Flow :=
  if portHasAppDecoder key then { firstSeen := tsUs } else
  { firstSeen := tsUs
    fwdTcp := { keepPayload := false }
    revTcp := { keepPayload := false } }

/-- The packet is counted in the statistics of its direction. -/
def countPacket (flow : Flow) (isReverse : Bool) (capture : Capture) : Flow :=
  let flow := { flow with lastSeen := capture.tsUs, isReverse := isReverse }
  if isReverse then
    { flow with revStats := flow.revStats.count capture.packetHeader.inclLen }
  else { flow with fwdStats := flow.fwdStats.count capture.packetHeader.inclLen }

/-- The out-parameters of `addPacket`. `flow` tells whether `out_flow` is set; it then
points to the active flow of `key`. -/
structure Added where
  err : ParseError
  key : FlowKey := {}
  isNew : Bool := false
  flow : Bool := false
  deriving DecidableEq

/-- An expired flow of the key moves to `completed`. -/
def retireExpired (table : FlowTable) (key : FlowKey) (tsUs : UInt64) : FlowTable :=
  match table.flows.lookup key with
  | some flow =>
      if table.isExpired flow tsUs then
        { table with
          completed := table.completed ++ [(key, flow)]
          flows := table.flows.erase key }
      else table
  | none => table

/-- The active flow of the key, and whether it had to be created. -/
def findOrCreate (table : FlowTable) (key : FlowKey) (tsUs : UInt64) : Bool × Flow :=
  match table.flows.lookup key with
  | some flow => (false, flow)
  | none => (true, newFlow key tsUs)

/-- The rest of `addPacket` once the key is known and normalised. -/
def addToFlow (table : FlowTable) (capture : Capture) (isReverse : Bool) (key : FlowKey) :
    Added × FlowTable :=
  let table := { table with
    totalBytes := table.totalBytes + capture.packetHeader.inclLen.toNat }
  let table := table.retireExpired key capture.tsUs
  let (isNew, flow) := table.findOrCreate key capture.tsUs
  ({ err := .none, key := key, isNew := isNew, flow := true },
    { table with flows := table.flows.insert key (countPacket flow isReverse capture) })

def addPacket (table : FlowTable) (capture : Capture) : Added × FlowTable :=
  if capture.pkt.isArp then ({ err := .none }, table) else
  match keyFromPacket capture.pkt {} with
  | .error err => ({ err := err }, table)
  | .ok key =>
      let (isReverse, key) := key.normalize
      table.addToFlow capture isReverse key

def activeFlows (table : FlowTable) : List (FlowKey × Flow) :=
  table.flows.entries.map fun entry => (entry.1, entry.2)

/-- The retired flows of a key in the order of their retirement, then its active flow. -/
def flowsOf (table : FlowTable) (key : FlowKey) : List Flow :=
  ((table.completed.filter fun entry => entry.1 = key).map Prod.snd) ++
    (table.flows.lookup key).toList

/-- The order of the comparator of `allFlows`: more bytes first, then `memcmp` of the keys. -/
def listedBefore (left right : FlowKey × Flow) : Bool :=
  left.2.totalBytes > right.2.totalBytes ||
    (left.2.totalBytes = right.2.totalBytes && compare left.1.bytes right.1.bytes ≠ .gt)

def allFlows (table : FlowTable) : List (FlowKey × Flow) :=
  (table.completed ++ table.activeFlows).mergeSort listedBefore

/-- `iteration` lists the active flows in the order in which the map is iterated. -/
def flush (table : FlowTable) (iteration : List (FlowKey × Flow)) : FlowTable :=
  { table with
    completed := table.completed ++ iteration
    flows := ∅ }

end FlowTable

end PcapAnalyzer
