import PcapAnalyzer.Decode.AppDecoder

/-!
# The decoder

`decode` takes one captured packet through decoding, the filter, the flow table, TCP
reassembly and the application decoders. Timing and the formatting of statistics
are left out.
-/

namespace PcapAnalyzer

open Pcap (Capture)

set_option autoImplicit false

structure Config where
  verifyChecksum : Bool := true
  flowActiveTimeoutUs : UInt64 := 0
  flowIdleTimeoutUs : UInt64 := defaultIdleTimeoutUs
  filter : FlowKey := {}

structure Decoder where
  config : Config := {}
  flowTable : FlowTable := {}
  dnsTable : DnsTable := {}
  appDecoder : AppDecoder := {}
  decoded : Nat := 0

namespace Decoder

/-- The constructor. -/
def new (config : Config) : Decoder :=
  { config := config
    flowTable :=
      { activeTimeoutUs := config.flowActiveTimeoutUs
        idleTimeoutUs := config.flowIdleTimeoutUs } }

/-- The filter refuses the packet. -/
def filtered (filter : FlowKey) (pkt : Packet) : Bool :=
  filter.isNonZero &&
    match FlowTable.keyFromPacket pkt {} with
    | .error _ => true
    | .ok key => !filter.matchesPkt key

/-- The segment is sent on the stream of its direction and received by the other one. -/
def reassemble (flow : Flow) (tcp : Tcp.Header) (payload : List UInt8) : Flow :=
  if flow.isReverse then
    { flow with
      revTcp := flow.revTcp.onSent tcp payload
      fwdTcp := flow.fwdTcp.onReceived tcp }
  else
    { flow with
      fwdTcp := flow.fwdTcp.onSent tcp payload
      revTcp := flow.revTcp.onReceived tcp }

/-- What `decode` does with the active flow of the packet, and the state it reads there. -/
def pollPacket (pkt : Packet) (key : FlowKey) (isNew : Bool) (poll : AppDecoder.FlowPoll) :
    AppDecoder.FlowPoll :=
  match pkt.transport with
  | .tcp tcp =>
      AppDecoder.pollFlow key { poll with flow := reassemble poll.flow tcp pkt.payload } isNew
  | .udp _ => AppDecoder.pollDatagram key poll pkt.payload isNew
  | _ => poll

/-- The packet has been added to a flow: `flow` of `addPacket` points to it. -/
def decodeFlow (decoder : Decoder) (capture : Capture) (key : FlowKey) (isNew : Bool) : Decoder :=
  match decoder.flowTable.flows.lookup key with
  | none => decoder
  | some flow =>
      let polled := pollPacket capture.pkt key isNew
        { decoder := decoder.appDecoder, flow := flow, dnsTable := decoder.dnsTable }
      { decoder with
        flowTable := { decoder.flowTable with
          flows := decoder.flowTable.flows.insert key polled.flow }
        dnsTable := polled.dnsTable
        appDecoder := polled.decoder }

/-- The part of `decode` after the packet has been decoded. -/
def decodeCapture (decoder : Decoder) (capture : Capture) : ParseError × Decoder :=
  if filtered decoder.config.filter capture.pkt then (.filtered, decoder) else
  let (added, flowTable) := decoder.flowTable.addPacket capture
  let decoder := { decoder with flowTable := flowTable }
  if added.err ≠ .none then (added.err, decoder) else
  let decoder := if added.flow then decoder.decodeFlow capture added.key added.isNew else decoder
  (.none, { decoder with decoded := decoder.decoded + 1 })

def decode (decoder : Decoder) (span : List UInt8) (capture : Capture) :
    ParseError × Capture × Decoder :=
  let parsed := decodePacket span capture.pkt.reset decoder.config.verifyChecksum
  let capture := { capture with pkt := parsed.header }
  if parsed.err ≠ .none then (parsed.err, capture, decoder) else
  let (err, decoder) := decoder.decodeCapture capture
  (err, capture, decoder)

end Decoder

end PcapAnalyzer
