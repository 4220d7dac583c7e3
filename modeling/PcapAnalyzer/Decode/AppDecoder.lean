import PcapAnalyzer.Analysis.DnsTable
import PcapAnalyzer.Flow.FlowTable
import PcapAnalyzer.Protocols.Http

/-!
# The application decoder

The state of the DNS and HTTP decoders is kept by flow key. A poll reads whole
messages off the front of one direction of a stream; what it carries from one poll to
the next (the chunk prefix, the resynchronisation offset, the bytes still to skip) is
part of that state.
-/

namespace PcapAnalyzer

open MeasuredLoop (Turn)

set_option autoImplicit false

def maxHttpHeaderBytes : Nat := 32 * 1024
def maxHttpMessageBytes : Nat := 8 * 1024 * 1024
def maxPendingRequests : Nat := 1024

structure Applications where
  decodeFailures : Nat := 0
  httpBodiesSkipped : Nat := 0
  dnsMessages : List Dns.Header := []
  httpMessages : List Http.Header := []
  httpChunkPrefix : Nat := 0
  httpResyncScanned : Nat := 0
  httpSkip : Nat := 0
  pendingHeadRequests : List Bool := []
  httpBodyUntilClose : Bool := false
  deriving DecidableEq

structure FlowApplications where
  fwd : Applications := {}
  rev : Applications := {}
  deriving DecidableEq

/-- What can stand at the start of a message. -/
def httpMarkers : List (List UInt8) :=
  [Http.http10, Http.http11, text ['G', 'E', 'T', ' '], text ['P', 'O', 'S', 'T', ' '],
    text ['P', 'U', 'T', ' '], text ['D', 'E', 'L', 'E', 'T', 'E', ' '],
    text ['H', 'E', 'A', 'D', ' '], text ['O', 'P', 'T', 'I', 'O', 'N', 'S', ' '],
    text ['P', 'A', 'T', 'C', 'H', ' '], text ['T', 'R', 'A', 'C', 'E', ' '],
    text ['C', 'O', 'N', 'N', 'E', 'C', 'T', ' ']]

/-- The line feed at `p` ends a line and a message may start after it. -/
def resyncAt (buf : List UInt8) (p : Nat) : Bool :=
  byteAt buf p = code '\n' && p ≥ 2 && byteAt buf (p - 1) = code '\r' &&
    httpMarkers.any fun marker => marker.isPrefixOf (buf.drop (p + 1))

/-- The first position after such a line feed; the search starts at `start`, but never
at the first byte. -/
def findHttpResync (buf : List UInt8) (start : Nat) : Option Nat :=
  ((List.range buf.length).find? fun p => p ≥ max start 1 && resyncAt buf p).map (· + 1)

/-- The variables of the HTTP loop of `pollStream`. -/
structure HttpPoll where
  stream : TcpReassembler
  applications : Applications
  peer : Applications
  deriving DecidableEq

/-- Both exits of `resyncHttp` end the pass: it goes round again or leaves the loop. -/
def resyncHttp (poll : HttpPoll) : Turn HttpPoll HttpPoll :=
  let applications := { poll.applications with
    httpChunkPrefix := 0
    httpBodyUntilClose := false }
  let avail := poll.stream.available
  match findHttpResync poll.stream.peek applications.httpResyncScanned with
  | some start =>
      .again { poll with
        stream := poll.stream.consume start
        applications := { applications with
          decodeFailures := applications.decodeFailures + 1
          httpResyncScanned := 0 } }
  | none =>
      if avail > maxHttpMessageBytes then
        .again { poll with
          stream := poll.stream.consume avail
          applications := { applications with
            decodeFailures := applications.decodeFailures + 1
            httpResyncScanned := 0 } }
      else .leave { poll with
        applications := { applications with
          httpResyncScanned := if avail > 8 then avail - 8 else 0 } }

/-- The header at the front, sought in a window of `maxHttpHeaderBytes`, and all that follows it. -/
def parseFront (full : List UInt8) : Except ParseError (Http.Header × List UInt8) := do
  let window := min full.length maxHttpHeaderBytes
  let (header, span) ← Http.parse (full.take window)
  .ok (header, full.drop (window - span.length))

/-- A final response takes the oldest pending request of the other direction. -/
def popHeadRequest (header : Http.Header) (peer : Applications) : Bool × Applications :=
  if header.isResponse && header.statusCode ≥ 200 then
    match peer.pendingHeadRequests with
    | [] => (false, peer)
    | head :: rest => (head, { peer with pendingHeadRequests := rest })
  else (false, peer)

/-- A request leaves behind whether its response will have no body. -/
def pushHeadRequest (header : Http.Header) (applications : Applications) : Applications :=
  if header.isRequest && applications.pendingHeadRequests.length < maxPendingRequests then
    { applications with pendingHeadRequests := applications.pendingHeadRequests ++
        [decide (header.method = text ['H', 'E', 'A', 'D'])] }
  else applications

inductive BodyScan where
  | malformed
  | incomplete (applications : Applications) (span : List UInt8)
  | complete (applications : Applications) (span : List UInt8)
  deriving DecidableEq

/-- `span.subspan(http_chunk_prefix)` and what is done with it. An offset past the end, where
`subspan` has no defined result, leaves the empty list. -/
def scanChunkedBody (applications : Applications) (span : List UInt8) : BodyScan :=
  let span := span.drop applications.httpChunkPrefix
  let body := Http.parseChunkedBody span
  if body.err = .unexpectedEof then
    .incomplete { applications with
      httpChunkPrefix := applications.httpChunkPrefix + body.completePrefix } span
  else if body.err ≠ .none then .malformed
  else .complete { applications with httpChunkPrefix := 0 } body.span

/-- The branches over the framing of the body that follows `header`. -/
def scanBody (header : Http.Header) (headResponse : Bool) (applications : Applications)
    (span : List UInt8) : BodyScan :=
  if header.bodyForbidden || headResponse then .complete applications span
  else if header.chunked then scanChunkedBody applications span
  else if header.hasContentLength then
    if span.length < header.contentLength then .incomplete applications span
    else .complete applications (span.drop header.contentLength)
  else if header.isResponse then
    .complete { applications with httpBodyUntilClose := true } span
  else .complete applications span

def recordHttp (header : Http.Header) (applications : Applications) : Applications :=
  let applications := pushHeadRequest header applications
  { applications with httpMessages := applications.httpMessages ++ [header] }

/-- An incomplete body that is too large to wait for is skipped if its length is known. -/
def oversizedBody (header : Http.Header) (span : List UInt8) (poll : HttpPoll) :
    Turn HttpPoll HttpPoll :=
  if header.hasContentLength && !header.chunked then
    let applications := recordHttp header poll.applications
    .again { poll with
      stream := poll.stream.consume (poll.stream.peek.length - span.length)
      applications := { applications with
        httpSkip := header.contentLength
        httpBodiesSkipped := applications.httpBodiesSkipped + 1 } }
  else resyncHttp poll

/-- The pass once a header has been parsed. -/
def httpMessage (header : Http.Header) (span : List UInt8) (poll : HttpPoll) :
    Turn HttpPoll HttpPoll :=
  let (headResponse, peer) := popHeadRequest header poll.peer
  let poll := { poll with peer := peer }
  match scanBody header headResponse poll.applications span with
  | .malformed => resyncHttp poll
  | .incomplete applications span =>
      let poll := { poll with applications := applications }
      if poll.stream.available > maxHttpMessageBytes then oversizedBody header span poll
      else .leave poll
  | .complete applications span =>
      .again { poll with
        stream := poll.stream.consume (poll.stream.peek.length - span.length)
        applications := recordHttp header applications }

def skipBody (poll : HttpPoll) : Turn HttpPoll HttpPoll :=
  let n := min poll.applications.httpSkip poll.stream.available
  let poll := { poll with
    stream := poll.stream.consume n
    applications := { poll.applications with httpSkip := poll.applications.httpSkip - n } }
  if poll.applications.httpSkip > 0 then .leave poll else .again poll

def httpTurn (poll : HttpPoll) : Turn HttpPoll HttpPoll :=
  if poll.applications.httpSkip > 0 then skipBody poll else
  if poll.applications.httpBodyUntilClose then
    .leave { poll with stream := poll.stream.consume poll.stream.available }
  else
    match parseFront poll.stream.peek with
    | .error .unexpectedEof =>
        if poll.stream.available > maxHttpHeaderBytes then resyncHttp poll else .leave poll
    | .error _ => resyncHttp poll
    | .ok (header, span) => httpMessage header span poll

/-- Every pass that goes round again consumes a byte, so the fuel is never used up. -/
def httpLoop (poll : HttpPoll) : HttpPoll :=
  MeasuredLoop.run httpTurn id (poll.stream.available + 1) poll

/-- The variables of the DNS loop of `pollStream`. -/
structure DnsPoll where
  stream : TcpReassembler
  applications : Applications
  dnsTable : DnsTable

def dnsTurn (poll : DnsPoll) : Turn DnsPoll DnsPoll :=
  if poll.stream.available < 2 then .leave poll else
  let msgLen := ((byteAt poll.stream.peek 0).toNat <<< 8) ||| (byteAt poll.stream.peek 1).toNat
  if poll.stream.available < 2 + msgLen then .leave poll else
  match Dns.parse (slice poll.stream.peek 2 msgLen) .big with
  | .error _ => .again { poll with
      stream := poll.stream.consume (2 + msgLen)
      applications := { poll.applications with
        decodeFailures := poll.applications.decodeFailures + 1 } }
  | .ok (header, _) => .again {
      stream := poll.stream.consume (2 + msgLen)
      applications := { poll.applications with
        dnsMessages := poll.applications.dnsMessages ++ [header] }
      dnsTable := poll.dnsTable.record header }

def dnsLoop (poll : DnsPoll) : DnsPoll :=
  MeasuredLoop.run dnsTurn id (poll.stream.available + 1) poll

/-- The parameters of `pollStream` that it changes, and the DNS table. -/
structure StreamPoll where
  stream : TcpReassembler
  applications : Applications
  peer : Applications
  dnsTable : DnsTable

def FlowKey.isDns (key : FlowKey) : Bool := key.srcPort = Dns.port || key.dstPort = Dns.port

def FlowKey.isHttp (key : FlowKey) : Bool := key.srcPort = Http.port || key.dstPort = Http.port

def pollStream (key : FlowKey) (poll : StreamPoll) : StreamPoll :=
  if !poll.stream.hasReadableData then poll else
  if key.isDns then
    let polled := dnsLoop
      { stream := poll.stream, applications := poll.applications, dnsTable := poll.dnsTable }
    { poll with
      stream := polled.stream
      applications := polled.applications
      dnsTable := polled.dnsTable }
  else if key.isHttp then
    let polled := httpLoop
      { stream := poll.stream, applications := poll.applications, peer := poll.peer }
    { poll with
      stream := polled.stream
      applications := polled.applications
      peer := polled.peer }
  else poll

/-- `flows_`; the nodes of the map do not move, so a pointer into it is the key of its node. -/
structure AppDecoder where
  flows : KeyMap FlowApplications := ∅

namespace AppDecoder

def node (decoder : AppDecoder) (key : FlowKey) : FlowApplications :=
  (decoder.flows.lookup key).getD {}

def setNode (decoder : AppDecoder) (key : FlowKey) (applications : FlowApplications) :
    AppDecoder :=
  { flows := decoder.flows.insert key applications }

/-- The node `flow.app_state` points to afterwards. -/
def appStateNode (key : FlowKey) (flow : Flow) : FlowKey := flow.appState.getD key

def appStateFor (decoder : AppDecoder) (key : FlowKey) (flow : Flow) (flowIsNew : Bool) :
    AppDecoder × Flow :=
  let node := appStateNode key flow
  (decoder.setNode node (if flowIsNew then {} else decoder.node node),
    { flow with appState := some node })

/-- The state that a poll of one flow can change. -/
structure FlowPoll where
  decoder : AppDecoder
  flow : Flow
  dnsTable : DnsTable

def pollFlow (key : FlowKey) (poll : FlowPoll) (flowIsNew : Bool) : FlowPoll :=
  if !key.isDns && !key.isHttp then poll else
  let (decoder, flow) := poll.decoder.appStateFor key poll.flow flowIsNew
  let node := appStateNode key poll.flow
  let applications := decoder.node node
  if flow.isReverse then
    let polled := pollStream key
      { stream := flow.revTcp, applications := applications.rev, peer := applications.fwd,
        dnsTable := poll.dnsTable }
    { decoder := decoder.setNode node { fwd := polled.peer, rev := polled.applications }
      flow := { flow with revTcp := polled.stream }
      dnsTable := polled.dnsTable }
  else
    let polled := pollStream key
      { stream := flow.fwdTcp, applications := applications.fwd, peer := applications.rev,
        dnsTable := poll.dnsTable }
    { decoder := decoder.setNode node { fwd := polled.applications, rev := polled.peer }
      flow := { flow with fwdTcp := polled.stream }
      dnsTable := polled.dnsTable }

/-- What a datagram does to the state of its direction. -/
def datagramMessage (payload : List UInt8) (applications : Applications) (dnsTable : DnsTable) :
    Applications × DnsTable :=
  match Dns.parse payload .big with
  | .error _ => ({ applications with decodeFailures := applications.decodeFailures + 1 }, dnsTable)
  | .ok (header, _) =>
      ({ applications with dnsMessages := applications.dnsMessages ++ [header] },
        dnsTable.record header)

def pollDatagram (key : FlowKey) (poll : FlowPoll) (payload : List UInt8) (flowIsNew : Bool) :
    FlowPoll :=
  if payload.length = 0 then poll else
  if !key.isDns then poll else
  let (decoder, flow) := poll.decoder.appStateFor key poll.flow flowIsNew
  let node := appStateNode key poll.flow
  let applications := decoder.node node
  if flow.isReverse then
    let (rev, dnsTable) := datagramMessage payload applications.rev poll.dnsTable
    { decoder := decoder.setNode node { applications with rev := rev }
      flow := flow
      dnsTable := dnsTable }
  else
    let (fwd, dnsTable) := datagramMessage payload applications.fwd poll.dnsTable
    { decoder := decoder.setNode node { applications with fwd := fwd }
      flow := flow
      dnsTable := dnsTable }

def getApplications (decoder : AppDecoder) (key : FlowKey) (isReverse : Bool) :
    Option Applications :=
  (decoder.flows.lookup key).map fun applications =>
    if isReverse then applications.rev else applications.fwd

end AppDecoder

end PcapAnalyzer
