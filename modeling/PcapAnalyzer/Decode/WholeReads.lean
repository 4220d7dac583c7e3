import PcapAnalyzer.Decode.DnsFraming
import PcapAnalyzer.Decode.HttpSegments

/-!
# Reading a stream as a whole

What the polls of a stream have left so far is what one poll of all of its bytes leaves, and
the next poll keeps it so. Both protocols are read in this way, as long as no request of the
other side waits for a response.
-/

namespace PcapAnalyzer

open MeasuredLoop
open Framing (Divides)

set_option autoImplicit false

namespace HttpReader

def withPeer (peer : Applications) (reader : HttpReader) : HttpReader :=
  { reader with peer := peer }

section Peer

variable {peer : Applications}

/-- The same reader, but for the other direction, where nothing waits for a response. -/
def SameOwn (peer : Applications) (left right : HttpReader) : Prop :=
  left.NonePending ∧ right = left.withPeer peer

theorem resync_with_peer {reader : HttpReader} (none : reader.NonePending) :
    SameTurn (SameOwn peer) (SameOwn peer) reader.resync (reader.withPeer peer).resync := by
  unfold resync withPeer
  simp only
  split
  · exact .again ⟨none, rfl⟩
  · split_ifs
    · exact .again ⟨none, rfl⟩
    · exact .leave ⟨none, rfl⟩

theorem message_with_peer {reader : HttpReader} (none : reader.NonePending)
    (alone : peer.pendingHeadRequests = []) (header : Http.Header) (span : List UInt8) :
    SameTurn (SameOwn peer) (SameOwn peer) (reader.message header span)
      ((reader.withPeer peer).message header span) := by
  have noneToo : (reader.withPeer peer).NonePending := alone
  have same : (reader.withPeer peer).applications = reader.applications := rfl
  rw [message_none none, message_none noneToo, same]
  split
  · exact resync_with_peer none
  · rename_i applications rest _
    have large : (reader.withPeer peer).input = reader.input := rfl
    rw [large]
    split_ifs
    · unfold oversized
      split_ifs
      · exact .again ⟨none, rfl⟩
      · exact @resync_with_peer peer { reader with applications := applications } none
    · exact .leave ⟨none, rfl⟩
  · exact .again ⟨none, rfl⟩

theorem turn_with_peer (alone : peer.pendingHeadRequests = []) {left right : HttpReader}
    (same : SameOwn peer left right) :
    SameTurn (SameOwn peer) (SameOwn peer) left.turn right.turn := by
  obtain ⟨none, rfl⟩ := same
  have applications : (left.withPeer peer).applications = left.applications := rfl
  have input : (left.withPeer peer).input = left.input := rfl
  unfold turn
  rw [applications, input]
  split_ifs
  · unfold skip
    simp only [applications, input]
    split_ifs
    · exact .leave ⟨none, rfl⟩
    · exact .again ⟨none, rfl⟩
  · exact .leave ⟨none, rfl⟩
  · split
    · exact .leave ⟨none, rfl⟩
    · exact resync_with_peer none
    · exact message_with_peer none alone _ _

/-- Where no request waits, a read neither uses the other direction nor changes it. -/
theorem read_with_peer (alone : peer.pendingHeadRequests = []) {reader : HttpReader}
    (none : reader.NonePending) : (reader.withPeer peer).read = reader.read.withPeer peer := by
  have related : SameOwn peer reader.read (reader.withPeer peer).read :=
    run_related (fun _ _ same => turn_with_peer alone same) (fun _ _ same => same)
      (reader.input.length + 1) reader (reader.withPeer peer) ⟨none, rfl⟩
  exact related.2

end Peer

end HttpReader

/-- What one poll of a stream that holds these bytes leaves unread, and what it records. -/
def readWhole (key : FlowKey) (start : Applications) (bytes : List UInt8) :
    List UInt8 × Applications :=
  let polled := pollStream key
    { stream := { assembled := bytes, state := .established }
      applications := start
      peer := {}
      dnsTable := {} }
  (polled.stream.peek, polled.applications)

section Dns

variable {key : FlowKey}

/-- A DNS poll, whatever else there is. -/
theorem poll_stream_divides (dns : key.isDns = true) {poll : StreamPoll}
    (readable : poll.stream.hasReadableData = true)
    (inside : poll.stream.readPos ≤ poll.stream.assembled.length) {messages : List (List UInt8)}
    {rest : List UInt8} (divides : Divides Dns.front poll.stream.peek messages rest) :
    (pollStream key poll).stream.peek = rest ∧
      (pollStream key poll).applications = (receiveDns messages poll.applications {}).1 := by
  obtain ⟨peek, received⟩ := dns_loop_divides divides
    { stream := poll.stream, applications := poll.applications, dnsTable := poll.dnsTable } rfl
    inside
  have applications := congrArg Prod.fst received
  rw [receive_dns] at applications ⊢
  simp only [pollStream, readable, dns, Bool.not_true, Bool.false_eq_true, if_false, if_true]
  exact ⟨peek, applications⟩

theorem read_whole_dns (dns : key.isDns = true) (start : Applications) {bytes rest : List UInt8}
    {messages : List (List UInt8)} (divides : Divides Dns.front bytes messages rest) :
    readWhole key start bytes = (rest, (receiveDns messages start {}).1) := by
  obtain ⟨peek, applications⟩ := @poll_stream_divides key dns
    { stream := { assembled := bytes, state := .established }, applications := start, peer := {},
      dnsTable := {} } rfl (Nat.zero_le _) messages rest divides
  exact Prod.ext peek applications

/-- A poll after more bytes is a poll of all of them. -/
theorem poll_whole_dns (dns : key.isDns = true) {start : Applications} {bytes piece : List UInt8}
    {before : StreamPoll}
    (whole : readWhole key start bytes = (before.stream.peek, before.applications))
    {stream : TcpReassembler} (appends : Appends piece before.stream stream) :
    readWhole key start (bytes ++ piece) =
      ((pollStream key { before with stream := stream }).stream.peek,
        (pollStream key { before with stream := stream }).applications) := by
  obtain ⟨first, between, earlier⟩ := Framing.divides_exists Dns.front_stable bytes
  rw [read_whole_dns dns start earlier, Prod.mk.injEq] at whole
  obtain ⟨second, rest, later⟩ :=
    Framing.divides_exists Dns.front_stable (before.stream.peek ++ piece)
  obtain ⟨peek, applications⟩ := @poll_stream_divides key dns
    { before with stream := stream } appends.readable appends.inside second rest
    (appends.peek ▸ later)
  have all := earlier.append Dns.front_stable (whole.1 ▸ later)
  rw [read_whole_dns dns start all, peek, applications, ← whole.2]
  simp only [receive_dns, acceptedDns, rejectedDns, List.filterMap_append, List.filter_append,
    List.length_append, List.append_assoc, Nat.add_assoc]

end Dns

/-- The polls start afresh: nothing is known about the bytes to come. -/
structure Afresh (applications : Applications) : Prop where
  noChunks : applications.httpChunkPrefix = 0
  noSearch : applications.httpResyncScanned = 0

section Http

variable {key : FlowKey}

def wholeReader (start : Applications) (bytes : List UInt8) : HttpReader :=
  { input := bytes, applications := start, peer := {} }

theorem read_whole_http (http : key.isHttp = true) (notDns : key.isDns = false)
    (start : Applications) (bytes : List UInt8) :
    readWhole key start bytes =
      ((wholeReader start bytes).read.input, (wholeReader start bytes).read.applications) := by
  have viewed := @poll_stream_viewed key http notDns
    { stream := { assembled := bytes, state := .established }, applications := start, peer := {},
      dnsTable := {} } rfl (Nat.zero_le _)
  exact Prod.ext (congrArg HttpReader.input viewed) (congrArg HttpReader.applications viewed)

theorem poll_whole_http (http : key.isHttp = true) (notDns : key.isDns = false)
    {start : Applications} (afresh : Afresh start) {bytes piece : List UInt8}
    (small : (bytes ++ piece).length ≤ maxHttpMessageBytes) {before : StreamPoll}
    (alone : before.peer.pendingHeadRequests = [])
    (whole : readWhole key start bytes = (before.stream.peek, before.applications))
    {stream : TcpReassembler} (appends : Appends piece before.stream stream) :
    readWhole key start (bytes ++ piece) =
        ((pollStream key { before with stream := stream }).stream.peek,
          (pollStream key { before with stream := stream }).applications) ∧
      (pollStream key { before with stream := stream }).peer = before.peer := by
  have steady : (wholeReader start bytes).Steady :=
    ⟨.nothing afresh.noChunks afresh.noSearch, rfl⟩
  have all := HttpReader.read_grow steady piece small
  have earlier := HttpReader.read_steady steady
  have viewed := @poll_stream_viewed key http notDns { before with stream := stream }
    appends.readable appends.inside
  rw [read_whole_http http notDns, Prod.mk.injEq] at whole
  -- the poll starts from what was left of the first bytes, but for the other direction
  have grown : ({ before with stream := stream } : StreamPoll).view =
      ((wholeReader start bytes).read.grow piece).withPeer before.peer := by
    simp only [StreamPoll.view, HttpReader.grow, HttpReader.withPeer, whole.1, whole.2,
      appends.peek]
  have polled := HttpReader.read_with_peer alone
    (show ((wholeReader start bytes).read.grow piece).NonePending from earlier.2)
  rw [grown, polled, all] at viewed
  rw [read_whole_http http notDns]
  exact ⟨Prod.ext (congrArg HttpReader.input viewed).symm
    (congrArg HttpReader.applications viewed).symm, congrArg HttpReader.peer viewed⟩

end Http

end PcapAnalyzer
