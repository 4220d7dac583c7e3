import PcapAnalyzer.Decode.HttpReader
import PcapAnalyzer.Protocols.HttpEncoding

/-!
# Both directions of an HTTP flow

Bytes arrive in one direction at a time, and `pollFlow` reads that direction; all it does
to the other one is to take requests that wait for a response.
-/

namespace PcapAnalyzer

open AppDecoder MeasuredLoop

set_option autoImplicit false

namespace HttpReader

/-- The reader takes the oldest of the waiting requests at most. -/
theorem pop_peer (header : Http.Header) (peer : Applications) :
    ∃ pending, (popHeadRequest header peer).2 = { peer with pendingHeadRequests := pending } := by
  unfold popHeadRequest
  split_ifs
  · split
    · exact ⟨_, rfl⟩
    · exact ⟨_, rfl⟩
  · exact ⟨_, rfl⟩

theorem resync_peer (reader : HttpReader) : reader.resync.state.peer = reader.peer := by
  unfold resync
  simp only
  split
  · rfl
  · split_ifs <;> rfl

theorem message_peer (reader : HttpReader) (header : Http.Header) (span : List UInt8) :
    (reader.message header span).state.peer = (popHeadRequest header reader.peer).2 := by
  unfold message
  rcases popHeadRequest header reader.peer with ⟨headResponse, peer⟩
  simp only
  split
  · exact resync_peer _
  · split_ifs
    · unfold oversized
      split_ifs
      · rfl
      · exact resync_peer _
    · rfl
  · rfl

/-- All a read changes of the other direction is which requests wait for a response. -/
def SameButPending (before after : HttpReader) : Prop :=
  ∃ pending, after.peer = { before.peer with pendingHeadRequests := pending }

theorem turn_peer (reader : HttpReader) : reader.SameButPending reader.turn.state := by
  unfold turn
  split_ifs
  · rw [skip_state]
    exact ⟨_, rfl⟩
  · exact ⟨_, rfl⟩
  · split
    · exact ⟨_, rfl⟩
    · rw [SameButPending, resync_peer]
      exact ⟨_, rfl⟩
    · rw [SameButPending, message_peer]
      exact pop_peer _ _

theorem read_peer (reader : HttpReader) : reader.SameButPending reader.read := by
  refine run_composes (fun _ => ⟨_, rfl⟩) ?_ turn_peer _ reader
  rintro first second third ⟨_, earlier⟩ ⟨pending, later⟩
  exact ⟨pending, by rw [later, earlier]⟩

end HttpReader

/-- One direction of a flow, with what its stream holds unread. -/
def AppDecoder.FlowPoll.reader (key : FlowKey) (poll : FlowPoll) (isReverse : Bool) : HttpReader :=
  { input := (poll.flow.side isReverse).peek
    applications := (poll.decoder.node key).self isReverse
    peer := (poll.decoder.node key).self (!isReverse) }

theorem reader_peer (key : FlowKey) (poll : FlowPoll) (isReverse : Bool) :
    (poll.reader key (!isReverse)).peer = (poll.reader key isReverse).applications := by
  rw [FlowPoll.reader, Bool.not_not, FlowPoll.reader]

theorem FlowApplications.sides_self (isReverse : Bool) (self peer : Applications) :
    (FlowApplications.sides isReverse self peer).self isReverse = self ∧
      (FlowApplications.sides isReverse self peer).self (!isReverse) = peer := by
  cases isReverse <;> exact ⟨rfl, rfl⟩

section Poll

variable {key : FlowKey} {poll : FlowPoll}

/-- A poll reads the direction of its packet and leaves the bytes of the other. -/
theorem poll_flow_readers (http : key.isHttp = true) (owned : Owned key poll.flow)
    (flowIsNew : Bool) :
    let polled := (pollStream key (streamPoll key poll flowIsNew)).view
    (pollFlow key poll flowIsNew).reader key poll.flow.isReverse = polled ∧
      (pollFlow key poll flowIsNew).reader key (!poll.flow.isReverse) =
        { input := (poll.flow.side (!poll.flow.isReverse)).peek
          applications := polled.peer
          peer := polled.applications } := by
  have app : ¬ (key.isDns = false ∧ key.isHttp = false) := by simp [http]
  rw [poll_flow_app flowIsNew app owned]
  generalize pollStream key (streamPoll key poll flowIsNew) = polled
  have moved := Decoder.set_stream_side poll.flow polled.stream
  have sides := FlowApplications.sides_self poll.flow.isReverse polled.applications polled.peer
  simp only [FlowPoll.reader, set_node_node, sides.1, sides.2, Bool.not_not, StreamPoll.view,
    HttpReader.mk.injEq, and_true]
  exact ⟨congrArg TcpReassembler.peek moved.1, congrArg TcpReassembler.peek moved.2⟩

/-- What the poll of a stream makes of its reader. -/
theorem poll_stream_reader (http : key.isHttp = true) (notDns : key.isDns = false)
    {poll : StreamPoll} (inside : poll.stream.readPos ≤ poll.stream.assembled.length) :
    (pollStream key poll).view =
      if poll.stream.hasReadableData then poll.view.read else poll.view := by
  split_ifs with readable
  · exact poll_stream_viewed http notDns readable inside
  · simp [pollStream, readable]

/-- What the poll of a stream does not touch. -/
theorem poll_stream_frame (http : key.isHttp = true) (notDns : key.isDns = false)
    {poll : StreamPoll} (inside : poll.stream.readPos ≤ poll.stream.assembled.length) :
    (pollStream key poll).view.input <:+ poll.view.input ∧
      poll.view.SameButPending (pollStream key poll).view := by
  rw [poll_stream_reader http notDns inside]
  split_ifs
  · exact ⟨poll.view.read_suffix, poll.view.read_peer⟩
  · exact ⟨List.suffix_rfl, _, rfl⟩

theorem each_side {motive : Bool → Prop} (side : Bool) (this : motive side)
    (other : motive (!side)) : ∀ isReverse, motive isReverse := by
  cases side <;> simp_all

/-- Bytes arrive in one direction; nothing else changes but what the streams do not show. -/
structure Arrives (piece : List UInt8) (before after : Flow) : Prop where
  appState : after.appState = before.appState
  peek : (after.side after.isReverse).peek = (before.side after.isReverse).peek ++ piece
  other : (after.side (!after.isReverse)).peek = (before.side (!after.isReverse)).peek
  inside : ∀ isReverse,
    (after.side isReverse).readPos ≤ (after.side isReverse).assembled.length

/-- The poll of a flow with new bytes starts from the reader before, or from fresh state. -/
theorem stream_poll_reader {flow : Flow} {piece : List UInt8}
    (arrives : Arrives piece poll.flow flow) (flowIsNew : Bool) :
    (streamPoll key { poll with flow := flow } flowIsNew).view =
      if flowIsNew then
        { input := (poll.reader key flow.isReverse).input ++ piece, applications := {}, peer := {} }
      else { poll.reader key flow.isReverse with
        input := (poll.reader key flow.isReverse).input ++ piece } := by
  have peek : flow.stream.peek = (poll.flow.side flow.isReverse).peek ++ piece := arrives.peek
  unfold streamPoll startNode StreamPoll.view
  cases flowIsNew with
  | false => simp only [peek, FlowPoll.reader, Bool.false_eq_true, if_false]
  | true =>
      cases turned : flow.isReverse <;>
        simp [peek, FlowPoll.reader, turned, FlowApplications.self]

/-- The directions after the poll of a flow that bytes have arrived in. -/
theorem arrival_readers (http : key.isHttp = true) (notDns : key.isDns = false)
    (owned : Owned key poll.flow) {flow : Flow} {piece : List UInt8}
    (arrives : Arrives piece poll.flow flow) (flowIsNew : Bool) :
    let start := (streamPoll key { poll with flow := flow } flowIsNew).view
    let polled := if flow.stream.hasReadableData then start.read else start
    let next := pollFlow key { poll with flow := flow } flowIsNew
    Owned key next.flow ∧ next.reader key flow.isReverse = polled ∧
      next.reader key (!flow.isReverse) = {
        input := (poll.reader key (!flow.isReverse)).input
        applications := polled.peer
        peer := polled.applications } := by
  have ownedToo : Owned key flow := by rwa [Owned, arrives.appState]
  have readers := @poll_flow_readers key { poll with flow := flow } http ownedToo flowIsNew
  have polled := @poll_stream_reader key http notDns
    (streamPoll key { poll with flow := flow } flowIsNew) (arrives.inside flow.isReverse)
  have other : (flow.side (!flow.isReverse)).peek =
      (poll.reader key (!flow.isReverse)).input := arrives.other
  refine ⟨(poll_flow_frame ownedToo flowIsNew).owned, readers.1.trans polled, ?_⟩
  rw [← other]
  exact readers.2.trans (by rw [polled]; rfl)

/-- A segment of one direction at the sequence number that direction waits for. -/
def Flow.receive (flow : Flow) (isReverse : Bool) (piece : List UInt8) : Flow :=
  let flow := { flow with isReverse := isReverse }
  flow.setStream (flow.stream.ingest flow.stream.nextSeq piece)

theorem receive_arrives {flow : Flow} (inOrder : ∀ isReverse, InOrder (flow.side isReverse))
    (isReverse : Bool) (piece : List UInt8) :
    Arrives piece flow (flow.receive isReverse piece) ∧
      ∀ side, InOrder ((flow.receive isReverse piece).side side) := by
  obtain ⟨appends, later⟩ := (inOrder isReverse).ingest piece
  have kept := inOrder (!isReverse)
  cases isReverse with
  | false =>
      have sides : ∀ side, InOrder ((flow.receive false piece).side side) :=
        each_side false later kept
      exact ⟨⟨rfl, appends.peek, rfl, fun side => (sides side).inside⟩, sides⟩
  | true =>
      have sides : ∀ side, InOrder ((flow.receive true piece).side side) :=
        each_side true later kept
      exact ⟨⟨rfl, appends.peek, rfl, fun side => (sides side).inside⟩, sides⟩

end Poll

/-- Both directions of an established connection before any data. -/
def newFlowPoll : FlowPoll :=
  { decoder := {}
    flow := { fwdTcp := { state := .established }, revTcp := { state := .established } }
    dnsTable := {} }

def getRequest : List UInt8 :=
  text ['G', 'E', 'T', ' ', '/', ' '] ++ Http.http11 ++ Http.crlf ++ Http.crlf

def headRequest : List UInt8 :=
  text ['H', 'E', 'A', 'D', ' ', '/', ' '] ++ Http.http11 ++ Http.crlf ++ Http.crlf

end PcapAnalyzer
