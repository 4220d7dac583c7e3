import PcapAnalyzer.Decode.HttpFlow
import PcapAnalyzer.Decode.HttpGrowth

/-!
# The resumed chunk offset

An incomplete chunked body is taken up behind `http_chunk_prefix` at the next poll. Whether
the same branch is taken then depends on the requests of the other direction as well: a HEAD
request that has arrived in between makes the response bodyless, and the prefix is left to
the message that follows.
-/

namespace PcapAnalyzer

open AppDecoder MeasuredLoop

set_option autoImplicit false

/-- One evaluation of `span.subspan(http_chunk_prefix)`: the message whose header was parsed and
where it starts in its direction, and the length of its complete chunks then known. -/
structure ChunkResume where
  position : Nat
  header : Http.Header
  offset : Nat
  size : Nat
  validated : Nat
  deriving DecidableEq

/-- The evaluation in a turn of the HTTP loop, if it gets there; `arrived` bytes have come in. -/
def chunkResume (arrived : Nat) (full : List UInt8) (applications peer : Applications) :
    Option ChunkResume :=
  if applications.httpSkip > 0 || applications.httpBodyUntilClose then none else
  match parseFront full with
  | .error _ => none
  | .ok (header, span) =>
      if header.bodyForbidden || (popHeadRequest header peer).1 || !header.chunked then none else
      let body := Http.parseChunkedBody (span.drop applications.httpChunkPrefix)
      some {
        position := arrived - full.length
        header := header
        offset := applications.httpChunkPrefix
        size := span.length
        validated := applications.httpChunkPrefix + body.completePrefix }

/-- The evaluations of a poll, in the order of its turns. -/
def chunkResumes (key : FlowKey) (arrived : Nat) (poll : StreamPoll) : List ChunkResume :=
  (httpTurns key poll).filterMap fun poll =>
    chunkResume arrived poll.stream.peek poll.applications poll.peer

/-- Every offset is inside its span, and what it skips was validated for the same message. -/
inductive Resumed : List ChunkResume → Prop where
  | nil : Resumed []
  | snoc {history : List ChunkResume} {next : ChunkResume} (earlier : Resumed history)
      (inside : next.offset ≤ next.size)
      (same : next.offset ≠ 0 → ∃ last, history.getLast? = some last ∧
        last.position = next.position ∧ last.header = next.header ∧
        last.validated = next.offset) :
      Resumed (history ++ [next])

theorem Resumed.inside {history : List ChunkResume} (resumed : Resumed history) :
    ∀ next ∈ history, next.offset ≤ next.size := by
  induction resumed with
  | nil => simp
  | snoc earlier inside same ih =>
      intro next member
      rcases List.mem_append.mp member with before | here
      · exact ih next before
      · rw [List.mem_singleton.mp here]
        exact inside

/-- The response in front, some of whose chunks are validated, is about to become bodyless. -/
def headOvertakes (full : List UInt8) (applications peer : Applications) : Bool :=
  applications.httpChunkPrefix ≠ 0 &&
    match parseFront full with
    | .error _ => false
    | .ok (header, _) => (popHeadRequest header peer).1

/-- The prefix belongs to the message in front and is what was validated of it. -/
inductive Held (arrived : Nat) (history : List ChunkResume) (reader : HttpReader) : Prop where
  | nothing (none : reader.applications.httpChunkPrefix = 0)
  | chunks {header : Http.Header} {span : List UInt8} {last : ChunkResume} (ready : reader.Ready)
      (front : httpFront reader.input = .message header span) (chunked : header.chunked = true)
      (allowed : header.bodyForbidden = false)
      (inside : reader.applications.httpChunkPrefix ≤ span.length)
      (known : history.getLast? = some last)
      (position : last.position = arrived - reader.input.length) (sameHeader : last.header = header)
      (validated : last.validated = reader.applications.httpChunkPrefix)

namespace HttpReader

variable {reader : HttpReader}

def resumed (arrived : Nat) (reader : HttpReader) : Option ChunkResume :=
  chunkResume arrived reader.input reader.applications reader.peer

/-- A body that is not scanned for chunks leaves the prefix alone. -/
theorem scan_body_unscanned {header : Http.Header} {headResponse : Bool}
    {applications : Applications} {span : List UInt8}
    (unscanned : (header.bodyForbidden || headResponse || !header.chunked) = true) :
    match scanBody header headResponse applications span with
    | .malformed => False
    | .incomplete after _ | .complete after _ =>
        after.httpChunkPrefix = applications.httpChunkPrefix := by
  unfold scanBody
  by_cases bodyless : (header.bodyForbidden || headResponse) = true
  · rw [if_pos bodyless]
  rw [if_neg bodyless]
  have unchunked : header.chunked = false := by
    simpa [bodyless] using unscanned
  simp only [unchunked, Bool.false_eq_true, if_false]
  split_ifs <;> rfl

theorem message_unscanned {header : Http.Header} {span : List UInt8}
    (none : reader.applications.httpChunkPrefix = 0)
    (unscanned : (header.bodyForbidden || (popHeadRequest header reader.peer).1 ||
      !header.chunked) = true) :
    (reader.message header span).state.applications.httpChunkPrefix = 0 := by
  have left := @scan_body_unscanned header _ reader.applications span unscanned
  unfold message
  generalize popHeadRequest header reader.peer = taken at left ⊢
  rcases taken with ⟨headResponse, peer⟩
  simp only at left ⊢
  cases scanned : scanBody header headResponse reader.applications span with
  | malformed => rw [scanned] at left; exact left.elim
  | incomplete after rest =>
      rw [scanned] at left
      simp only
      split_ifs
      · unfold oversized
        split_ifs
        · exact ((record_http_chunks header after).1.trans left).trans none
        · exact resync_chunks _
      · exact left.trans none
  | complete after rest =>
      rw [scanned] at left
      exact ((record_http_chunks header after).1.trans left).trans none

/-- What a turn has made of the history and of the prefix it leaves. -/
structure Kept (arrived : Nat) (history : List ChunkResume) (turned : Turn HttpReader HttpReader) :
    Prop where
  resumed : Resumed history
  held : Held arrived history turned.state
  again : ∀ next, turned = .again next → next.applications.httpChunkPrefix = 0

theorem Kept.none {arrived : Nat} {history : List ChunkResume}
    {turned : Turn HttpReader HttpReader} (resumed : Resumed history)
    (none : turned.state.applications.httpChunkPrefix = 0) : Kept arrived history turned where
  resumed := resumed
  held := .nothing none
  again := by
    rintro next rfl
    exact none

/-- The body is scanned from a prefix inside the span: the prefix is lost or covers more of it. -/
theorem message_scanned {arrived : Nat} {history : List ChunkResume} {header : Http.Header}
    {span : List UInt8} (ready : reader.Ready)
    (front : httpFront reader.input = .message header span)
    (allowed : header.bodyForbidden = false)
    (noHead : (popHeadRequest header reader.peer).1 = false) (chunked : header.chunked = true)
    (inside : reader.applications.httpChunkPrefix ≤ span.length) {next : ChunkResume}
    (known : history.getLast? = some next)
    (position : next.position = arrived - reader.input.length) (sameHeader : next.header = header)
    (validated : next.validated = reader.applications.httpChunkPrefix +
      (Http.parseChunkedBody (span.drop reader.applications.httpChunkPrefix)).completePrefix)
    (resumed : Resumed history) : Kept arrived history (reader.message header span) := by
  unfold message
  generalize popHeadRequest header reader.peer = taken at noHead ⊢
  rcases taken with ⟨headResponse, peer⟩
  simp only at noHead ⊢
  simp only [noHead, scanBody, allowed, chunked, Bool.or_self, Bool.false_eq_true, if_false,
    if_true]
  unfold scanChunkedBody
  simp only
  by_cases waits : (Http.parseChunkedBody
      (span.drop reader.applications.httpChunkPrefix)).err = .unexpectedEof
  · have bound := (Http.parse_chunked_body_resumes waits).1
    rw [List.length_drop] at bound
    simp only [waits, if_true]
    split_ifs
    · rw [oversized_chunked chunked]
      exact .none resumed (resync_chunks _)
    · exact {
        resumed := resumed
        held := .chunks ready front chunked allowed (by simp only [Turn.state]; omega) known
          position sameHeader validated
        again := by
          rintro other ⟨⟩ }
  · simp only [waits, if_false]
    by_cases complete : (Http.parseChunkedBody
        (span.drop reader.applications.httpChunkPrefix)).err = .none
    · simp only [complete, ne_eq, not_true_eq_false, if_false]
      exact .none resumed (record_http_chunks header _).1
    · simp only [complete, ne_eq, not_false_eq_true, if_true]
      exact .none resumed (resync_chunks _)

/-- Without a header at the front nothing is taken up. -/
theorem resumed_no_header {arrived : Nat}
    (noHeader : ∀ header span, httpFront reader.input ≠ .message header span) :
    reader.resumed arrived = none := by
  rw [HttpReader.resumed, chunkResume]
  cases parsed : parseFront reader.input with
  | error err => exact ite_self _
  | ok result => exact absurd (http_front_message.mpr parsed) (noHeader _ _)

/-- While the rest of a body is skipped nothing is taken up, and nothing is validated. -/
theorem busy_kept {arrived : Nat} {history : List ChunkResume}
    (held : Held arrived history reader) (earlier : Resumed history)
    (busy : (decide (reader.applications.httpSkip > 0) ||
      reader.applications.httpBodyUntilClose) = true) :
    Kept arrived (history ++ (reader.resumed arrived).toList) reader.turn := by
  have noResume : reader.resumed arrived = none := by
    rw [HttpReader.resumed, chunkResume, if_pos busy]
  have none : reader.applications.httpChunkPrefix = 0 := by
    cases held with
    | nothing none => exact none
    | chunks ready => simp [ready.1, ready.2] at busy
  rw [noResume, Option.toList_none, List.append_nil]
  refine .none earlier ?_
  unfold turn skip
  simp only
  simp only [Bool.or_eq_true, decide_eq_true_eq] at busy
  split_ifs with skipping left untilClose
  · exact none
  · exact none
  · exact none
  · exact absurd busy (by simp [skipping, untilClose])

/-- A message at the front is scanned from the prefix, which belongs to it. -/
theorem message_kept {arrived : Nat} {history : List ChunkResume} {header : Http.Header}
    {span : List UInt8} (ready : reader.Ready)
    (front : httpFront reader.input = .message header span)
    (held : Held arrived history reader) (earlier : Resumed history)
    (kept : headOvertakes reader.input reader.applications reader.peer = false) :
    Kept arrived (history ++ (reader.resumed arrived).toList) (reader.message header span) := by
  have parsed := http_front_message.mp front
  have idle : ¬ (decide (reader.applications.httpSkip > 0) ||
      reader.applications.httpBodyUntilClose) = true := by
    simp [ready.1, ready.2]
  by_cases unscanned : (header.bodyForbidden || (popHeadRequest header reader.peer).1 ||
      !header.chunked) = true
  · have noResume : reader.resumed arrived = none := by
      rw [HttpReader.resumed, chunkResume, if_neg idle, parsed]
      exact if_pos unscanned
    rw [noResume, Option.toList_none, List.append_nil]
    refine .none earlier (message_unscanned ?_ unscanned)
    cases held with
    | nothing none => exact none
    | @chunks header' _ _ _ front' chunked allowed =>
        rw [front] at front'
        cases front'
        by_contra some
        rw [headOvertakes, parsed] at kept
        simp [allowed, chunked] at unscanned
        simp [some, unscanned] at kept
  · have resume : reader.resumed arrived = some {
          position := arrived - reader.input.length
          header := header
          offset := reader.applications.httpChunkPrefix
          size := span.length
          validated := reader.applications.httpChunkPrefix + (Http.parseChunkedBody
            (span.drop reader.applications.httpChunkPrefix)).completePrefix } := by
      rw [HttpReader.resumed, chunkResume, if_neg idle, parsed]
      exact if_neg unscanned
    simp only [Bool.or_eq_true, not_or, Bool.not_eq_true, Bool.not_eq_false'] at unscanned
    have inside : reader.applications.httpChunkPrefix ≤ span.length := by
      cases held with
      | nothing none => omega
      | chunks _ front' _ _ inside =>
          rw [front] at front'
          cases front'
          exact inside
    rw [resume]
    refine message_scanned ready front unscanned.1.1 unscanned.1.2 unscanned.2 inside
      List.getLast?_concat rfl rfl rfl (.snoc earlier inside ?_)
    intro resumes
    cases held with
    | nothing none => exact absurd none resumes
    | @chunks _ _ last _ front' _ _ _ known position sameHeader validated =>
        rw [front] at front'
        cases front'
        exact ⟨last, known, position, sameHeader, validated⟩

/-- What a turn adds to the history, and what it leaves to the next poll. -/
theorem turn_kept {arrived : Nat} {history : List ChunkResume}
    (held : Held arrived history reader) (earlier : Resumed history)
    (kept : headOvertakes reader.input reader.applications reader.peer = false) :
    Kept arrived (history ++ (reader.resumed arrived).toList) reader.turn := by
  by_cases busy : (decide (reader.applications.httpSkip > 0) ||
      reader.applications.httpBodyUntilClose) = true
  · exact busy_kept held earlier busy
  have ready : reader.Ready := by
    simp only [Bool.or_eq_true, decide_eq_true_eq, not_or, Bool.not_eq_true] at busy
    exact ⟨by omega, busy.2⟩
  rw [turn_ready ready]
  cases front : httpFront reader.input with
  | waiting =>
      have noHeader : ∀ header span, httpFront reader.input ≠ .message header span := by
        simp [front]
      rw [resumed_no_header noHeader, Option.toList_none, List.append_nil]
      exact {
        resumed := earlier
        held := held
        again := by
          rintro next ⟨⟩ }
  | malformed =>
      have noHeader : ∀ header span, httpFront reader.input ≠ .message header span := by
        simp [front]
      rw [resumed_no_header noHeader, Option.toList_none, List.append_nil]
      exact .none earlier (resync_chunks reader)
  | message header span => exact message_kept ready front held earlier kept

/-- The same for the turns of a whole poll: a prefix that is overtaken is so in the first one. -/
theorem read_kept {arrived : Nat} (fuel : Nat) {reader : HttpReader}
    (enough : reader.input.length < fuel) {history : List ChunkResume}
    (held : Held arrived history reader) (earlier : Resumed history)
    (kept : headOvertakes reader.input reader.applications reader.peer = false) :
    Resumed (history ++ (visited turn fuel reader).filterMap (HttpReader.resumed arrived)) ∧
      Held arrived (history ++ (visited turn fuel reader).filterMap (HttpReader.resumed arrived))
        (run turn id fuel reader) := by
  induction fuel generalizing reader history with
  | zero => omega
  | succ fuel ih =>
      have step := turn_kept held earlier kept
      have trace : ∀ rest : List HttpReader,
          history ++ (reader :: rest).filterMap (HttpReader.resumed arrived) =
            history ++ (reader.resumed arrived).toList ++
              rest.filterMap (HttpReader.resumed arrived) := by
        intro rest
        cases here : reader.resumed arrived <;> simp [here]
      simp only [visited, run, trace]
      cases pass : reader.turn with
      | leave result =>
          rw [pass] at step
          simpa using ⟨step.resumed, step.held⟩
      | again next =>
          have shorter := turn_decreasing reader next pass
          rw [pass] at step
          have none := step.again next rfl
          exact ih (by simp only at shorter; omega) step.held step.resumed
            (by simp [headOvertakes, none])

end HttpReader

/-- The evaluations of a poll are those of its reader. -/
theorem chunk_resumes_viewed {key : FlowKey} (http : key.isHttp = true)
    (notDns : key.isDns = false) (arrived : Nat) {poll : StreamPoll}
    (readable : poll.stream.hasReadableData = true)
    (inside : poll.stream.readPos ≤ poll.stream.assembled.length) :
    chunkResumes key arrived poll =
      (visited HttpReader.turn (poll.view.input.length + 1) poll.view).filterMap
        (HttpReader.resumed arrived) := by
  refine filter_map_viewed ?_ (http_turns_viewed http notDns readable inside)
  rintro poll _ ⟨-, rfl⟩
  rfl

/-- A flow with the bytes that have arrived in each direction and what was taken up there. -/
structure Exchange where
  poll : FlowPoll
  arrived : Bool → Nat
  resumes : Bool → List ChunkResume

/-- The poll of `flow`, which `piece` has arrived in. -/
def Exchange.polled (key : FlowKey) (exchange : Exchange) (flow : Flow) (piece : List UInt8)
    (flowIsNew : Bool) : Exchange :=
  let poll := { exchange.poll with flow := flow }
  let arrived := exchange.arrived flow.isReverse + piece.length
  { poll := pollFlow key poll flowIsNew
    arrived := Function.update exchange.arrived flow.isReverse arrived
    resumes := Function.update exchange.resumes flow.isReverse
      (exchange.resumes flow.isReverse ++
        chunkResumes key arrived (streamPoll key poll flowIsNew)) }

/-- The runs of `pollFlow` over both directions from fresh application state, each poll of a
stream being `allowed`. -/
inductive Exchanged (key : FlowKey) (allowed : StreamPoll → Bool) : Exchange → Prop where
  | fresh {poll : FlowPoll} (owned : Owned key poll.flow) (node : poll.decoder.node key = {})
      (inside : ∀ isReverse,
        (poll.flow.side isReverse).readPos ≤ (poll.flow.side isReverse).assembled.length) :
      Exchanged key allowed {
        poll := poll
        arrived := fun isReverse => (poll.flow.side isReverse).available
        resumes := fun _ => [] }
  | poll {exchange : Exchange} {flow : Flow} {piece : List UInt8} (flowIsNew : Bool)
      (reached : Exchanged key allowed exchange)
      (arrives : Arrives piece exchange.poll.flow flow)
      (permitted : allowed (streamPoll key { exchange.poll with flow := flow } flowIsNew) = true) :
      Exchanged key allowed (exchange.polled key flow piece flowIsNew)

/-- The stream may be read, and the response at its front is overtaken by a HEAD request. -/
def StreamPoll.headOvertakes (poll : StreamPoll) : Bool :=
  poll.stream.hasReadableData &&
    PcapAnalyzer.headOvertakes poll.stream.peek poll.applications poll.peer

/-- More bytes move neither the message nor its position. -/
theorem Held.grow {arrived : Nat} {history : List ChunkResume} {reader : HttpReader}
    (held : Held arrived history reader) (within : reader.input.length ≤ arrived)
    (more : List UInt8) :
    Held (arrived + more.length) history { reader with input := reader.input ++ more } := by
  cases held with
  | nothing none => exact .nothing none
  | chunks ready front chunked allowed inside known position sameHeader validated =>
      refine .chunks ready (http_front_append_message front more) chunked allowed ?_ known ?_
        sameHeader validated
      · simp only [List.length_append]
        omega
      · simp only [List.length_append]
        omega

/-- Which requests wait for a response does not matter between two polls. -/
theorem Held.pending {arrived : Nat} {history : List ChunkResume} {reader other : HttpReader}
    (held : Held arrived history reader) (input : other.input = reader.input)
    (same : ∃ pending, other.applications =
      { reader.applications with pendingHeadRequests := pending }) :
    Held arrived history other := by
  obtain ⟨pending, same⟩ := same
  rcases other with ⟨_, _, peer⟩
  simp only at input same
  subst input same
  cases held with
  | nothing none => exact .nothing none
  | chunks ready front chunked allowed inside known position sameHeader validated =>
      exact .chunks ready front chunked allowed inside known position sameHeader validated

/-- A poll of one stream. -/
theorem poll_stream_kept {key : FlowKey} (http : key.isHttp = true) (notDns : key.isDns = false)
    {arrived : Nat} {history : List ChunkResume} {poll : StreamPoll}
    (inside : poll.stream.readPos ≤ poll.stream.assembled.length)
    (held : Held arrived history poll.view) (earlier : Resumed history)
    (kept : poll.headOvertakes = false) :
    Resumed (history ++ chunkResumes key arrived poll) ∧
      Held arrived (history ++ chunkResumes key arrived poll) (pollStream key poll).view := by
  rw [poll_stream_reader http notDns inside]
  by_cases readable : poll.stream.hasReadableData = true
  · rw [StreamPoll.headOvertakes, readable, Bool.true_and] at kept
    rw [if_pos readable, chunk_resumes_viewed http notDns arrived readable inside]
    exact HttpReader.read_kept _ (Nat.lt_succ_self _) held earlier kept
  · rw [if_neg readable, chunkResumes, http_turns_unreadable key (by simpa using readable),
      List.filterMap_nil, List.append_nil]
    exact ⟨earlier, held⟩

/-- What holds of a flow between two polls. -/
structure ExchangeInvariant (key : FlowKey) (exchange : Exchange) : Prop where
  owned : Owned key exchange.poll.flow
  within : ∀ isReverse,
    (exchange.poll.reader key isReverse).input.length ≤ exchange.arrived isReverse
  held : ∀ isReverse, Held (exchange.arrived isReverse) (exchange.resumes isReverse)
    (exchange.poll.reader key isReverse)
  resumed : ∀ isReverse, Resumed (exchange.resumes isReverse)

theorem polled_invariant {key : FlowKey} (http : key.isHttp = true) (notDns : key.isDns = false)
    {exchange : Exchange} (invariant : ExchangeInvariant key exchange) {flow : Flow}
    {piece : List UInt8} (flowIsNew : Bool) (arrives : Arrives piece exchange.poll.flow flow)
    (kept : (streamPoll key { exchange.poll with flow := flow } flowIsNew).headOvertakes = false) :
    ExchangeInvariant key (exchange.polled key flow piece flowIsNew) := by
  have owned : Owned key flow := by
    have before := invariant.owned
    rwa [Owned, ← arrives.appState] at before
  have start := @stream_poll_reader key exchange.poll flow piece arrives flowIsNew
  have inside : (streamPoll key { exchange.poll with flow := flow } flowIsNew).stream.readPos ≤
      (streamPoll key { exchange.poll with flow := flow } flowIsNew).stream.assembled.length :=
    arrives.inside flow.isReverse
  have size : (streamPoll key { exchange.poll with flow := flow } flowIsNew).view.input.length ≤
      exchange.arrived flow.isReverse + piece.length := by
    have before := invariant.within flow.isReverse
    rw [start]
    split_ifs <;> simp only [List.length_append] <;> omega
  have held : Held (exchange.arrived flow.isReverse + piece.length)
      (exchange.resumes flow.isReverse)
      (streamPoll key { exchange.poll with flow := flow } flowIsNew).view := by
    rw [start]
    split_ifs
    · exact .nothing rfl
    · exact (invariant.held flow.isReverse).grow (invariant.within flow.isReverse) piece
  have after := poll_stream_kept http notDns inside held (invariant.resumed flow.isReverse) kept
  have readers := @poll_flow_readers key { exchange.poll with flow := flow } http owned flowIsNew
  have frame := poll_stream_frame http notDns inside
  have otherInput : (flow.side (!flow.isReverse)).peek =
      (exchange.poll.reader key (!flow.isReverse)).input := arrives.other
  have differs : (!flow.isReverse) ≠ flow.isReverse := by simp
  constructor
  · exact (poll_flow_frame owned flowIsNew).owned
  · refine each_side flow.isReverse ?_ ?_
    · simp only [Exchange.polled, Function.update_self]
      rw [readers.1]
      exact frame.1.length_le.trans size
    · simp only [Exchange.polled, Function.update_of_ne differs]
      rw [readers.2, otherInput]
      exact invariant.within _
  · refine each_side flow.isReverse ?_ ?_
    · simp only [Exchange.polled, Function.update_self]
      rw [readers.1]
      exact after.2
    · simp only [Exchange.polled, Function.update_of_ne differs]
      obtain ⟨pending, peer⟩ := frame.2
      rw [readers.2, otherInput]
      rw [start] at peer
      cases flowIsNew with
      | true => exact .nothing (congrArg Applications.httpChunkPrefix peer)
      | false => exact (invariant.held (!flow.isReverse)).pending rfl ⟨pending, peer⟩
  · refine each_side flow.isReverse ?_ ?_
    · simp only [Exchange.polled, Function.update_self]
      exact after.1
    · simp only [Exchange.polled, Function.update_of_ne differs]
      exact invariant.resumed _

/-- In every run in which no HEAD request overtakes a response that is partly validated, each
offset is inside its span and was validated for the message in front. -/
theorem resumed_offset_inside {key : FlowKey} (http : key.isHttp = true)
    (notDns : key.isDns = false) {exchange : Exchange}
    (reached : Exchanged key (fun poll => !poll.headOvertakes) exchange) :
    ∀ isReverse, Resumed (exchange.resumes isReverse) := by
  have invariant : ExchangeInvariant key exchange := by
    induction reached with
    | fresh owned node inside =>
        refine ⟨owned, ?_, ?_, fun _ => .nil⟩
        · intro isReverse
          exact (TcpReassembler.available_eq_peek _).ge
        · intro isReverse
          refine .nothing ?_
          simp only [FlowPoll.reader, node]
          cases isReverse <;> rfl
    | poll flowIsNew _ arrives kept ih =>
        exact polled_invariant http notDns ih flowIsNew arrives (by simpa using kept)
  exact invariant.resumed

/-- Segments arrive in order in one direction after the other, with a poll after each. -/
def Exchange.deliver (key : FlowKey) : List (Bool × List UInt8) → Exchange → Exchange
  | [], exchange => exchange
  | (isReverse, piece) :: segments, exchange =>
      deliver key segments
        (exchange.polled key (exchange.poll.flow.receive isReverse piece) piece false)

/-- Each poll on the way is allowed. -/
def Exchange.allows (key : FlowKey) (allowed : StreamPoll → Bool) :
    List (Bool × List UInt8) → Exchange → Bool
  | [], _ => true
  | (isReverse, piece) :: segments, exchange =>
      let flow := exchange.poll.flow.receive isReverse piece
      allowed (streamPoll key { exchange.poll with flow := flow } false) &&
        allows key allowed segments (exchange.polled key flow piece false)

theorem deliver_exchanged {key : FlowKey} {allowed : StreamPoll → Bool}
    (segments : List (Bool × List UInt8)) {exchange : Exchange}
    (reached : Exchanged key allowed exchange) (owned : Owned key exchange.poll.flow)
    (inOrder : ∀ isReverse, InOrder (exchange.poll.flow.side isReverse))
    (permitted : exchange.allows key allowed segments = true) :
    Exchanged key allowed (exchange.deliver key segments) := by
  induction segments generalizing exchange with
  | nil => exact reached
  | cons segment segments ih =>
      obtain ⟨isReverse, piece⟩ := segment
      simp only [Exchange.allows, Bool.and_eq_true] at permitted
      obtain ⟨arrives, sides⟩ := receive_arrives inOrder isReverse piece
      have ownedToo : Owned key (exchange.poll.flow.receive isReverse piece) := by
        rwa [Owned, arrives.appState]
      exact ih (.poll false reached arrives permitted.1) (poll_flow_frame ownedToo false).owned
        (fun side => (sides side).consumed (poll_flow_consumed key _ false ownedToo side))
        permitted.2

def newExchange : Exchange :=
  { poll := newFlowPoll
    arrived := fun isReverse => (newFlowPoll.flow.side isReverse).available
    resumes := fun _ => [] }

theorem new_exchange_exchanged (key : FlowKey) {allowed : StreamPoll → Bool}
    (segments : List (Bool × List UInt8))
    (permitted : newExchange.allows key allowed segments = true) :
    Exchanged key allowed (newExchange.deliver key segments) := by
  refine deliver_exchanged segments (.fresh (.inl rfl) rfl ?_) (.inl rfl) ?_ permitted
  · exact each_side false (by decide) (by decide)
  · exact each_side false ⟨rfl, rfl, rfl, by decide⟩ ⟨rfl, rfl, rfl, by decide⟩

def chunkedResponse : List UInt8 :=
  Http.http11 ++ text [' ', '2', '0', '0', ' '] ++ Http.crlf ++ Http.transferEncoding ++ text [':'] ++
    Http.chunked ++ Http.crlf ++ Http.crlf

/-- A chunk of 27 bytes that reads as the header of a request whose body is chunked. -/
def requestLikeChunk : List UInt8 :=
  text ['1', 'b', ' ', ';', 'x', ' '] ++ Http.http11 ++ Http.crlf ++ Http.transferEncoding ++
    text [':'] ++ Http.chunked ++ Http.crlf ++ Http.crlf

def lastChunk : List UInt8 := text ['0'] ++ Http.crlf ++ Http.crlf

theorem resumed_offset_inside_pieces :
    Resumed ((newExchange.deliver { dstPort := 80 } [(false, getRequest),
        (true, chunkedResponse ++ requestLikeChunk), (true, lastChunk)]).resumes true) ∧
      ((newExchange.deliver { dstPort := 80 } [(false, getRequest),
        (true, chunkedResponse ++ requestLikeChunk), (true, lastChunk)]).resumes true).map
          ChunkResume.offset = [0, 45] :=
  ⟨resumed_offset_inside (by decide) (by decide)
    (new_exchange_exchanged _ _ (by decide +kernel)) true, by decide +kernel⟩

/-- The HEAD request is taken for the response to the GET request. The chunk is then read as a
request, and the prefix of 45 bytes is applied to the one byte behind it. -/
def overtaking : List (Bool × List UInt8) :=
  [(false, getRequest ++ headRequest), (true, chunkedResponse ++ requestLikeChunk),
    (true, text ['0'])]

theorem resumed_offset_outside : ¬ ∀ (key : FlowKey) (exchange : Exchange), key.isHttp = true →
    key.isDns = false → Exchanged key (fun _ => true) exchange →
      ∀ isReverse, Resumed (exchange.resumes isReverse) := by
  intro always
  have reached : Exchanged { dstPort := 80 } (fun _ => true)
      (newExchange.deliver { dstPort := 80 } overtaking) :=
    new_exchange_exchanged _ _ (by decide +kernel)
  have inside := (always _ _ (by decide) (by decide) reached true).inside
  have outside : ((newExchange.deliver { dstPort := 80 } overtaking).resumes true).any
      (fun next => next.size < next.offset) = true := by decide +kernel
  obtain ⟨next, member, past⟩ := List.any_eq_true.mp outside
  have bound := inside next member
  simp only [decide_eq_true_eq] at past
  omega

end PcapAnalyzer
