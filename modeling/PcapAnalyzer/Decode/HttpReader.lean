import PcapAnalyzer.Decode.StreamFeed
import PcapAnalyzer.Protocols.HttpStream

/-!
# Reading HTTP messages off a byte string

The HTTP loop of `pollStream` without its stream: the unread bytes are a list, and what
has been read is dropped from its front. The loop over the stream does the same to them.
-/

namespace PcapAnalyzer

open MeasuredLoop

set_option autoImplicit false

/-- What stands at the front of the unread bytes. -/
inductive HttpFront where
  | waiting
  | malformed
  | message (header : Http.Header) (span : List UInt8)

/-- An endless header is malformed. -/
def httpFront (input : List UInt8) : HttpFront :=
  match parseFront input with
  | .error .unexpectedEof =>
      if input.length > maxHttpHeaderBytes then .malformed else .waiting
  | .error _ => .malformed
  | .ok (header, span) => .message header span

structure HttpReader where
  input : List UInt8
  applications : Applications
  peer : Applications
  deriving DecidableEq

namespace HttpReader

/-- The bytes up to the next message are given up, or kept until one is found. -/
def resync (reader : HttpReader) : Turn HttpReader HttpReader :=
  let applications := { reader.applications with
    httpChunkPrefix := 0
    httpBodyUntilClose := false }
  let failed := { applications with
    decodeFailures := applications.decodeFailures + 1
    httpResyncScanned := 0 }
  match findHttpResync reader.input applications.httpResyncScanned with
  | some start => .again { reader with input := reader.input.drop start, applications := failed }
  | none =>
      if reader.input.length > maxHttpMessageBytes then
        .again { reader with input := [], applications := failed }
      else .leave { reader with
        applications := { applications with httpResyncScanned := reader.input.length - 8 } }

def oversized (header : Http.Header) (span : List UInt8) (reader : HttpReader) :
    Turn HttpReader HttpReader :=
  if header.hasContentLength && !header.chunked then
    let applications := recordHttp header reader.applications
    .again { reader with
      input := span
      applications := { applications with
        httpSkip := header.contentLength
        httpBodiesSkipped := applications.httpBodiesSkipped + 1 } }
  else reader.resync

def message (header : Http.Header) (span : List UInt8) (reader : HttpReader) :
    Turn HttpReader HttpReader :=
  let (headResponse, peer) := popHeadRequest header reader.peer
  let reader := { reader with peer := peer }
  match scanBody header headResponse reader.applications span with
  | .malformed => reader.resync
  | .incomplete applications span =>
      let reader := { reader with applications := applications }
      if reader.input.length > maxHttpMessageBytes then reader.oversized header span
      else .leave reader
  | .complete applications span =>
      .again { reader with input := span, applications := recordHttp header applications }

def skip (reader : HttpReader) : Turn HttpReader HttpReader :=
  let left := reader.applications.httpSkip - reader.input.length
  let reader := { reader with
    input := reader.input.drop reader.applications.httpSkip
    applications := { reader.applications with httpSkip := left } }
  if left > 0 then .leave reader else .again reader

def turn (reader : HttpReader) : Turn HttpReader HttpReader :=
  if reader.applications.httpSkip > 0 then reader.skip else
  if reader.applications.httpBodyUntilClose then .leave { reader with input := [] } else
  match httpFront reader.input with
  | .waiting => .leave reader
  | .malformed => reader.resync
  | .message header span => reader.message header span

def read (reader : HttpReader) : HttpReader :=
  run turn id (reader.input.length + 1) reader

end HttpReader

section Front

theorem parse_front_suffix {input span : List UInt8} {header : Http.Header}
    (parsed : parseFront input = .ok (header, span)) :
    span <:+ input ∧ span.length < input.length := by
  unfold parseFront at parsed
  cases read : Http.parse (input.take (min input.length maxHttpHeaderBytes)) with
  | error err => simp [read, bind, Except.bind] at parsed
  | ok result =>
      rcases result with ⟨header', rest⟩
      have suffix := (Http.parse_suffix read).2
      simp only [read, bind, Except.bind, Except.ok.injEq, Prod.mk.injEq] at parsed
      rw [← parsed.2]
      refine ⟨List.drop_suffix _ _, ?_⟩
      rw [List.length_take] at suffix
      rw [List.length_drop]
      omega

theorem http_front_message {input span : List UInt8} {header : Http.Header} :
    httpFront input = .message header span ↔ parseFront input = .ok (header, span) := by
  unfold httpFront
  cases parseFront input with
  | error err =>
      cases err <;> simp only [reduceCtorEq]
      split_ifs <;> simp
  | ok result => simp [Prod.ext_iff]

theorem scan_chunked_complete {applications after : Applications} {span rest : List UInt8}
    (scanned : scanChunkedBody applications span = .complete after rest) :
    rest <:+ span ∧ after = { applications with httpChunkPrefix := 0 } := by
  have suffix := Http.parse_chunked_body_suffix (span.drop applications.httpChunkPrefix)
  unfold scanChunkedBody at scanned
  simp only at scanned
  split_ifs at scanned
  cases scanned
  exact ⟨suffix.trans (List.drop_suffix _ _), rfl⟩

/-- What a scan leaves is an end of what it was given. -/
theorem scan_body_complete {header : Http.Header} {headResponse : Bool}
    {applications after : Applications} {span rest : List UInt8}
    (scanned : scanBody header headResponse applications span = .complete after rest) :
    rest <:+ span := by
  unfold scanBody at scanned
  split_ifs at scanned
  · cases scanned
    exact List.suffix_rfl
  · exact (scan_chunked_complete scanned).1
  · cases scanned
    exact List.drop_suffix _ _
  · cases scanned
    exact List.suffix_rfl
  · cases scanned
    exact List.suffix_rfl

theorem scan_body_incomplete {header : Http.Header} {headResponse : Bool}
    {applications after : Applications} {span rest : List UInt8}
    (scanned : scanBody header headResponse applications span = .incomplete after rest) :
    rest <:+ span := by
  unfold scanBody scanChunkedBody at scanned
  simp only at scanned
  split_ifs at scanned
  · cases scanned
    exact List.drop_suffix _ _
  · cases scanned
    exact List.suffix_rfl

end Front

/-- Recording a message leaves alone what a poll carries over to the next. -/
theorem record_http_chunks (header : Http.Header) (applications : Applications) :
    (recordHttp header applications).httpChunkPrefix = applications.httpChunkPrefix ∧
      (recordHttp header applications).httpResyncScanned = applications.httpResyncScanned := by
  unfold recordHttp pushHeadRequest
  simp only
  split_ifs <;> exact ⟨rfl, rfl⟩

namespace HttpReader

/-- A message can start with the next byte. -/
def Ready (reader : HttpReader) : Prop :=
  reader.applications.httpSkip = 0 ∧ reader.applications.httpBodyUntilClose = false

section Turns

variable {reader : HttpReader}

theorem turn_ready (ready : reader.Ready) :
    reader.turn = match httpFront reader.input with
      | .waiting => .leave reader
      | .malformed => reader.resync
      | .message header span => reader.message header span := by
  rw [turn, ready.1, ready.2]
  rfl

theorem turn_drains (noSkip : reader.applications.httpSkip = 0)
    (untilClose : reader.applications.httpBodyUntilClose = true) :
    reader.turn = .leave { reader with input := [] } := by
  rw [turn, noSkip, untilClose]
  rfl

/-- What skipping leaves, whether it is done or not. -/
theorem skip_state (reader : HttpReader) :
    reader.skip.state = { reader with
      input := reader.input.drop reader.applications.httpSkip
      applications := { reader.applications with
        httpSkip := reader.applications.httpSkip - reader.input.length } } := by
  unfold skip
  simp only
  split_ifs <;> rfl

theorem turn_skips (missing : reader.input.length < reader.applications.httpSkip) :
    reader.turn = .leave { reader with
      input := []
      applications := { reader.applications with
        httpSkip := reader.applications.httpSkip - reader.input.length } } := by
  have none : reader.input.drop reader.applications.httpSkip = [] :=
    List.drop_eq_nil_of_le missing.le
  rw [turn, if_pos (by omega), skip, none]
  exact if_pos (by omega)

theorem turn_skipped (skipping : 0 < reader.applications.httpSkip)
    (arrived : reader.applications.httpSkip ≤ reader.input.length) :
    reader.turn = .again { reader with
      input := reader.input.drop reader.applications.httpSkip
      applications := { reader.applications with httpSkip := 0 } } := by
  have done : reader.applications.httpSkip - reader.input.length = 0 := by omega
  rw [turn, if_pos skipping, skip, done]
  rfl

theorem resync_chunks (reader : HttpReader) :
    reader.resync.state.applications.httpChunkPrefix = 0 := by
  unfold resync
  simp only
  split
  · rfl
  · split_ifs <;> rfl

/-- An endless chunked body is given up. -/
theorem oversized_chunked {header : Http.Header} (chunked : header.chunked = true)
    (span : List UInt8) (reader : HttpReader) : reader.oversized header span = reader.resync := by
  rw [oversized, chunked, Bool.not_true, Bool.and_false]
  rfl

end Turns

theorem resync_shorter {reader next : HttpReader} (again : reader.resync = .again next) :
    next.input.length < reader.input.length := by
  unfold resync at again
  simp only at again
  split at again
  · next start found =>
      cases again
      obtain ⟨p, here, rfl⟩ := Option.map_eq_some_iff.mp found
      have inside := List.mem_range.mp (List.mem_of_find?_eq_some here)
      rw [List.length_drop]
      omega
  · split_ifs at again
    cases again
    simp only [List.length_nil]
    omega

theorem message_shorter {reader next : HttpReader} {header : Http.Header} {span : List UInt8}
    (shorter : span.length < reader.input.length)
    (again : reader.message header span = .again next) :
    next.input.length < reader.input.length := by
  unfold message at again
  generalize popHeadRequest header reader.peer = taken at again
  rcases taken with ⟨headResponse, peer⟩
  simp only at again
  split at again
  · have resynced := resync_shorter again
    exact resynced
  · next scanned =>
      have rest := (scan_body_incomplete scanned).length_le
      split_ifs at again
      unfold oversized at again
      split_ifs at again
      · cases again
        simp only
        omega
      · have resynced := resync_shorter again
        exact resynced
  · next scanned =>
      have rest := (scan_body_complete scanned).length_le
      cases again
      simp only
      omega

/-- Whatever the input and the state, a turn that goes round again has read a byte. -/
theorem turn_decreasing : Decreasing turn fun reader => reader.input.length := by
  intro reader next again
  unfold turn at again
  split_ifs at again
  · unfold skip at again
    simp only at again
    split_ifs at again
    cases again
    simp only [List.length_drop]
    omega
  · split at again
    · cases again
    · exact resync_shorter again
    · next header span front =>
        exact message_shorter (parse_front_suffix (http_front_message.mp front)).2 again

theorem resync_suffix (reader : HttpReader) : reader.resync.state.input <:+ reader.input := by
  unfold resync
  simp only
  split
  · exact List.drop_suffix _ _
  · split_ifs
    · exact List.nil_suffix
    · exact List.suffix_rfl

theorem message_suffix (reader : HttpReader) {header : Http.Header} {span : List UInt8}
    (suffix : span <:+ reader.input) :
    (reader.message header span).state.input <:+ reader.input := by
  unfold message
  rcases popHeadRequest header reader.peer with ⟨headResponse, peer⟩
  simp only
  cases scanned : scanBody header headResponse reader.applications span with
  | malformed => exact resync_suffix { reader with peer := peer }
  | incomplete after rest =>
      simp only
      split_ifs
      · unfold oversized
        split_ifs
        · exact (scan_body_incomplete scanned).trans suffix
        · exact resync_suffix { reader with peer := peer, applications := after }
      · exact List.suffix_rfl
  | complete after rest => exact (scan_body_complete scanned).trans suffix

/-- What is unread afterwards is an end of what was unread before. -/
theorem turn_suffix (reader : HttpReader) : reader.turn.state.input <:+ reader.input := by
  unfold turn
  split_ifs
  · rw [skip_state]
    exact List.drop_suffix _ _
  · exact List.nil_suffix
  · split
    · exact List.suffix_rfl
    · exact resync_suffix reader
    · next front =>
        exact message_suffix reader (parse_front_suffix (http_front_message.mp front)).1

theorem read_suffix (reader : HttpReader) : reader.read.input <:+ reader.input :=
  @run_composes HttpReader turn (fun before after => after.input <:+ before.input)
    (fun _ => List.suffix_rfl) (fun _ _ _ earlier later => later.trans earlier) turn_suffix _ reader

end HttpReader

section View

open TcpReassembler

/-- The variables of the loop, with what the stream holds unread. -/
def HttpPoll.view (poll : HttpPoll) : HttpReader :=
  { input := poll.stream.peek, applications := poll.applications, peer := poll.peer }

theorem HttpPoll.view_input (poll : HttpPoll) : poll.view.input = poll.stream.peek := rfl

theorem HttpPoll.view_applications (poll : HttpPoll) :
    poll.view.applications = poll.applications := rfl

/-- The reader has what the stream, read within its bounds, still holds. -/
structure HttpPoll.Viewed (poll : HttpPoll) (reader : HttpReader) : Prop where
  inside : poll.stream.readPos ≤ poll.stream.assembled.length
  view : reader = poll.view

/-- Both turns leave or both go round again, and view the same. -/
abbrev SameView : Turn HttpPoll HttpPoll → Turn HttpReader HttpReader → Prop :=
  SameTurn HttpPoll.Viewed HttpPoll.Viewed

variable {poll : HttpPoll} (inside : poll.stream.readPos ≤ poll.stream.assembled.length)

include inside

theorem consume_viewed (count : Nat) (applications peer : Applications) :
    HttpPoll.Viewed
      { stream := poll.stream.consume count, applications := applications, peer := peer }
      { input := poll.stream.peek.drop count, applications := applications, peer := peer } where
  inside := consume_length_bound _ _ inside
  view := by rw [HttpPoll.view, consume_peek _ _ inside]

/-- Consuming all but an end of the unread bytes leaves that end. -/
theorem consume_to_viewed {span : List UInt8} (suffix : span <:+ poll.stream.peek)
    (applications peer : Applications) :
    HttpPoll.Viewed
      { stream := poll.stream.consume (poll.stream.peek.length - span.length)
        applications := applications
        peer := peer }
      { input := span, applications := applications, peer := peer } := by
  have viewed := consume_viewed inside (poll.stream.peek.length - span.length) applications peer
  rwa [← List.suffix_iff_eq_drop.mp suffix] at viewed

theorem resync_http_viewed : SameView (resyncHttp poll) poll.view.resync := by
  unfold resyncHttp HttpReader.resync
  simp only [HttpPoll.view, available_eq_peek]
  cases findHttpResync poll.stream.peek poll.applications.httpResyncScanned with
  | some start => exact .again (consume_viewed inside start _ _)
  | none =>
      by_cases large : poll.stream.peek.length > maxHttpMessageBytes
      · simp only [large, if_true]
        have viewed := consume_viewed inside poll.stream.peek.length
        rw [List.drop_length] at viewed
        exact .again (viewed _ _)
      · have scanned : (if poll.stream.peek.length > 8 then poll.stream.peek.length - 8 else 0) =
            poll.stream.peek.length - 8 := by
          split_ifs <;> omega
        simp only [large, if_false, scanned]
        exact .leave ⟨inside, rfl⟩

theorem oversized_body_viewed (header : Http.Header) {span : List UInt8}
    (suffix : span <:+ poll.stream.peek) :
    SameView (oversizedBody header span poll) (poll.view.oversized header span) := by
  unfold oversizedBody HttpReader.oversized
  split_ifs
  · exact .again (consume_to_viewed inside suffix _ _)
  · exact resync_http_viewed inside

theorem http_message_viewed (header : Http.Header) {span : List UInt8}
    (suffix : span <:+ poll.stream.peek) :
    SameView (httpMessage header span poll) (poll.view.message header span) := by
  unfold httpMessage HttpReader.message
  rcases popped : popHeadRequest header poll.peer with ⟨headResponse, peer⟩
  simp only [HttpPoll.view, popped]
  cases scanned : scanBody header headResponse poll.applications span with
  | malformed =>
      have resynced : SameView (resyncHttp { poll with peer := peer }) _ :=
        resync_http_viewed inside
      exact resynced
  | incomplete after rest =>
      simp only [available_eq_peek]
      by_cases large : poll.stream.peek.length > maxHttpMessageBytes
      · simp only [large, if_true]
        have waiting : { poll with peer := peer, applications := after }.stream.readPos ≤ _ := inside
        exact oversized_body_viewed waiting header ((scan_body_incomplete scanned).trans suffix)
      · simp only [large, if_false]
        exact .leave ⟨inside, rfl⟩
  | complete after rest =>
      exact .again (consume_to_viewed inside ((scan_body_complete scanned).trans suffix) _ _)

theorem skip_body_viewed : SameView (skipBody poll) poll.view.skip := by
  unfold skipBody HttpReader.skip
  simp only [HttpPoll.view, available_eq_peek]
  have left : poll.applications.httpSkip - min poll.applications.httpSkip poll.stream.peek.length =
      poll.applications.httpSkip - poll.stream.peek.length := by omega
  have dropped : poll.stream.peek.drop poll.applications.httpSkip =
      poll.stream.peek.drop (min poll.applications.httpSkip poll.stream.peek.length) := by
    rcases Nat.le_total poll.applications.httpSkip poll.stream.peek.length with short | long
    · rw [Nat.min_eq_left short]
    · rw [Nat.min_eq_right long, List.drop_length, List.drop_eq_nil_of_le long]
  rw [left, dropped]
  by_cases more : poll.applications.httpSkip - poll.stream.peek.length > 0
  · simp only [more, if_true]
    exact .leave (consume_viewed inside _ _ _)
  · simp only [more, if_false]
    exact .again (consume_viewed inside _ _ _)

/-- A turn of the loop over the stream is a turn of the reader. -/
theorem http_turn_viewed : SameView (httpTurn poll) poll.view.turn := by
  unfold httpTurn HttpReader.turn
  rw [HttpPoll.view_applications, HttpPoll.view_input]
  by_cases skipping : poll.applications.httpSkip > 0
  · rw [if_pos skipping, if_pos skipping]
    exact skip_body_viewed inside
  rw [if_neg skipping, if_neg skipping]
  by_cases untilClose : poll.applications.httpBodyUntilClose = true
  · rw [if_pos untilClose, if_pos untilClose]
    have viewed := consume_viewed inside poll.stream.peek.length
    rw [List.drop_length] at viewed
    rw [available_eq_peek]
    exact .leave (viewed _ _)
  rw [if_neg untilClose, if_neg untilClose, available_eq_peek]
  have resynced := resync_http_viewed inside
  unfold httpFront
  cases parsed : parseFront poll.stream.peek with
  | error err =>
      cases err
      case unexpectedEof =>
        by_cases endless : poll.stream.peek.length > maxHttpHeaderBytes
        · simp only [endless, if_true]
          exact resynced
        · simp only [endless, if_false]
          exact .leave ⟨inside, rfl⟩
      all_goals exact resynced
  | ok result => exact http_message_viewed inside result.1 (parse_front_suffix parsed).1

/-- The HTTP loop of `pollStream` refines the reader. -/
theorem http_loop_viewed : (httpLoop poll).Viewed poll.view.read := by
  unfold httpLoop HttpReader.read
  rw [available_eq_peek]
  refine run_related ?_ (fun _ _ viewed => viewed) _ poll poll.view ⟨inside, rfl⟩
  rintro poll _ ⟨inside, rfl⟩
  exact http_turn_viewed inside

/-- The loops go through the same views. -/
theorem visited_viewed :
    List.Forall₂ HttpPoll.Viewed (visited httpTurn (poll.stream.available + 1) poll)
      (visited HttpReader.turn (poll.view.input.length + 1) poll.view) := by
  have turns : ∀ poll reader, HttpPoll.Viewed poll reader →
      SameView (httpTurn poll) reader.turn := by
    rintro poll _ ⟨inside, rfl⟩
    exact http_turn_viewed inside
  rw [available_eq_peek]
  exact visited_related turns _ poll poll.view ⟨inside, rfl⟩

omit inside

/-- What is told of each turn can be told of the reader. -/
theorem filter_map_viewed {Told : Type} {ofPoll : HttpPoll → Option Told}
    {ofReader : HttpReader → Option Told}
    (same : ∀ poll reader, HttpPoll.Viewed poll reader → ofPoll poll = ofReader reader)
    {polls : List HttpPoll} {readers : List HttpReader}
    (viewed : List.Forall₂ HttpPoll.Viewed polls readers) :
    polls.filterMap ofPoll = readers.filterMap ofReader := by
  induction viewed with
  | nil => rfl
  | cons viewed _ ih => rw [List.filterMap_cons, List.filterMap_cons, same _ _ viewed, ih]

def StreamPoll.view (poll : StreamPoll) : HttpReader :=
  { input := poll.stream.peek, applications := poll.applications, peer := poll.peer }

/-- The states in which a poll of an HTTP stream enters the body of its loop. -/
def httpTurns (key : FlowKey) (poll : StreamPoll) : List HttpPoll :=
  if !poll.stream.hasReadableData || key.isDns || !key.isHttp then [] else
  visited httpTurn (poll.stream.available + 1)
    { stream := poll.stream, applications := poll.applications, peer := poll.peer }

theorem http_turns_unreadable (key : FlowKey) {poll : StreamPoll}
    (unreadable : poll.stream.hasReadableData = false) : httpTurns key poll = [] := by
  simp [httpTurns, unreadable]

theorem http_turns_viewed {key : FlowKey} (http : key.isHttp = true) (notDns : key.isDns = false)
    {poll : StreamPoll} (readable : poll.stream.hasReadableData = true)
    (inside : poll.stream.readPos ≤ poll.stream.assembled.length) :
    List.Forall₂ HttpPoll.Viewed (httpTurns key poll)
      (visited HttpReader.turn (poll.view.input.length + 1) poll.view) := by
  have viewed := @visited_viewed
    { stream := poll.stream, applications := poll.applications, peer := poll.peer } inside
  unfold httpTurns
  rw [readable, notDns, http]
  exact viewed

/-- A poll of a readable HTTP stream reads what the stream holds. -/
theorem poll_stream_viewed {key : FlowKey} (http : key.isHttp = true) (notDns : key.isDns = false)
    {poll : StreamPoll} (readable : poll.stream.hasReadableData = true)
    (inside : poll.stream.readPos ≤ poll.stream.assembled.length) :
    (pollStream key poll).view = poll.view.read := by
  have polled := @http_loop_viewed
    { stream := poll.stream, applications := poll.applications, peer := poll.peer } inside
  unfold pollStream
  rw [readable, notDns, http]
  exact polled.view.symm

end View

end PcapAnalyzer
