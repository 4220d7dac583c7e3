import PcapAnalyzer.Decode.HttpFlow
import PcapAnalyzer.Decode.HttpPairing
import PcapAnalyzer.Decode.HttpSegments
import PcapAnalyzer.Protocols.HttpFraming

/-!
# Skipping an oversized body

A body that is too large to wait for is skipped: its message is recorded at once and the
bytes that are still to come are counted down. Whether that happens depends on how much was
buffered at a poll. What follows is decoded as if the message had never been there, but for
what has been recorded.
-/

namespace PcapAnalyzer

open MeasuredLoop

set_option autoImplicit false

/-- The same decoder with what the other one has recorded. -/
def Applications.beside (applications record : Applications) : Applications :=
  { applications with
    httpMessages := record.httpMessages
    pendingHeadRequests := record.pendingHeadRequests
    httpBodiesSkipped := record.httpBodiesSkipped }

/-- What has been recorded since: messages, the requests among them as long as there is room,
and the bodies that were skipped. -/
structure Recorded (new : List Http.Header) (skipped : Nat) (before after : Applications) :
    Prop where
  messages : after.httpMessages = before.httpMessages ++ new
  pending : before.pendingHeadRequests.length +
      (new.filter Http.Header.isRequest).length ≤ maxPendingRequests →
    after.pendingHeadRequests = before.pendingHeadRequests ++
      (new.filter Http.Header.isRequest).map Http.Header.asksHead
  skipped : after.httpBodiesSkipped = before.httpBodiesSkipped + skipped

section Recorded

variable {new more : List Http.Header} {skipped skips : Nat} {before middle after : Applications}

theorem Recorded.trans (earlier : Recorded new skipped before middle)
    (later : Recorded more skips middle after) :
    Recorded (new ++ more) (skipped + skips) before after := by
  refine ⟨by rw [later.messages, earlier.messages, List.append_assoc], ?_,
    by rw [later.skipped, earlier.skipped, Nat.add_assoc]⟩
  intro room
  simp only [List.filter_append, List.length_append, List.map_append] at room ⊢
  have pushed := earlier.pending (by omega)
  rw [later.pending (by rw [pushed, List.length_append, List.length_map]; omega), pushed,
    List.append_assoc]

/-- The record is the same. -/
def SameRecord (before after : Applications) : Prop :=
  after.httpMessages = before.httpMessages ∧
    after.pendingHeadRequests = before.pendingHeadRequests ∧
    after.httpBodiesSkipped = before.httpBodiesSkipped

theorem Recorded.same (same : SameRecord before after) : Recorded [] 0 before after :=
  ⟨by rw [same.1, List.append_nil], fun _ => by simp [same.2.1], same.2.2⟩

theorem Recorded.unchanged (earlier : Recorded new skipped before middle)
    (same : SameRecord middle after) : Recorded new skipped before after := by
  have whole := earlier.trans (Recorded.same same)
  rwa [List.append_nil] at whole

theorem record_http_recorded (header : Http.Header) (applications : Applications) :
    Recorded [header] 0 applications (recordHttp header applications) := by
  refine ⟨HttpReader.record_http_messages header applications,
    HttpReader.record_http_pending header applications, ?_⟩
  unfold recordHttp pushHeadRequest
  simp only
  split_ifs <;> rfl

/-- Recording a message whose body is skipped. -/
def recordOversized (header : Http.Header) (applications : Applications) : Applications :=
  { recordHttp header applications with
    httpSkip := header.contentLength
    httpBodiesSkipped := (recordHttp header applications).httpBodiesSkipped + 1 }

theorem record_oversized_recorded (header : Http.Header) (applications : Applications) :
    Recorded [header] 1 applications (recordOversized header applications) := by
  obtain ⟨messages, pending, skipped⟩ := record_http_recorded header applications
  exact ⟨messages, pending, congrArg (· + 1) skipped⟩

/-- Recording does not look at anything else. -/
theorem record_http_beside (header : Http.Header) (applications record : Applications) :
    recordHttp header (applications.beside record) =
      (recordHttp header applications).beside (recordHttp header (applications.beside record)) := by
  unfold recordHttp pushHeadRequest
  simp only
  split_ifs <;> rfl

theorem record_http_rest (header : Http.Header) (applications : Applications) :
    recordHttp header applications =
      applications.beside (recordHttp header applications) := by
  unfold recordHttp pushHeadRequest
  simp only
  split_ifs <;> rfl

end Recorded

/-- A scan with another record. -/
def BodyScan.beside (record : Applications) : BodyScan → BodyScan
  | .malformed => .malformed
  | .incomplete applications span => .incomplete (applications.beside record) span
  | .complete applications span => .complete (applications.beside record) span

theorem scan_chunked_beside (applications record : Applications) (span : List UInt8) :
    scanChunkedBody (applications.beside record) span =
      (scanChunkedBody applications span).beside record := by
  have carried : (applications.beside record).httpChunkPrefix = applications.httpChunkPrefix := rfl
  unfold scanChunkedBody
  rw [carried]
  simp only
  generalize Http.parseChunkedBody (span.drop applications.httpChunkPrefix) = body
  by_cases waits : body.err = .unexpectedEof
  · rw [if_pos waits, if_pos waits]
    rfl
  rw [if_neg waits, if_neg waits]
  by_cases failed : body.err ≠ .none
  · rw [if_pos failed, if_pos failed]
    rfl
  · rw [if_neg failed, if_neg failed]
    rfl

theorem scan_body_beside (header : Http.Header) (headResponse : Bool)
    (applications record : Applications) (span : List UInt8) :
    scanBody header headResponse (applications.beside record) span =
      (scanBody header headResponse applications span).beside record := by
  unfold scanBody
  rw [scan_chunked_beside]
  split_ifs <;> rfl

theorem scan_body_record {header : Http.Header} {headResponse : Bool}
    {applications : Applications} {span : List UInt8} :
    match scanBody header headResponse applications span with
    | .malformed => True
    | .incomplete after _ | .complete after _ => SameRecord applications after := by
  unfold scanBody scanChunkedBody
  simp only
  split_ifs <;> trivial

/-- The same pieces without the first so many bytes. -/
def dropBytes : Nat → List (List UInt8) → List (List UInt8)
  | _, [] => []
  | count, piece :: pieces =>
      if piece.length < count then dropBytes (count - piece.length) pieces
      else piece.drop count :: pieces

theorem drop_bytes_flatten (count : Nat) (pieces : List (List UInt8)) :
    (dropBytes count pieces).flatten = pieces.flatten.drop count := by
  induction pieces generalizing count with
  | nil => simp [dropBytes]
  | cons piece pieces ih =>
      unfold dropBytes
      rw [List.flatten_cons, List.drop_append]
      split_ifs with short
      · rw [ih, List.drop_eq_nil_of_le short.le, List.nil_append]
      · have none : count - piece.length = 0 := by omega
        rw [List.flatten_cons, none, List.drop_zero]

namespace HttpReader

/-- Two readers of the same bytes, one of which has recorded `front` before. -/
structure Ahead (start : Applications) (front : List Http.Header) (extra : Nat)
    (left right : HttpReader) : Prop where
  input : left.input = right.input
  peer : left.peer = right.peer
  alike : left.applications = right.applications.beside left.applications
  recorded : ∃ new skipped, Recorded (front ++ new) (extra + skipped) start left.applications ∧
    Recorded new skipped start right.applications

section Turns

variable {start : Applications} {front : List Http.Header} {extra : Nat} {left right : HttpReader}

/-- Both record the same. -/
theorem Ahead.more {left' right' : HttpReader} (ahead : left.Ahead start front extra right)
    (input : left'.input = right'.input) (peer : left'.peer = right'.peer)
    (alike : left'.applications = right'.applications.beside left'.applications)
    {more : List Http.Header} {skips : Nat}
    (ours : Recorded more skips left.applications left'.applications)
    (theirs : Recorded more skips right.applications right'.applications) :
    left'.Ahead start front extra right' := by
  obtain ⟨new, skipped, leftward, rightward⟩ := ahead.recorded
  have whole := leftward.trans ours
  rw [List.append_assoc, Nat.add_assoc] at whole
  exact ⟨input, peer, alike, new ++ more, skipped + skips, whole, rightward.trans theirs⟩

/-- Neither records anything. -/
theorem Ahead.quiet {left' right' : HttpReader} (ahead : left.Ahead start front extra right)
    (input : left'.input = right'.input) (peer : left'.peer = right'.peer)
    (alike : left'.applications = right'.applications.beside left.applications)
    (same : SameRecord right.applications right'.applications) :
    left'.Ahead start front extra right' := by
  apply ahead.more input peer _ (.same _) (.same same)
  · rw [alike]
    rfl
  · rw [alike]
    exact ⟨rfl, rfl, rfl⟩

theorem resync_ahead (ahead : left.Ahead start front extra right) :
    SameTurn (Ahead start front extra) (Ahead start front extra) left.resync right.resync := by
  have searched : left.applications.httpResyncScanned = right.applications.httpResyncScanned := by
    rw [ahead.alike]
    rfl
  unfold resync
  simp only
  rw [searched, ahead.input, ahead.peer, ahead.alike]
  cases findHttpResync right.input right.applications.httpResyncScanned with
  | some found => exact .again (ahead.quiet rfl rfl rfl ⟨rfl, rfl, rfl⟩)
  | none =>
      simp only
      split_ifs
      · exact .again (ahead.quiet rfl rfl rfl ⟨rfl, rfl, rfl⟩)
      · exact .leave (ahead.quiet rfl rfl rfl ⟨rfl, rfl, rfl⟩)

theorem oversized_eq (header : Http.Header) (span : List UInt8) (reader : HttpReader) :
    reader.oversized header span =
      if header.hasContentLength && !header.chunked then
        .again { reader with
          input := span
          applications := recordOversized header reader.applications }
      else reader.resync :=
  rfl

theorem oversized_ahead (ahead : left.Ahead start front extra right) (header : Http.Header)
    (span : List UInt8) : SameTurn (Ahead start front extra) (Ahead start front extra)
      (left.oversized header span) (right.oversized header span) := by
  rw [oversized_eq, oversized_eq]
  split_ifs
  · refine .again (ahead.more rfl ahead.peer ?_ (record_oversized_recorded header _)
      (record_oversized_recorded header _))
    simp only [recordOversized]
    rw [ahead.alike, record_http_beside]
    rfl
  · exact resync_ahead ahead

theorem skip_ahead (ahead : left.Ahead start front extra right) :
    SameTurn (Ahead start front extra) (Ahead start front extra) left.skip right.skip := by
  have skipping : left.applications.httpSkip = right.applications.httpSkip := by
    rw [ahead.alike]
    rfl
  unfold skip
  simp only
  rw [skipping, ahead.input, ahead.peer, ahead.alike]
  split_ifs
  · exact .leave (ahead.quiet rfl rfl rfl ⟨rfl, rfl, rfl⟩)
  · exact .again (ahead.quiet rfl rfl rfl ⟨rfl, rfl, rfl⟩)

theorem message_ahead (ahead : left.Ahead start front extra right) (header : Http.Header)
    (span : List UInt8) : SameTurn (Ahead start front extra) (Ahead start front extra)
      (left.message header span) (right.message header span) := by
  have scans := scan_body_beside header
  unfold message
  rw [ahead.peer, ahead.input]
  rcases popHeadRequest header right.peer with ⟨headResponse, peer⟩
  have frame := @scan_body_record header headResponse right.applications span
  have alike := scans headResponse right.applications left.applications span
  rw [← ahead.alike] at alike
  simp only
  rw [alike]
  cases scanned : scanBody header headResponse right.applications span with
  | malformed =>
      apply resync_ahead
      exact ahead.quiet rfl rfl ahead.alike ⟨rfl, rfl, rfl⟩
  | incomplete after rest =>
      rw [scanned] at frame
      have quiet : Ahead start front extra
          { right with applications := after.beside left.applications, peer := peer }
          { right with applications := after, peer := peer } :=
        ahead.quiet rfl rfl rfl frame
      simp only [BodyScan.beside]
      split_ifs
      · exact oversized_ahead quiet header rest
      · exact .leave quiet
  | complete after rest =>
      rw [scanned] at frame
      have quiet : Ahead start front extra
          { right with applications := after.beside left.applications, peer := peer }
          { right with applications := after, peer := peer } :=
        ahead.quiet rfl rfl rfl frame
      apply SameTurn.again
      exact quiet.more rfl rfl (record_http_beside header after left.applications)
        (record_http_recorded header _) (record_http_recorded header _)

/-- The same turn is taken by both. -/
theorem turn_ahead (ahead : left.Ahead start front extra right) :
    SameTurn (Ahead start front extra) (Ahead start front extra) left.turn right.turn := by
  have skipping : left.applications.httpSkip = right.applications.httpSkip := by
    rw [ahead.alike]
    rfl
  have untilClose : left.applications.httpBodyUntilClose = right.applications.httpBodyUntilClose := by
    rw [ahead.alike]
    rfl
  unfold turn
  rw [skipping, untilClose, ahead.input]
  split_ifs
  · exact skip_ahead ahead
  · exact .leave (ahead.quiet rfl ahead.peer ahead.alike ⟨rfl, rfl, rfl⟩)
  · cases front : httpFront right.input with
    | waiting => exact .leave ahead
    | malformed => exact resync_ahead ahead
    | message header span => exact message_ahead ahead header span

theorem read_ahead (ahead : left.Ahead start front extra right) :
    left.read.Ahead start front extra right.read := by
  unfold read
  rw [ahead.input]
  exact run_related (fun _ _ => turn_ahead) (fun _ _ => id) _ _ _ ahead

theorem feed_ahead (ahead : left.Ahead start front extra right) (pieces : List (List UInt8)) :
    (left.feed pieces).Ahead start front extra (right.feed pieces) := by
  induction pieces generalizing left right with
  | nil => exact ahead
  | cons piece pieces ih =>
      apply ih
      apply read_ahead
      exact ⟨by rw [grow, grow, ahead.input], ahead.peer, ahead.alike, ahead.recorded⟩

end Turns

end HttpReader

/-- A message whose body exceeds what is buffered, as it is sent. -/
structure OversizedMessage where
  head : List UInt8
  header : Http.Header
  body : List UInt8
  parsed : Http.parse head = .ok (header, [])
  fits : head.length ≤ maxHttpHeaderBytes
  sized : header.hasContentLength = true
  large : maxHttpMessageBytes < header.contentLength
  whole : body.length = header.contentLength

namespace OversizedMessage

variable (message : OversizedMessage)

def wire : List UInt8 := message.head ++ message.body

/-- A request, or a response with a body that no pending request stands against. -/
def Expected (peer : Applications) : Prop :=
  message.header.isRequest = true ∨ message.header.isResponse = true ∧
    message.header.bodyForbidden = false ∧ peer.pendingHeadRequests = []

theorem unchunked : message.header.chunked = false := by
  have exclusive := Http.parse_exclusive message.parsed
  rw [message.sized] at exclusive
  simpa using exclusive

theorem wire_length : message.wire.length = message.head.length + message.header.contentLength := by
  rw [wire, List.length_append, message.whole]

variable {message} {peer : Applications}

theorem Expected.pop (expected : message.Expected peer) :
    popHeadRequest message.header peer = (false, peer) := by
  unfold popHeadRequest
  rcases expected with request | ⟨-, -, none⟩
  · have noResponse : message.header.isResponse = false := by
      simp only [Http.Header.isRequest, decide_eq_true_eq] at request
      simp [Http.Header.isResponse, request]
    simp [noResponse]
  · simp [none]

theorem Expected.allowed (expected : message.Expected peer) :
    message.header.bodyForbidden = false := by
  rcases expected with request | ⟨-, allowed, -⟩
  · simp only [Http.Header.isRequest, decide_eq_true_eq] at request
    simp [Http.Header.bodyForbidden, request]
  · exact allowed

theorem Expected.scan (expected : message.Expected peer) (applications : Applications)
    (span : List UInt8) : scanBody message.header false applications span =
      if span.length < message.header.contentLength then .incomplete applications span
      else .complete applications (span.drop message.header.contentLength) := by
  unfold scanBody
  rw [expected.allowed, message.unchunked, message.sized]
  rfl

end OversizedMessage

namespace HttpReader

open OversizedMessage

/-- What is left of a body is skipped as it comes. -/
theorem read_skipping {reader : HttpReader} (skipping : 0 < reader.applications.httpSkip) :
    reader.read = if reader.input.length < reader.applications.httpSkip then { reader with
        input := []
        applications := { reader.applications with
          httpSkip := reader.applications.httpSkip - reader.input.length } }
      else ({ reader with
        input := reader.input.drop reader.applications.httpSkip
        applications := { reader.applications with httpSkip := 0 } } : HttpReader).read := by
  by_cases short : reader.input.length < reader.applications.httpSkip
  · rw [if_pos short]
    exact (read_leave (turn_skips short)).1
  · rw [if_neg short]
    exact (read_again (turn_skipped skipping (Nat.le_of_not_lt short))).1

theorem head_arrived {message : OversizedMessage} {reader : HttpReader} {missing : List UInt8}
    (rejoined : reader.input ++ missing = message.wire)
    (arrived : message.head.length ≤ reader.input.length) :
    ∃ span, reader.input = message.head ++ span ∧
      span.length + missing.length = message.header.contentLength := by
  obtain ⟨span, input⟩ : message.head <+: reader.input :=
    List.prefix_of_prefix_length_le (List.prefix_append _ _) ⟨missing, rejoined⟩ arrived
  refine ⟨span, input.symm, ?_⟩
  have size := congrArg List.length rejoined
  rw [message.wire_length, ← input, List.length_append, List.length_append] at size
  omega

section Phases

variable {message : OversizedMessage} {reader : HttpReader} (ready : reader.Ready)
  (expected : message.Expected reader.peer)

include ready expected

/-- The turn once the header has arrived. -/
theorem turn_oversized {span : List UInt8} (input : reader.input = message.head ++ span) :
    reader.turn = if span.length < message.header.contentLength then
        if reader.input.length > maxHttpMessageBytes then
          .again { reader with
            input := span
            applications := recordOversized message.header reader.applications }
        else .leave reader
      else .again { reader with
        input := span.drop message.header.contentLength
        applications := recordHttp message.header reader.applications } := by
  have front := http_front_header message.parsed message.fits span
  rw [turn_ready ready, input, front]
  simp only [HttpReader.message, expected.pop, expected.scan, input]
  by_cases short : span.length < message.header.contentLength
  · simp only [short, if_true, oversized_eq, message.sized, message.unchunked, Bool.not_false,
      Bool.and_self]
    rw [← input]
  · simp only [short, if_false]

/-- A message that has not arrived, as far as there is room for it, is waited for. -/
theorem read_awaits {missing : List UInt8} (rejoined : reader.input ++ missing = message.wire)
    (lacks : missing ≠ []) (small : reader.input.length ≤ maxHttpMessageBytes) :
    reader.read = reader := by
  have lacking : 0 < missing.length := List.length_pos_iff.mpr lacks
  apply run_leave turn_decreasing (Nat.lt_succ_self _)
  by_cases arrived : message.head.length ≤ reader.input.length
  · obtain ⟨span, input, size⟩ := head_arrived rejoined arrived
    rw [turn_oversized ready expected input, if_pos (by omega), if_neg (by omega)]
  · have beginning : reader.input <+: message.head :=
      List.prefix_of_prefix_length_le ⟨missing, rejoined⟩ (List.prefix_append _ _) (by omega)
    have waiting := http_front_cut message.parsed message.fits beginning
      fun same => arrived (by rw [same])
    rw [turn_ready ready, waiting]

/-- Where there is no room the message is recorded, and what has come of its body is skipped. -/
theorem read_skips {missing : List UInt8} (rejoined : reader.input ++ missing = message.wire)
    (lacks : missing ≠ []) (large : reader.input.length > maxHttpMessageBytes) :
    reader.read = { reader with
      input := []
      applications := { recordOversized message.header reader.applications with
        httpSkip := missing.length } } := by
  have lacking : 0 < missing.length := List.length_pos_iff.mpr lacks
  have fits := message.fits
  have limits : maxHttpHeaderBytes < maxHttpMessageBytes := by decide
  obtain ⟨span, input, size⟩ := head_arrived rejoined (by omega)
  have turned := turn_oversized ready expected input
  rw [if_pos (by omega), if_pos large] at turned
  have sized := message.large
  have skipping : 0 < (recordOversized message.header reader.applications).httpSkip := by
    simp only [recordOversized]
    omega
  have left : message.header.contentLength - span.length = missing.length := by omega
  have short : span.length < message.header.contentLength := by omega
  rw [(read_again turned).1, read_skipping skipping]
  simp only [recordOversized, short, if_true, left]

theorem read_whole {rest : List UInt8} (arrived : reader.input = message.wire ++ rest) :
    reader.read = ({ reader with
      input := rest
      applications := recordHttp message.header reader.applications } : HttpReader).read := by
  have input : reader.input = message.head ++ (message.body ++ rest) := by
    rw [arrived, wire, List.append_assoc]
  have turned := turn_oversized ready expected input
  rw [if_neg (by rw [List.length_append, message.whole]; omega), ← message.whole,
    List.drop_left] at turned
  exact (read_again turned).1

end Phases

/-- The reader that has met the message and has nothing of its bytes left. -/
def Passed (message : OversizedMessage) (reader done : HttpReader) : Prop :=
  done = { reader with
      input := []
      applications := recordHttp message.header reader.applications } ∨
    done = { reader with
      input := []
      applications := { recordOversized message.header reader.applications with httpSkip := 0 } }

theorem feed_skipping {reader : HttpReader} (drained : reader.input = [])
    (skipping : 0 < reader.applications.httpSkip) {pieces : List (List UInt8)}
    (enough : reader.applications.httpSkip ≤ pieces.flatten.length) :
    reader.feed pieces = ({ reader with
      applications := { reader.applications with httpSkip := 0 } } : HttpReader).feed
        (dropBytes reader.applications.httpSkip pieces) := by
  induction pieces generalizing reader with
  | nil =>
      rw [List.flatten_nil, List.length_nil] at enough
      omega
  | cons piece pieces ih =>
      have grown : reader.grow piece = { reader with input := piece } := by
        rw [grow, drained, List.nil_append]
      have fed : reader.feed (piece :: pieces) = (reader.grow piece).read.feed pieces := rfl
      rw [fed, grown, read_skipping (by exact skipping), dropBytes]
      simp only
      by_cases short : piece.length < reader.applications.httpSkip
      · rw [List.flatten_cons, List.length_append] at enough
        rw [if_pos short, if_pos short, ih rfl (by simp only; omega) (by simp only; omega), drained]
      · rw [if_neg short, if_neg short]
        simp only [feed, List.foldl_cons, grow, drained, List.nil_append]

/-- Feeding the message and more comes down to feeding what is behind it. -/
theorem feed_waiting {message : OversizedMessage} {reader : HttpReader} (ready : reader.Ready)
    (expected : message.Expected reader.peer) {missing rest : List UInt8}
    (rejoined : reader.input ++ missing = message.wire) (lacks : missing ≠ [])
    {pieces : List (List UInt8)} (arriving : pieces.flatten = missing ++ rest) :
    ∃ done, Passed message reader done ∧
      reader.feed pieces = done.feed (dropBytes missing.length pieces) := by
  induction pieces generalizing reader missing with
  | nil =>
      rw [List.flatten_nil] at arriving
      exact absurd (List.append_eq_nil_iff.mp arriving.symm).1 lacks
  | cons piece pieces ih =>
      rw [List.flatten_cons] at arriving
      have readyToo : (reader.grow piece).Ready := ready
      have expectedToo : message.Expected (reader.grow piece).peer := expected
      have fed : reader.feed (piece :: pieces) = (reader.grow piece).read.feed pieces := rfl
      rw [dropBytes, fed]
      by_cases short : piece.length < missing.length
      · obtain ⟨later, rfl⟩ : piece <+: missing :=
          List.prefix_of_prefix_length_le ⟨pieces.flatten, arriving⟩ ⟨rest, rfl⟩ short.le
        rw [List.append_assoc, List.append_cancel_left_eq] at arriving
        have rejoinedToo : (reader.grow piece).input ++ later = message.wire := by
          rw [grow, List.append_assoc, rejoined]
        have lacksToo : later ≠ [] := by
          rintro rfl
          simp at short
        have behind : (piece ++ later).length - piece.length = later.length := by simp
        rw [if_pos short, behind]
        by_cases large : (reader.grow piece).input.length > maxHttpMessageBytes
        · have skipping : 0 < later.length := List.length_pos_iff.mpr lacksToo
          have enough : later.length ≤ pieces.flatten.length := by
            rw [arriving, List.length_append]
            omega
          refine ⟨_, .inr rfl, ?_⟩
          rw [read_skips readyToo expectedToo rejoinedToo lacksToo large,
            feed_skipping rfl skipping enough]
          rfl
        · rw [read_awaits readyToo expectedToo rejoinedToo lacksToo (by omega)]
          exact ih readyToo expectedToo rejoinedToo lacksToo arriving
      · obtain ⟨span, rfl⟩ : missing <+: piece :=
          List.prefix_of_prefix_length_le ⟨rest, rfl⟩ ⟨pieces.flatten, arriving⟩ (by omega)
        have arrived : (reader.grow (missing ++ span)).input = message.wire ++ span := by
          rw [grow, ← List.append_assoc, rejoined]
        refine ⟨_, .inl rfl, ?_⟩
        rw [if_neg short, List.drop_left, read_whole readyToo expectedToo arrived]
        rfl

/-- Having met the message is being ahead by it. -/
theorem Passed.ahead {message : OversizedMessage} {reader done : HttpReader}
    (passed : Passed message reader done) (drained : reader.input = [])
    (noSkip : reader.applications.httpSkip = 0) :
    ∃ extra, extra ≤ 1 ∧ done.Ahead reader.applications [message.header] extra reader := by
  have alike := record_http_rest message.header reader.applications
  have nothing : Recorded [] 0 reader.applications reader.applications := .same ⟨rfl, rfl, rfl⟩
  rcases passed with rfl | rfl
  · exact ⟨0, by omega, drained.symm, rfl, alike, [], 0,
      record_http_recorded message.header reader.applications, nothing⟩
  · have recorded := record_oversized_recorded message.header reader.applications
    refine ⟨1, le_refl 1, drained.symm, rfl, ?_, [], 0,
      ⟨recorded.messages, recorded.pending, recorded.skipped⟩, nothing⟩
    simp only [recordOversized]
    rw [alike]
    simp only [Applications.beside, ← noSkip]

end HttpReader

/-- Nothing of an earlier message is left. -/
structure BetweenMessages (poll : StreamPoll) : Prop where
  drained : poll.stream.peek = []
  noSkip : poll.applications.httpSkip = 0
  framed : poll.applications.httpBodyUntilClose = false
  noChunks : poll.applications.httpChunkPrefix = 0
  noSearch : poll.applications.httpResyncScanned = 0

/-- What `last` tells of the stream is what `alone` tells, behind the header: it has that many
messages and requests more, has counted one more body as skipped or none, and does not differ
in anything else. -/
structure FollowsHeader (header : Http.Header) (start last alone : StreamPoll) : Prop where
  recorded : ∃ new skipped extra, extra ≤ 1 ∧
    Recorded (header :: new) (extra + skipped) start.applications last.applications ∧
    Recorded new skipped start.applications alone.applications
  alike : last.applications = alone.applications.beside last.applications
  failures : last.applications.decodeFailures = alone.applications.decodeFailures
  unread : last.stream.peek = alone.stream.peek
  peer : last.peer = alone.peer

/-- However a message with an oversized body is cut and polled, it is recorded once, exactly its
bytes are discarded and what is behind it is decoded as if it were alone. -/
theorem oversized_body_is_passed_over {key : FlowKey} (http : key.isHttp = true)
    (notDns : key.isDns = false) {start last : StreamPoll} (between : BetweenMessages start)
    (message : OversizedMessage) (expected : message.Expected start.peer)
    {pieces : List (List UInt8)} {rest : List UInt8}
    (arriving : pieces.flatten = message.wire ++ rest)
    (small : rest.length ≤ maxHttpMessageBytes) (fed : Fed key pieces start last) :
    (∀ alone, Fed key (dropBytes message.wire.length pieces) start alone →
      FollowsHeader message.header start last alone) ∧
    (start.peer.pendingHeadRequests = [] → ∀ others alone, others.flatten = rest →
      Fed key others start alone → FollowsHeader message.header start last alone) := by
  have ready : start.view.Ready := ⟨between.noSkip, between.framed⟩
  have drained : start.view.input = [] := between.drained
  have whole : start.view.input ++ message.wire = message.wire := by
    rw [drained, List.nil_append]
  have lacks : message.wire ≠ [] := by
    intro none
    have length := message.wire_length
    have large := message.large
    rw [none, List.length_nil] at length
    omega
  obtain ⟨done, passed, behind⟩ :=
    HttpReader.feed_waiting ready expected whole lacks arriving
  obtain ⟨extra, once, ahead⟩ := passed.ahead drained between.noSkip
  have follows : ∀ alone, alone.view = start.view.feed (dropBytes message.wire.length pieces) →
      FollowsHeader message.header start last alone := by
    intro alone viewed
    have later := HttpReader.feed_ahead ahead (dropBytes message.wire.length pieces)
    rw [← behind, ← fed_viewed http notDns fed, ← viewed] at later
    obtain ⟨new, skipped, ours, theirs⟩ := later.recorded
    have alike : last.applications = alone.applications.beside last.applications := later.alike
    have failures : last.applications.decodeFailures = alone.applications.decodeFailures := by
      rw [alike]
      rfl
    exact ⟨⟨new, skipped, extra, once, ours, theirs⟩, alike, failures, later.input, later.peer⟩
  constructor
  · intro alone fedAlone
    exact follows alone (fed_viewed http notDns fedAlone)
  · intro none others alone joined fedAlone
    have steady : start.view.Steady := ⟨.nothing between.noChunks between.noSearch, none⟩
    have rests : start.view.read = start.view := HttpReader.read_drained drained
    have room : (start.view.grow rest).input.length ≤ maxHttpMessageBytes := by
      simp only [HttpReader.grow, drained, List.nil_append]
      exact small
    have dropped : (dropBytes message.wire.length pieces).flatten = rest := by
      rw [drop_bytes_flatten, arriving, List.drop_left]
    apply follows
    rw [fed_viewed http notDns fedAlone, HttpReader.feed_flatten steady rests others
      (by rwa [joined]), HttpReader.feed_flatten steady rests _ (by rwa [dropped]), joined, dropped]

/-- The header of a request that announces a body one byte too large to wait for. -/
def oversizedHead : List UInt8 :=
  text ['P', 'U', 'T', ' ', '/', ' '] ++ Http.http11 ++ Http.crlf ++ Http.contentLength ++
    text [':', '8', '3', '8', '8', '6', '0', '9'] ++ Http.crlf ++ Http.crlf

def oversizedHeader : Http.Header :=
  { type := .request
    method := text ['P', 'U', 'T']
    target := text ['/']
    version := Http.http11
    fields := [{ name := Http.contentLength, value := text ['8', '3', '8', '8', '6', '0', '9'] }]
    hasContentLength := true
    contentLength := 8388609 }

def oversizedRequest : OversizedMessage where
  head := oversizedHead
  header := oversizedHeader
  body := List.replicate 8388609 0
  parsed := by decide +kernel
  fits := by decide
  sized := rfl
  large := by decide
  whole := List.length_replicate

/-- The request with all but nine bytes of its body, and those with a second request. -/
def oversizedPieces : List (List UInt8) :=
  [oversizedHead ++ List.replicate 8388600 0, List.replicate 9 0 ++ getRequest]

theorem oversized_body_is_passed_over_pieces :
    FollowsHeader oversizedHeader httpStream
        (feedAll { dstPort := 80 } httpStream oversizedPieces)
        (feedAll { dstPort := 80 } httpStream [getRequest]) ∧
      (feedAll { dstPort := 80 } httpStream [getRequest]).applications.httpMessages.length = 1 := by
  have inOrder : InOrder httpStream.stream := ⟨rfl, rfl, by decide, by decide⟩
  have body : List.replicate 8388600 (0 : UInt8) ++ List.replicate 9 0 =
      List.replicate 8388609 0 := List.replicate_append_replicate
  have arriving : oversizedPieces.flatten = oversizedRequest.wire ++ getRequest := by
    simp only [oversizedPieces, OversizedMessage.wire, oversizedRequest, ← body,
      List.flatten_cons, List.flatten_nil, List.append_assoc, List.append_nil]
  have passed := oversized_body_is_passed_over (by decide) (by decide) ⟨rfl, rfl, rfl, rfl, rfl⟩
    oversizedRequest (.inl rfl) arriving (by decide)
    (feed_all_fed { dstPort := 80 } httpStream oversizedPieces inOrder)
  exact ⟨passed.2 rfl [getRequest] _ (List.append_nil _)
    (feed_all_fed { dstPort := 80 } httpStream [getRequest] inOrder), by decide +kernel⟩

end PcapAnalyzer
