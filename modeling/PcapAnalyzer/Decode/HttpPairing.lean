import PcapAnalyzer.Decode.HttpFlow
import PcapAnalyzer.Decode.HttpGrowth

/-!
# Responses and their requests

A final response takes the oldest entry of the other direction's pending list, which tells
whether it answers a HEAD request and so has no body. The entry is taken whenever the header
is parsed, complete or not: the pairing is right as long as no poll finds a final response
whose body has not arrived, unless it is so large that it is recorded without it.
-/

namespace PcapAnalyzer

open AppDecoder MeasuredLoop

set_option autoImplicit false

def Http.Header.asksHead (header : Http.Header) : Bool :=
  header.method = text ['H', 'E', 'A', 'D']

/-- The header of a final response, as it is sent. One beyond the limit is never read. -/
structure ResponseHead where
  head : List UInt8
  header : Http.Header
  parsed : Http.parse head = .ok (header, [])
  fits : head.length ≤ maxHttpHeaderBytes
  response : header.isResponse = true
  final : header.statusCode ≥ 200

/-- The body is the one the header announces in the response to a HEAD or another request. -/
def Framed (header : Http.Header) (isHead : Bool) (body : List UInt8) : Prop :=
  if header.bodyForbidden || isHead then body = []
  else if header.chunked then
    (Http.parseChunkedBody body).err = .none ∧ (Http.parseChunkedBody body).span = []
  else header.hasContentLength = true ∧ body.length = header.contentLength

/-- Only the end of the connection ends the body. -/
def Unframed (header : Http.Header) : Prop :=
  header.bodyForbidden = false ∧ header.chunked = false ∧ header.hasContentLength = false

structure WireResponse extends ResponseHead where
  isHead : Bool
  body : List UInt8
  framed : Framed header isHead body

def WireResponse.wire (response : WireResponse) : List UInt8 := response.head ++ response.body

/-- More of the response has arrived than is kept: it is recorded without the rest of its body. -/
def WireResponse.Oversized (response : WireResponse) (start : List UInt8) : Prop :=
  maxHttpMessageBytes < start.length ∧ response.header.chunked = false

/-- What is awaited behind the recorded responses: one of which `unread` has arrived, `skip` bytes
of a body before it, or the end of the connection. -/
structure Awaited where
  unread : List UInt8 := []
  skip : Nat := 0
  closing : Bool := false

def Awaited.grow (awaited : Awaited) (piece : List UInt8) : Awaited :=
  { awaited with unread := awaited.unread ++ piece }

/-- The bytes are responses, one for each of the first `heads`, which tell whether their requests
ask for the head only, and the beginning of another one. The last of them may be oversized or
last until the connection is closed. -/
inductive Segmented (allowed : WireResponse → List UInt8 → Prop) :
    List Bool → List UInt8 → List (Http.Header × Bool) → Awaited → Prop where
  | done {heads : List Bool} : Segmented allowed heads [] [] {}
  | inside {heads : List Bool} {response : WireResponse} {start : List UInt8}
      (beginning : start <+: response.wire) (proper : start ≠ response.wire)
      (kept : ¬ response.Oversized start) (permitted : allowed response start) :
      Segmented allowed (response.isHead :: heads) start [] { unread := start }
  | oversized {heads : List Bool} {response : WireResponse} {start missing : List UInt8}
      (whole : start ++ missing = response.wire) (proper : missing ≠ [])
      (large : response.Oversized start) :
      Segmented allowed (response.isHead :: heads) start [(response.header, response.isHead)]
        { skip := missing.length }
  | opens {heads : List Bool} {last : ResponseHead} {start : List UInt8}
      (unframed : Unframed last.header) (beginning : start <+: last.head)
      (proper : start ≠ last.head) :
      Segmented allowed (false :: heads) start [] { unread := start }
  | closes {heads : List Bool} {last : ResponseHead} (unframed : Unframed last.header)
      (body : List UInt8) :
      Segmented allowed (false :: heads) (last.head ++ body) [(last.header, false)]
        { closing := true }
  | next {heads : List Bool} {response : WireResponse} {input : List UInt8}
      {now : List (Http.Header × Bool)} {awaited : Awaited}
      (later : Segmented allowed heads input now awaited) :
      Segmented allowed (response.isHead :: heads) (response.wire ++ input)
        ((response.header, response.isHead) :: now) awaited

/-- What has arrived of the response ends inside its header. -/
def CutInHeader (response : WireResponse) (start : List UInt8) : Prop :=
  start.length < response.head.length

/-- The final response that a turn of the loop records, and its `head_response`. -/
def answer (full : List UInt8) (peer before after : Applications) :
    Option (Http.Header × Bool) :=
  match parseFront full with
  | .error _ => none
  | .ok (header, _) =>
      if header.isResponse && header.statusCode ≥ 200 &&
          after.httpMessages = before.httpMessages ++ [header] then
        some (header, (popHeadRequest header peer).1)
      else none

/-- The final responses a poll records. -/
def answers (key : FlowKey) (poll : StreamPoll) : List (Http.Header × Bool) :=
  (httpTurns key poll).filterMap fun poll =>
    answer poll.stream.peek poll.peer poll.applications (httpTurn poll).state.applications

section Wire

variable (response : ResponseHead)

/-- A complete header is read, whatever follows it. -/
theorem ResponseHead.http_front (more : List UInt8) :
    httpFront (response.head ++ more) = .message response.header more :=
  http_front_header response.parsed response.fits more

/-- A header that is cut is waited for. -/
theorem ResponseHead.http_front_cut {start : List UInt8} (beginning : start <+: response.head)
    (proper : start ≠ response.head) : httpFront start = .waiting :=
  PcapAnalyzer.http_front_cut response.parsed response.fits beginning proper

/-- The body is taken off as the header announces it. -/
theorem Framed.scan {header : Http.Header} {isHead : Bool} {body : List UInt8}
    (framed : Framed header isHead body) {applications : Applications}
    (noChunks : applications.httpChunkPrefix = 0) (more : List UInt8) :
    scanBody header isHead applications (body ++ more) = .complete applications more := by
  have whole : scanBody header isHead applications body = .complete applications [] := by
    unfold Framed at framed
    unfold scanBody
    by_cases bodyless : (header.bodyForbidden || isHead) = true
    · rw [if_pos bodyless] at framed ⊢
      rw [framed]
    rw [if_neg bodyless] at framed ⊢
    by_cases chunked : header.chunked = true
    · rw [if_pos chunked] at framed ⊢
      unfold scanChunkedBody
      simp only [noChunks, List.drop_zero, framed.1, framed.2, reduceCtorEq, if_false, ne_eq,
        not_true_eq_false]
      rw [← noChunks]
    · rw [if_neg chunked] at framed ⊢
      rw [if_pos framed.1, if_neg (by omega), ← framed.2, List.drop_length]
  exact scan_body_complete_append (by rw [noChunks]; exact Nat.zero_le _) whole more

theorem Unframed.scan {header : Http.Header} (unframed : Unframed header)
    (response : header.isResponse = true) (applications : Applications) (body : List UInt8) :
    scanBody header false applications body =
      .complete { applications with httpBodyUntilClose := true } body := by
  unfold scanBody
  rw [unframed.1, unframed.2.1, unframed.2.2, response]
  rfl

end Wire

namespace HttpReader

variable {reader : HttpReader}

def answered (reader : HttpReader) : Option (Http.Header × Bool) :=
  answer reader.input reader.peer reader.applications reader.turn.state.applications

def answers (reader : HttpReader) : List (Http.Header × Bool) :=
  (visited turn (reader.input.length + 1) reader).filterMap answered

theorem read_again {next : HttpReader} (pass : reader.turn = .again next) :
    reader.read = next.read ∧ reader.answers = reader.answered.toList ++ next.answers := by
  refine ⟨run_again turn_decreasing (Nat.lt_succ_self _) pass, ?_⟩
  unfold answers
  rw [visited_again turn_decreasing (Nat.lt_succ_self _) pass, List.filterMap_cons]
  cases reader.answered <;> rfl

theorem read_leave {result : HttpReader} (pass : reader.turn = .leave result) :
    reader.read = result ∧ reader.answers = reader.answered.toList := by
  refine ⟨run_leave turn_decreasing (Nat.lt_succ_self _) pass, ?_⟩
  unfold answers
  rw [visited_leave pass, List.filterMap_cons]
  cases reader.answered <;> rfl

theorem pop_final {header : Http.Header} (response : header.isResponse = true)
    (final : header.statusCode ≥ 200) {isHead : Bool} {heads : List Bool} {peer : Applications}
    (pending : peer.pendingHeadRequests = isHead :: heads) :
    popHeadRequest header peer = (isHead, { peer with pendingHeadRequests := heads }) := by
  unfold popHeadRequest
  rw [response, decide_eq_true final, pending]
  rfl

theorem record_response {header : Http.Header} (response : header.isResponse = true)
    (applications : Applications) :
    recordHttp header applications =
      { applications with httpMessages := applications.httpMessages ++ [header] } := by
  have noRequest : header.isRequest = false := by
    simp only [Http.Header.isResponse, decide_eq_true_eq] at response
    simp [Http.Header.isRequest, response]
  simp [recordHttp, pushHeadRequest, noRequest]

/-- A complete response at the front is recorded for the request that has waited longest. -/
theorem turn_final {response : ResponseHead} {isHead : Bool} {heads : List Bool}
    {span rest : List UInt8} {after : Applications} (ready : reader.Ready)
    (input : reader.input = response.head ++ span)
    (pending : reader.peer.pendingHeadRequests = isHead :: heads)
    (scanned : scanBody response.header isHead reader.applications span = .complete after rest)
    (kept : after.httpMessages = reader.applications.httpMessages) :
    reader.turn = .again {
        input := rest
        applications := { after with httpMessages := after.httpMessages ++ [response.header] }
        peer := { reader.peer with pendingHeadRequests := heads } } ∧
      reader.answered = some (response.header, isHead) := by
  have popped := pop_final response.response response.final pending
  have turned : reader.turn = .again {
        input := rest
        applications := { after with httpMessages := after.httpMessages ++ [response.header] }
        peer := { reader.peer with pendingHeadRequests := heads } } := by
    rw [turn_ready ready, input, response.http_front]
    simp only [message, popped, scanned, record_response response.response]
  refine ⟨turned, ?_⟩
  have front := http_front_message.mp (response.http_front span)
  rw [answered, answer, input, front, turned]
  simp [Turn.state, response.response, response.final, kept, popped]

/-- The next message starts behind the bytes to skip, or never. -/
def Awaits (reader : HttpReader) (awaited : Awaited) : Prop :=
  if awaited.closing then
    reader.applications.httpSkip = 0 ∧ reader.applications.httpBodyUntilClose = true
  else
    reader.applications.httpSkip = awaited.skip ∧
      reader.applications.httpBodyUntilClose = false ∧
      reader.applications.httpChunkPrefix = 0 ∧ reader.input = awaited.unread

/-- More bytes stand behind those that have arrived. -/
theorem Awaits.grow {awaited : Awaited}
    (awaits : reader.Awaits awaited) (piece : List UInt8) :
    ({ reader with input := reader.input ++ piece } : HttpReader).Awaits (awaited.grow piece) := by
  have closes : (awaited.grow piece).closing = awaited.closing := rfl
  unfold Awaits at awaits ⊢
  rw [closes]
  by_cases closing : awaited.closing = true
  · rw [if_pos closing] at awaits ⊢
    exact awaits
  · rw [if_neg closing] at awaits ⊢
    obtain ⟨skip, noDrain, noChunks, input⟩ := awaits
    exact ⟨skip, noDrain, noChunks, congrArg (· ++ piece) input⟩

theorem Awaits.last {awaited : Awaited}
    (awaits : reader.Awaits awaited) (lasts : awaited.closing = false) :
    reader.applications.httpSkip = awaited.skip ∧
      reader.applications.httpBodyUntilClose = false ∧
      reader.applications.httpChunkPrefix = 0 ∧ reader.input = awaited.unread := by
  rwa [Awaits, lasts, if_neg Bool.false_ne_true] at awaits

/-- What a poll does with responses of which none is cut inside its body. -/
structure Answers (reader : HttpReader) (now : List (Http.Header × Bool)) (awaited : Awaited) :
    Prop where
  answers : reader.answers = now
  recorded : reader.read.applications.httpMessages =
    reader.applications.httpMessages ++ now.map Prod.fst
  pending : reader.peer.pendingHeadRequests =
    now.map Prod.snd ++ reader.read.peer.pendingHeadRequests
  requests : reader.read.peer.httpMessages = reader.peer.httpMessages
  awaits : reader.read.Awaits awaited

/-- A turn that records nothing answers nothing. -/
theorem answered_none
    (same : reader.turn.state.applications.httpMessages = reader.applications.httpMessages) :
    reader.answered = none := by
  rw [HttpReader.answered, answer]
  split
  · rfl
  · simp [same]

/-- A poll that ends with its first turn and records nothing. -/
theorem Answers.leave {result : HttpReader} {awaited : Awaited}
    (turned : reader.turn = .leave result)
    (messages : result.applications.httpMessages = reader.applications.httpMessages)
    (peer : result.peer = reader.peer) (awaits : result.Awaits awaited) :
    Answers reader [] awaited := by
  obtain ⟨read, answered⟩ := read_leave turned
  rw [answered_none (by rw [turned]; exact messages), Option.toList_none] at answered
  exact {
    answers := answered
    recorded := by rw [read, messages, List.map_nil, List.append_nil]
    pending := by rw [read, peer, List.map_nil, List.nil_append]
    requests := by rw [read, peer]
    awaits := by rwa [read] }

/-- A turn that records nothing comes before the others. -/
theorem Answers.again {next : HttpReader} {now : List (Http.Header × Bool)} {awaited : Awaited}
    (turned : reader.turn = .again next)
    (messages : next.applications.httpMessages = reader.applications.httpMessages)
    (peer : next.peer = reader.peer) (later : Answers next now awaited) :
    Answers reader now awaited := by
  obtain ⟨read, answered⟩ := read_again turned
  rw [answered_none (by rw [turned]; exact messages), Option.toList_none, List.nil_append]
    at answered
  exact {
    answers := answered.trans later.answers
    recorded := by rw [read, later.recorded, messages]
    pending := by rw [read, ← peer, later.pending]
    requests := by rw [read, later.requests, peer]
    awaits := by
      rw [read]
      exact later.awaits }

/-- A turn that records a response comes before the others. -/
theorem Answers.next {next : HttpReader} {header : Http.Header} {isHead : Bool}
    {now : List (Http.Header × Bool)} {awaited : Awaited} (turned : reader.turn = .again next)
    (answered : reader.answered = some (header, isHead))
    (messages : next.applications.httpMessages = reader.applications.httpMessages ++ [header])
    (requests : next.peer.httpMessages = reader.peer.httpMessages)
    (pending : reader.peer.pendingHeadRequests = isHead :: next.peer.pendingHeadRequests)
    (later : Answers next now awaited) : Answers reader ((header, isHead) :: now) awaited := by
  obtain ⟨read, answers⟩ := read_again turned
  rw [answered] at answers
  exact {
    answers := by rw [answers, later.answers]; rfl
    recorded := by rw [read, later.recorded, messages, List.append_assoc]; rfl
    pending := by rw [read, pending, later.pending]; rfl
    requests := by rw [read, later.requests, requests]
    awaits := by
      rw [read]
      exact later.awaits }

theorem answers_waiting (ready : reader.Ready)
    (noChunks : reader.applications.httpChunkPrefix = 0)
    (waiting : httpFront reader.input = .waiting) :
    Answers reader [] { unread := reader.input } := by
  have turned : reader.turn = .leave reader := by
    rw [turn_ready ready, waiting]
  exact .leave turned rfl rfl ⟨ready.1, ready.2, noChunks, rfl⟩

/-- A response that is cut in its header is waited for. -/
theorem answers_cut (response : ResponseHead) {start : List UInt8}
    (beginning : start <+: response.head) (proper : start ≠ response.head)
    (ready : reader.Ready) (noChunks : reader.applications.httpChunkPrefix = 0)
    (holds : reader.input = start) : Answers reader [] { unread := start } := by
  subst holds
  exact answers_waiting ready noChunks (response.http_front_cut beginning proper)

theorem answers_drained {awaited : Awaited} (closing : awaited.closing = true)
    (noSkip : reader.applications.httpSkip = 0)
    (untilClose : reader.applications.httpBodyUntilClose = true) : Answers reader [] awaited := by
  refine .leave (turn_drains noSkip untilClose) rfl rfl ?_
  rw [Awaits, if_pos closing]
  exact ⟨noSkip, untilClose⟩

/-- All that has arrived is skipped. -/
theorem answers_skipped (missing : reader.input.length < reader.applications.httpSkip)
    (noDrain : reader.applications.httpBodyUntilClose = false)
    (noChunks : reader.applications.httpChunkPrefix = 0) :
    Answers reader [] { skip := reader.applications.httpSkip - reader.input.length } := by
  exact .leave (turn_skips missing) rfl rfl ⟨rfl, noDrain, noChunks, rfl⟩

/-- An oversized response is recorded, and what has arrived of its body skipped. -/
theorem answers_oversized {response : WireResponse} {heads : List Bool} {missing : List UInt8}
    (whole : reader.input ++ missing = response.wire) (proper : missing ≠ [])
    (large : response.Oversized reader.input) (ready : reader.Ready)
    (noChunks : reader.applications.httpChunkPrefix = 0)
    (pending : reader.peer.pendingHeadRequests = response.isHead :: heads) :
    Answers reader [(response.header, response.isHead)] { skip := missing.length } := by
  have fits := response.fits
  have limits : maxHttpHeaderBytes < maxHttpMessageBytes := by decide
  have long := large.1
  obtain ⟨span, input⟩ : response.head <+: reader.input :=
    List.prefix_of_prefix_length_le (List.prefix_append _ _) ⟨missing, whole⟩ (by omega)
  rw [WireResponse.wire, ← input, List.append_assoc] at whole
  have body := List.append_cancel_left whole
  have lacks : 0 < missing.length := List.length_pos_iff.mpr proper
  have framed := response.framed
  have bodied : ¬ (response.header.bodyForbidden || response.isHead) = true := by
    intro bodyless
    rw [Framed, if_pos bodyless, ← body] at framed
    exact proper (List.append_eq_nil_iff.mp framed).2
  rw [Framed, if_neg bodied, large.2, if_neg Bool.false_ne_true, ← body, List.length_append]
    at framed
  have scanned : scanBody response.header response.isHead reader.applications span =
      .incomplete reader.applications span := by
    unfold scanBody
    rw [if_neg bodied, large.2, framed.1, if_neg Bool.false_ne_true, if_pos rfl,
      if_pos (by omega)]
  have popped := pop_final response.response response.final pending
  have recorded := record_response response.response reader.applications
  have turned : reader.turn = .again {
      input := span
      applications := { reader.applications with
        httpMessages := reader.applications.httpMessages ++ [response.header]
        httpSkip := response.header.contentLength
        httpBodiesSkipped := reader.applications.httpBodiesSkipped + 1 }
      peer := { reader.peer with pendingHeadRequests := heads } } := by
    rw [turn_ready ready, ← input, response.http_front]
    simp only [message, popped, scanned]
    rw [if_pos large.1, oversized, framed.1, large.2, recorded]
    rfl
  have front := http_front_message.mp (response.http_front span)
  have answered : reader.answered = some (response.header, response.isHead) := by
    rw [answered, answer, ← input, front, turned]
    simp [Turn.state, response.response, response.final, popped]
  have skipped : response.header.contentLength - span.length = missing.length := by omega
  rw [← skipped]
  exact .next turned answered rfl rfl pending
    (answers_skipped (by simp only; omega) ready.2 noChunks)

theorem answers_segmented {heads : List Bool} {input : List UInt8}
    {now : List (Http.Header × Bool)} {awaited : Awaited}
    (segmented : Segmented CutInHeader heads input now awaited) (ready : reader.Ready)
    (noChunks : reader.applications.httpChunkPrefix = 0) (holds : reader.input = input)
    (pending : reader.peer.pendingHeadRequests = heads) : Answers reader now awaited := by
  induction segmented generalizing reader with
  | done =>
      have waiting : httpFront reader.input = .waiting := by
        rw [holds]
        rfl
      have left := answers_waiting ready noChunks waiting
      rwa [holds] at left
  | @inside heads response start beginning proper kept short =>
      have cut : start <+: response.head :=
        List.prefix_of_prefix_length_le beginning (List.prefix_append _ _) (Nat.le_of_lt short)
      have unfinished : start ≠ response.head := by
        rintro rfl
        exact Nat.lt_irrefl _ short
      exact answers_cut response.toResponseHead cut unfinished ready noChunks holds
  | oversized whole proper large =>
      subst holds
      exact answers_oversized whole proper large ready noChunks pending
  | @opens heads last start _ beginning proper =>
      exact answers_cut last beginning proper ready noChunks holds
  | @closes heads last unframed body =>
      obtain ⟨turned, answered⟩ := turn_final ready holds pending
        (unframed.scan last.response reader.applications body) rfl
      exact .next turned answered rfl rfl pending (answers_drained rfl ready.1 rfl)
  | @next heads response input now awaited later ih =>
      rw [WireResponse.wire, List.append_assoc] at holds
      obtain ⟨turned, answered⟩ := turn_final ready holds pending
        (response.framed.scan noChunks input) rfl
      exact .next turned answered rfl rfl pending (ih ready noChunks rfl rfl)

/-- What is left of a body is skipped before the next response is looked for. -/
theorem answers_behind {heads : List Bool} {now : List (Http.Header × Bool)} {awaited : Awaited}
    (arrived : reader.applications.httpSkip ≤ reader.input.length)
    (segmented : Segmented CutInHeader heads (reader.input.drop reader.applications.httpSkip) now
      awaited)
    (noDrain : reader.applications.httpBodyUntilClose = false)
    (noChunks : reader.applications.httpChunkPrefix = 0)
    (pending : reader.peer.pendingHeadRequests = heads) : Answers reader now awaited := by
  by_cases noSkip : reader.applications.httpSkip = 0
  · rw [noSkip, List.drop_zero] at segmented
    exact answers_segmented segmented ⟨noSkip, noDrain⟩ noChunks rfl pending
  · have turned : reader.turn = .again {
        reader with
        input := reader.input.drop reader.applications.httpSkip
        applications := { reader.applications with httpSkip := 0 } } := by
      rw [turn, if_pos (by omega), skip, Nat.sub_eq_zero_of_le arrived]
      rfl
    exact .again turned rfl rfl
      (answers_segmented segmented ⟨rfl, noDrain⟩ noChunks rfl pending)

/-- The requests among the messages that are recorded are pushed, as long as there is room. -/
def Pushes (before after : HttpReader) : Prop :=
  ∃ new : List Http.Header,
    after.applications.httpMessages = before.applications.httpMessages ++ new ∧
    (before.applications.pendingHeadRequests.length +
        (new.filter Http.Header.isRequest).length ≤ maxPendingRequests →
      after.applications.pendingHeadRequests = before.applications.pendingHeadRequests ++
        (new.filter Http.Header.isRequest).map Http.Header.asksHead)

theorem Pushes.same {before after : HttpReader}
    (messages : after.applications.httpMessages = before.applications.httpMessages)
    (pending : after.applications.pendingHeadRequests = before.applications.pendingHeadRequests) :
    before.Pushes after :=
  ⟨[], by rw [messages, List.append_nil], fun _ => by simp [pending]⟩

theorem Pushes.trans (first second third : HttpReader) (earlier : first.Pushes second)
    (later : second.Pushes third) : first.Pushes third := by
  obtain ⟨new, messages, pushed⟩ := earlier
  obtain ⟨more, messages', pushed'⟩ := later
  refine ⟨new ++ more, by rw [messages', messages, List.append_assoc], ?_⟩
  intro room
  simp only [List.filter_append, List.length_append, List.map_append] at room ⊢
  have before := pushed (by omega)
  rw [pushed' (by rw [before, List.length_append, List.length_map]; omega), before,
    List.append_assoc]

theorem record_http_messages (header : Http.Header) (applications : Applications) :
    (recordHttp header applications).httpMessages = applications.httpMessages ++ [header] := by
  unfold recordHttp pushHeadRequest
  simp only
  split_ifs <;> rfl

/-- A request is queued as long as there is room. -/
theorem record_http_pending (header : Http.Header) (applications : Applications)
    (room : applications.pendingHeadRequests.length +
      ([header].filter Http.Header.isRequest).length ≤ maxPendingRequests) :
    (recordHttp header applications).pendingHeadRequests = applications.pendingHeadRequests ++
      ([header].filter Http.Header.isRequest).map Http.Header.asksHead := by
  unfold recordHttp pushHeadRequest
  cases request : header.isRequest with
  | false => simp [request]
  | true =>
      have free : applications.pendingHeadRequests.length < maxPendingRequests := by
        simp only [List.filter_cons, request, if_true, List.filter_nil, List.length_singleton]
          at room
        omega
      simp [request, free, Http.Header.asksHead]

theorem record_pushes {header : Http.Header} {after : HttpReader} {applications : Applications}
    (messages : applications.httpMessages = reader.applications.httpMessages)
    (pending : applications.pendingHeadRequests = reader.applications.pendingHeadRequests)
    (recorded : after.applications.httpMessages = (recordHttp header applications).httpMessages)
    (pushed : after.applications.pendingHeadRequests =
      (recordHttp header applications).pendingHeadRequests) : reader.Pushes after := by
  refine ⟨[header], ?_, ?_⟩
  · rw [recorded, record_http_messages, messages]
  · intro room
    rw [← pending] at room
    rw [pushed, record_http_pending header applications room, pending]

theorem resync_pushes (reader : HttpReader) : reader.Pushes reader.resync.state := by
  unfold resync
  simp only
  split
  · exact .same rfl rfl
  · split_ifs <;> exact .same rfl rfl

/-- A scan changes nothing but what is said of the body. -/
theorem scan_body_frame {header : Http.Header} {headResponse : Bool}
    {applications : Applications} {span : List UInt8} :
    match scanBody header headResponse applications span with
    | .malformed => True
    | .incomplete after _ | .complete after _ =>
        after.httpMessages = applications.httpMessages ∧
          after.pendingHeadRequests = applications.pendingHeadRequests := by
  unfold scanBody scanChunkedBody
  simp only
  split_ifs <;> trivial

theorem message_pushes (reader : HttpReader) (header : Http.Header) (span : List UInt8) :
    reader.Pushes (reader.message header span).state := by
  unfold message
  rcases popHeadRequest header reader.peer with ⟨headResponse, peer⟩
  have frame := @scan_body_frame header headResponse reader.applications span
  simp only
  cases scanned : scanBody header headResponse reader.applications span with
  | malformed => exact resync_pushes { reader with peer := peer }
  | incomplete after rest =>
      rw [scanned] at frame
      simp only
      split_ifs
      · unfold oversized
        split_ifs
        · exact record_pushes frame.1 frame.2 rfl rfl
        · have left : reader.Pushes { reader with peer := peer, applications := after } :=
            .same frame.1 frame.2
          exact left.trans _ _ _ (resync_pushes _)
      · exact .same frame.1 frame.2
  | complete after rest =>
      rw [scanned] at frame
      exact record_pushes frame.1 frame.2 rfl rfl

theorem turn_pushes (reader : HttpReader) : reader.Pushes reader.turn.state := by
  unfold turn
  split_ifs
  · rw [skip_state]
    exact .same rfl rfl
  · exact .same rfl rfl
  · split
    · exact .same rfl rfl
    · exact resync_pushes reader
    · exact message_pushes reader _ _

theorem read_pushes (reader : HttpReader) : reader.Pushes reader.read :=
  run_composes (fun _ => .same rfl rfl) Pushes.trans turn_pushes _ reader

end HttpReader

end PcapAnalyzer
