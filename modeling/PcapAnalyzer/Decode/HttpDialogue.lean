import PcapAnalyzer.Decode.HttpPairing

/-!
# Requests and responses on a connection

The client direction carries any bytes, the other one final responses. The segments of both
are interleaved, and the flow is polled after each of them.
-/

namespace PcapAnalyzer

open AppDecoder MeasuredLoop

set_option autoImplicit false

/-- A poll of one direction: the list of pending requests of the client before and after it, and
the final responses it has recorded. -/
structure PairingPoll where
  isReverse : Bool
  before : List Bool
  recorded : List (Http.Header × Bool)
  after : List Bool
  deriving DecidableEq

/-- The flow with the responses that have arrived, what is awaited behind them, and what the polls
have done. -/
structure Dialogue where
  poll : FlowPoll
  sent : List (Http.Header × Bool) := []
  awaited : Awaited := {}
  polls : List PairingPoll := []

namespace Dialogue

variable (key : FlowKey) (client : Bool)

/-- The requests decoded so far. -/
def requests (dialogue : Dialogue) : List Http.Header :=
  (dialogue.poll.reader key client).applications.httpMessages.filter Http.Header.isRequest

def responses (dialogue : Dialogue) : List Http.Header :=
  (dialogue.poll.reader key (!client)).applications.httpMessages

def pending (dialogue : Dialogue) : List Bool :=
  (dialogue.poll.reader key client).applications.pendingHeadRequests

/-- The final responses recorded so far, each with its `head_response`. -/
def answers (dialogue : Dialogue) : List (Http.Header × Bool) :=
  dialogue.polls.flatMap PairingPoll.recorded

/-- Whether the requests ask for the head only that no response has arrived for. -/
def waiting (dialogue : Dialogue) : List Bool :=
  ((dialogue.requests key client).map Http.Header.asksHead).drop dialogue.sent.length

/-- The poll of `flow`, in one of whose directions bytes have arrived. -/
def polled (dialogue : Dialogue) (flow : Flow) : Dialogue :=
  let poll := { dialogue.poll with flow := flow }
  let next := { dialogue with poll := pollFlow key poll false }
  { next with polls := dialogue.polls ++ [{
      isReverse := flow.isReverse
      before := dialogue.pending key client
      recorded := if flow.isReverse = client then []
        else PcapAnalyzer.answers key (streamPoll key poll false)
      after := next.pending key client }] }

end Dialogue

/-- The runs of `pollFlow` from fresh application state in which fewer than `MAX_PENDING_REQUESTS`
requests wait and each response arrives after its request was decoded. How far the body of a
response may have arrived at a poll is told by `allowed`. -/
inductive Conversed (key : FlowKey) (client : Bool) (allowed : WireResponse → List UInt8 → Prop) :
    Dialogue → Prop where
  | fresh {poll : FlowPoll} (owned : Owned key poll.flow) (node : poll.decoder.node key = {})
      (inside : ∀ isReverse,
        (poll.flow.side isReverse).readPos ≤ (poll.flow.side isReverse).assembled.length) :
      Conversed key client allowed
        { poll := poll, awaited := { unread := (poll.flow.side (!client)).peek } }
  | request {dialogue : Dialogue} {flow : Flow} {piece : List UInt8}
      (reached : Conversed key client allowed dialogue)
      (arrives : Arrives piece dialogue.poll.flow flow) (direction : flow.isReverse = client)
      (room : ((dialogue.polled key client flow).waiting key client).length < maxPendingRequests) :
      Conversed key client allowed (dialogue.polled key client flow)
  | unreadable {dialogue : Dialogue} {flow : Flow} {piece : List UInt8}
      (reached : Conversed key client allowed dialogue)
      (arrives : Arrives piece dialogue.poll.flow flow) (direction : flow.isReverse = !client)
      (unreadable : flow.stream.hasReadableData = false) :
      Conversed key client allowed { dialogue.polled key client flow with
        awaited := dialogue.awaited.grow piece }
  | response {dialogue : Dialogue} {flow : Flow} {piece : List UInt8}
      {now : List (Http.Header × Bool)} {awaited : Awaited}
      (reached : Conversed key client allowed dialogue)
      (arrives : Arrives piece dialogue.poll.flow flow) (direction : flow.isReverse = !client)
      (readable : flow.stream.hasReadableData = true) (lasts : dialogue.awaited.closing = false)
      (behind : dialogue.awaited.skip ≤ (dialogue.awaited.unread ++ piece).length)
      (segmented : Segmented allowed (dialogue.waiting key client)
        ((dialogue.awaited.unread ++ piece).drop dialogue.awaited.skip) now awaited) :
      Conversed key client allowed { dialogue.polled key client flow with
        sent := dialogue.sent ++ now
        awaited := awaited }
  | skipped {dialogue : Dialogue} {flow : Flow} {piece : List UInt8}
      (reached : Conversed key client allowed dialogue)
      (arrives : Arrives piece dialogue.poll.flow flow) (direction : flow.isReverse = !client)
      (readable : flow.stream.hasReadableData = true) (lasts : dialogue.awaited.closing = false)
      (missing : (dialogue.awaited.unread ++ piece).length < dialogue.awaited.skip) :
      Conversed key client allowed { dialogue.polled key client flow with
        awaited := { skip := dialogue.awaited.skip - (dialogue.awaited.unread ++ piece).length } }
  | body {dialogue : Dialogue} {flow : Flow} {piece : List UInt8}
      (reached : Conversed key client allowed dialogue)
      (arrives : Arrives piece dialogue.poll.flow flow) (direction : flow.isReverse = !client)
      (readable : flow.stream.hasReadableData = true) (lasts : dialogue.awaited.closing = true) :
      Conversed key client allowed (dialogue.polled key client flow)

/-- Each response is paired with one request: the n-th recorded one takes the n-th request off the
pending list, and is bodyless if that asks for the head only; nothing else takes one off. -/
structure Paired (key : FlowKey) (client : Bool) (dialogue : Dialogue) : Prop where
  recorded : dialogue.responses key client = dialogue.sent.map Prod.fst
  answered : dialogue.answers = dialogue.sent
  requests : (dialogue.requests key client).map Http.Header.asksHead =
    dialogue.answers.map Prod.snd ++ dialogue.pending key client
  polls : ∀ poll ∈ dialogue.polls,
    if poll.isReverse = client then poll.before <+: poll.after
    else poll.before = poll.recorded.map Prod.snd ++ poll.after

/-- What holds of the dialogue between two polls. -/
structure DialogueInvariant (key : FlowKey) (client : Bool) (dialogue : Dialogue) : Prop where
  owned : Owned key dialogue.poll.flow
  paired : Paired key client dialogue
  awaits : (dialogue.poll.reader key (!client)).Awaits dialogue.awaited

theorem answers_viewed {key : FlowKey} (http : key.isHttp = true) (notDns : key.isDns = false)
    {poll : StreamPoll} (readable : poll.stream.hasReadableData = true)
    (inside : poll.stream.readPos ≤ poll.stream.assembled.length) :
    answers key poll = poll.view.answers := by
  refine filter_map_viewed ?_ (http_turns_viewed http notDns readable inside)
  rintro poll _ ⟨inside, rfl⟩
  have turned := http_turn_viewed inside
  have same : (httpTurn poll).state.applications = poll.view.turn.state.applications := by
    generalize httpTurn poll = left at turned
    generalize poll.view.turn = right at turned
    cases turned with
    | leave viewed | again viewed =>
        rw [viewed.view]
        rfl
  rw [same]
  rfl

section Steps

variable {key : FlowKey} {client : Bool} {dialogue : Dialogue}

theorem DialogueInvariant.waiting (invariant : DialogueInvariant key client dialogue) :
    dialogue.waiting key client = dialogue.pending key client := by
  have paired := invariant.paired
  rw [Dialogue.waiting, paired.requests, paired.answered, ← List.length_map Prod.snd,
    List.drop_left]

/-- The direction of the requests is polled. -/
theorem request_invariant (http : key.isHttp = true) (notDns : key.isDns = false)
    (invariant : DialogueInvariant key client dialogue) {flow : Flow} {piece : List UInt8}
    (arrives : Arrives piece dialogue.poll.flow flow) (direction : flow.isReverse = client)
    (room : ((dialogue.polled key client flow).waiting key client).length < maxPendingRequests) :
    DialogueInvariant key client (dialogue.polled key client flow) := by
  subst direction
  obtain ⟨owned, self, other⟩ := arrival_readers http notDns invariant.owned arrives false
  rw [@stream_poll_reader key dialogue.poll flow piece arrives false] at self other
  simp only [Bool.false_eq_true, if_false] at self other
  generalize starts : { dialogue.poll.reader key flow.isReverse with
    input := (dialogue.poll.reader key flow.isReverse).input ++ piece } = start at self other
  generalize ends : (if flow.stream.hasReadableData then start.read else start) = polled
    at self other
  have frame : start.Pushes polled ∧ start.SameButPending polled := by
    rw [← ends]
    split_ifs
    · exact ⟨start.read_pushes, start.read_peer⟩
    · exact ⟨.same rfl rfl, _, rfl⟩
  obtain ⟨⟨new, messages, pushed⟩, pending, peer⟩ := frame
  have before : start.applications = (dialogue.poll.reader key flow.isReverse).applications := by
    rw [← starts]
  have peerBefore : start.peer = (dialogue.poll.reader key (!flow.isReverse)).applications := by
    rw [← starts, ← reader_peer, Bool.not_not]
  have paired := invariant.paired
  have requests : (dialogue.polled key flow.isReverse flow).requests key flow.isReverse =
      dialogue.requests key flow.isReverse ++ new.filter Http.Header.isRequest := by
    simp only [Dialogue.requests, Dialogue.polled]
    rw [self, messages, before, List.filter_append]
  have waitingAfter : (dialogue.polled key flow.isReverse flow).pending key flow.isReverse =
      dialogue.pending key flow.isReverse ++
        (new.filter Http.Header.isRequest).map Http.Header.asksHead := by
    have total := congrArg List.length paired.requests
    rw [paired.answered] at total
    simp only [Dialogue.waiting, requests, List.length_drop, List.length_map,
      List.length_append] at room total
    have sent : (dialogue.polled key flow.isReverse flow).sent = dialogue.sent := rfl
    rw [sent] at room
    have pushed := pushed (by rw [before]; simp only [Dialogue.pending] at total; omega)
    rw [before] at pushed
    simp only [Dialogue.pending, Dialogue.polled]
    rw [self, pushed]
  have answers : (dialogue.polled key flow.isReverse flow).answers = dialogue.answers := by
    simp [Dialogue.answers, Dialogue.polled]
  rw [peerBefore] at peer
  refine ⟨owned, ⟨?_, answers.trans paired.answered, ?_, ?_⟩, ?_⟩
  · refine Eq.trans ?_ paired.recorded
    simp only [Dialogue.responses, Dialogue.polled]
    rw [other, peer]
  · rw [requests, waitingAfter, answers, List.map_append, paired.requests, List.append_assoc]
  · intro poll member
    rcases List.mem_append.mp member with earlier | here
    · exact paired.polls poll earlier
    · rw [List.mem_singleton.mp here, if_pos rfl]
      exact ⟨_, waitingAfter.symm⟩
  · have awaits := invariant.awaits
    simp only [Dialogue.polled]
    rw [other, peer]
    exact awaits

/-- The direction of the responses is polled, and the poll answers what has arrived. -/
theorem answers_invariant (http : key.isHttp = true) (notDns : key.isDns = false)
    (invariant : DialogueInvariant key client dialogue) {flow : Flow} {piece : List UInt8}
    {now : List (Http.Header × Bool)} {awaited : Awaited}
    (arrives : Arrives piece dialogue.poll.flow flow) (direction : flow.isReverse = !client)
    (readable : flow.stream.hasReadableData = true)
    (answered : HttpReader.Answers { dialogue.poll.reader key (!client) with
      input := (dialogue.poll.reader key (!client)).input ++ piece } now awaited)
    {next : Dialogue} (poll : next.poll = (dialogue.polled key client flow).poll)
    (polls : next.polls = (dialogue.polled key client flow).polls)
    (sent : next.sent = dialogue.sent ++ now) (ends : next.awaited = awaited) :
    DialogueInvariant key client next := by
  obtain ⟨owned, self, other⟩ := arrival_readers http notDns invariant.owned arrives false
  have viewed : (streamPoll key { dialogue.poll with flow := flow } false).view =
      { dialogue.poll.reader key (!client) with
        input := (dialogue.poll.reader key (!client)).input ++ piece } := by
    rw [← direction]
    exact stream_poll_reader arrives false
  have recorded := @answers_viewed key http notDns
    (streamPoll key { dialogue.poll with flow := flow } false) readable
    (arrives.inside flow.isReverse)
  rw [viewed] at self other recorded
  rw [answered.answers] at recorded
  rw [readable, if_pos rfl, direction] at self other
  rw [Bool.not_not] at other
  generalize starts : { dialogue.poll.reader key (!client) with
    input := (dialogue.poll.reader key (!client)).input ++ piece } = start at self other answered
  have before : start.applications = (dialogue.poll.reader key (!client)).applications := by
    rw [← starts]
  have peerBefore : start.peer = (dialogue.poll.reader key client).applications := by
    rw [← starts, ← reader_peer]
  have paired := invariant.paired
  have requests : next.requests key client = dialogue.requests key client := by
    simp only [Dialogue.requests, poll, Dialogue.polled]
    rw [other, ← peerBefore]
    exact congrArg (List.filter Http.Header.isRequest) answered.requests
  have pending : dialogue.pending key client = now.map Prod.snd ++ next.pending key client := by
    simp only [Dialogue.pending, poll, Dialogue.polled]
    rw [other, ← peerBefore]
    exact answered.pending
  have answers : next.answers = dialogue.answers ++ now := by
    have differs : flow.isReverse ≠ client := by simp [direction]
    simp only [Dialogue.answers, polls, Dialogue.polled, List.flatMap_append, List.flatMap_singleton,
      if_neg differs, recorded]
  refine ⟨by rw [poll]; exact owned, ⟨?_, ?_, ?_, ?_⟩, ?_⟩
  · have messages := answered.recorded
    rw [before] at messages
    simp only [Dialogue.responses, poll, Dialogue.polled]
    rw [self, messages, sent, List.map_append, ← paired.recorded]
    rfl
  · rw [answers, sent, paired.answered]
  · rw [requests, answers, paired.requests, pending, List.map_append, List.append_assoc]
  · intro made member
    rw [polls] at member
    rcases List.mem_append.mp member with earlier | here
    · exact paired.polls made earlier
    · have differs : flow.isReverse ≠ client := by simp [direction]
      rw [List.mem_singleton.mp here, if_neg differs]
      simp only [if_neg differs, recorded]
      simp only [Dialogue.pending, poll, Dialogue.polled] at pending ⊢
      exact pending
  · simp only [poll, Dialogue.polled]
    rw [self, ends]
    exact answered.awaits

/-- A stream that may not be read keeps what arrives. -/
theorem unreadable_invariant (http : key.isHttp = true) (notDns : key.isDns = false)
    (invariant : DialogueInvariant key client dialogue) {flow : Flow} {piece : List UInt8}
    (arrives : Arrives piece dialogue.poll.flow flow) (direction : flow.isReverse = !client)
    (unreadable : flow.stream.hasReadableData = false) :
    DialogueInvariant key client
      { dialogue.polled key client flow with awaited := dialogue.awaited.grow piece } := by
  obtain ⟨owned, self, other⟩ := arrival_readers http notDns invariant.owned arrives false
  rw [@stream_poll_reader key dialogue.poll flow piece arrives false] at self other
  simp only [Bool.false_eq_true, if_false, unreadable] at self other
  rw [direction] at self other
  rw [Bool.not_not] at other
  have peerBefore := reader_peer key dialogue.poll client
  have differs : flow.isReverse ≠ client := by simp [direction]
  have none : PcapAnalyzer.answers key
      (streamPoll key { dialogue.poll with flow := flow } false) = [] := by
    rw [PcapAnalyzer.answers, http_turns_unreadable key unreadable, List.filterMap_nil]
  have paired := invariant.paired
  have pending : (dialogue.polled key client flow).pending key client =
      dialogue.pending key client := by
    simp only [Dialogue.pending, Dialogue.polled]
    rw [other, peerBefore]
  have answers : (dialogue.polled key client flow).answers = dialogue.answers := by
    simp [Dialogue.answers, Dialogue.polled, none]
  refine ⟨owned, ⟨?_, answers.trans paired.answered, ?_, ?_⟩, ?_⟩
  · refine Eq.trans ?_ paired.recorded
    simp only [Dialogue.responses, Dialogue.polled]
    rw [self]
  · refine Eq.trans ?_ (paired.requests.trans ?_)
    · simp only [Dialogue.requests, Dialogue.polled]
      rw [other, peerBefore]
    · exact congrArg₂ (fun answered left => answered.map Prod.snd ++ left) answers.symm pending.symm
  · intro poll member
    rcases List.mem_append.mp member with earlier | here
    · exact paired.polls poll earlier
    · rw [List.mem_singleton.mp here, if_neg differs]
      simp only [if_neg differs, none]
      exact pending.symm
  · simp only [Dialogue.polled]
    rw [self]
    exact invariant.awaits.grow piece

end Steps

/-- Where no poll finds a final response with its header complete and its body not, an oversized one
excepted, every response is paired with its request. -/
theorem responses_are_paired {key : FlowKey} (http : key.isHttp = true) (notDns : key.isDns = false)
    {client : Bool} {dialogue : Dialogue}
    (reached : Conversed key client CutInHeader dialogue) : Paired key client dialogue := by
  have invariant : DialogueInvariant key client dialogue := by
    induction reached with
    | @fresh poll owned node inside =>
        have fresh : ∀ isReverse, (poll.reader key isReverse).applications = {} := by
          intro isReverse
          rw [FlowPoll.reader, node]
          cases isReverse <;> rfl
        have applications := fresh (!client)
        refine ⟨owned, ⟨?_, rfl, ?_, by simp⟩, ?_⟩
        · simp [Dialogue.responses, fresh]
        · simp [Dialogue.requests, Dialogue.pending, Dialogue.answers, fresh]
        · unfold HttpReader.Awaits
          rw [applications]
          exact ⟨rfl, rfl, rfl, rfl⟩
    | request _ arrives direction room ih =>
        exact request_invariant http notDns ih arrives direction room
    | unreadable _ arrives direction unreadable ih =>
        exact unreadable_invariant http notDns ih arrives direction unreadable
    | @response dialogue flow piece now awaited _ arrives direction readable lasts behind
        segmented ih =>
        obtain ⟨skip, noDrain, noChunks, input⟩ := ih.awaits.last lasts
        rw [ih.waiting] at segmented
        rw [← skip, ← input] at behind segmented
        have answered := @HttpReader.answers_behind { dialogue.poll.reader key (!client) with
          input := (dialogue.poll.reader key (!client)).input ++ piece } _ _ _ behind segmented
          noDrain noChunks
          (congrArg Applications.pendingHeadRequests (reader_peer key dialogue.poll client))
        exact answers_invariant http notDns ih arrives direction readable answered rfl rfl rfl rfl
    | @skipped dialogue flow piece _ arrives direction readable lasts missing ih =>
        obtain ⟨skip, noDrain, noChunks, input⟩ := ih.awaits.last lasts
        rw [← skip, ← input] at missing
        have answered := @HttpReader.answers_skipped { dialogue.poll.reader key (!client) with
          input := (dialogue.poll.reader key (!client)).input ++ piece } missing noDrain noChunks
        refine answers_invariant http notDns ih arrives direction readable answered rfl rfl
          (List.append_nil _).symm ?_
        rw [← skip, ← input]
    | @body dialogue _ _ _ arrives direction readable lasts ih =>
        have awaits := ih.awaits
        rw [HttpReader.Awaits, if_pos lasts] at awaits
        exact answers_invariant http notDns ih arrives direction readable
          (HttpReader.answers_drained lasts awaits.1 awaits.2) rfl rfl (List.append_nil _).symm rfl
  exact invariant.paired

section Example

/-- The header of a response that announces a body of one byte. -/
def sizedHead : List UInt8 :=
  Http.http11 ++ text [' ', '2', '0', '0', ' '] ++ Http.crlf ++ Http.contentLength ++
    text [':', '1'] ++ Http.crlf ++ Http.crlf

def sizedHeader : Http.Header :=
  { type := .response
    version := Http.http11
    statusCode := 200
    fields := [{ name := Http.contentLength, value := text ['1'] }]
    hasContentLength := true
    contentLength := 1 }

def sizedResponse : ResponseHead where
  head := sizedHead
  header := sizedHeader
  parsed := by decide +kernel
  fits := by decide
  response := rfl
  final := by decide

/-- The response to a GET request. -/
def getResponse : WireResponse :=
  { sizedResponse with isHead := false, body := [0], framed := ⟨rfl, rfl⟩ }

/-- The response to a HEAD request announces the same body and has none. -/
def headResponse : WireResponse :=
  { sizedResponse with isHead := true, body := [], framed := rfl }

/-- A segment in order, with its poll. -/
def Dialogue.receive (dialogue : Dialogue) (isReverse : Bool) (piece : List UInt8) : Dialogue :=
  dialogue.polled { dstPort := 80 } false (dialogue.poll.flow.receive isReverse piece)

/-- Both directions of the flow take in what comes in order. -/
def Dialogue.Open (dialogue : Dialogue) : Prop :=
  Owned { dstPort := 80 } dialogue.poll.flow ∧
    ∀ isReverse, InOrder (dialogue.poll.flow.side isReverse)

theorem Dialogue.Open.receive {dialogue : Dialogue} (opened : dialogue.Open) (isReverse : Bool)
    (piece : List UInt8) :
    Arrives piece dialogue.poll.flow (dialogue.poll.flow.receive isReverse piece) ∧
      (dialogue.receive isReverse piece).Open := by
  obtain ⟨arrives, sides⟩ := receive_arrives opened.2 isReverse piece
  have owned : Owned { dstPort := 80 } (dialogue.poll.flow.receive isReverse piece) := by
    rw [Owned, arrives.appState]
    exact opened.1
  exact ⟨arrives, (poll_flow_frame owned false).owned,
    fun side => (sides side).consumed (poll_flow_consumed _ _ false owned side)⟩

def asked : Dialogue :=
  { poll := newFlowPoll : Dialogue }.receive false (getRequest ++ headRequest)

theorem new_dialogue_open : Dialogue.Open { poll := newFlowPoll } :=
  ⟨.inl rfl, each_side false ⟨rfl, rfl, rfl, by decide⟩ ⟨rfl, rfl, rfl, by decide⟩⟩

theorem asked_conversed (allowed : WireResponse → List UInt8 → Prop) :
    Conversed { dstPort := 80 } false allowed asked ∧ asked.Open := by
  obtain ⟨arrives, opened⟩ := new_dialogue_open.receive false (getRequest ++ headRequest)
  refine ⟨.request (.fresh (.inl rfl) rfl ?_) arrives rfl (by decide +kernel), opened⟩
  exact each_side false (by decide) (by decide)

/-- The response to the GET request and the beginning of the other one. -/
def answeredOnce : Dialogue :=
  { asked.receive true (getResponse.wire ++ sizedHead.take 10) with
    sent := [(sizedHeader, false)]
    awaited := { unread := sizedHead.take 10 } }

def answeredTwice : Dialogue :=
  { answeredOnce.receive true (sizedHead.drop 10) with
    sent := [(sizedHeader, false), (sizedHeader, true)]
    awaited := {} }

theorem responses_are_paired_pieces :
    Paired { dstPort := 80 } false answeredTwice ∧
      answeredTwice.answers = [(sizedHeader, false), (sizedHeader, true)] ∧
      answeredTwice.pending { dstPort := 80 } false = [] := by
  obtain ⟨reached, opened⟩ := asked_conversed CutInHeader
  obtain ⟨arrives, openedOnce⟩ := opened.receive true (getResponse.wire ++ sizedHead.take 10)
  have waiting : asked.waiting { dstPort := 80 } false =
      [getResponse.isHead, headResponse.isHead] := by decide +kernel
  have once : Conversed { dstPort := 80 } false CutInHeader answeredOnce := by
    refine .response reached arrives rfl (by decide +kernel) rfl (Nat.zero_le _) ?_
    rw [waiting]
    refine .next (.inside ((List.take_prefix 10 _).trans (List.prefix_append _ _)) (by decide)
      (fun large => absurd large.1 (by decide)) ?_)
    unfold CutInHeader
    decide
  have waitingOnce : answeredOnce.waiting { dstPort := 80 } false = [headResponse.isHead] := by
    decide +kernel
  have twice : Conversed { dstPort := 80 } false CutInHeader answeredTwice := by
    refine .response once (openedOnce.receive true (sizedHead.drop 10)).1 rfl (by decide +kernel)
      rfl (Nat.zero_le _) ?_
    rw [waitingOnce]
    exact .next .done
  exact ⟨responses_are_paired (by decide) (by decide) twice, by decide +kernel, by decide +kernel⟩

/-- The entry of the GET request is taken although its response is not complete. -/
theorem cut_response_is_not_paired : ¬ ∀ (key : FlowKey) (client : Bool) (dialogue : Dialogue),
    key.isHttp = true → key.isDns = false → Conversed key client (fun _ _ => True) dialogue →
      Paired key client dialogue := by
  intro always
  obtain ⟨reached, opened⟩ := asked_conversed fun _ _ => True
  have waiting : asked.waiting { dstPort := 80 } false = [getResponse.isHead, true] := by
    decide +kernel
  have segmented : Segmented (fun _ _ => True) (asked.waiting { dstPort := 80 } false)
      ((asked.awaited.unread ++ sizedHead).drop asked.awaited.skip) []
        { unread := sizedHead } := by
    rw [waiting]
    exact .inside (List.prefix_append _ _) (by decide) (fun large => absurd large.1 (by decide))
      trivial
  have cut := Conversed.response reached (opened.receive true sizedHead).1 rfl (by decide +kernel)
    rfl (Nat.zero_le _) segmented
  have paired := (always { dstPort := 80 } false _ (by decide) (by decide) cut).requests
  exact absurd paired (by decide +kernel)

end Example

end PcapAnalyzer
