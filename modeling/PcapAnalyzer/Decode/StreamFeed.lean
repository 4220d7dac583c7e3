import PcapAnalyzer.Decode.Isolation

/-!
# A stream that is fed piece by piece

Pieces are added at the end of what a stream still holds unread, and the stream is polled
after each of them. A poll only consumes from its stream.
-/

namespace PcapAnalyzer

set_option autoImplicit false

namespace TcpReassembler

/-- The stream after some calls of `consume`. -/
def Consumed (before after : TcpReassembler) : Prop :=
  ∃ counts : List Nat, after = counts.foldl consume before

theorem Consumed.refl (stream : TcpReassembler) : Consumed stream stream := ⟨[], rfl⟩

theorem Consumed.once (stream : TcpReassembler) (count : Nat) :
    Consumed stream (stream.consume count) := ⟨[count], rfl⟩

theorem Consumed.trans {first second third : TcpReassembler} (left : Consumed first second)
    (right : Consumed second third) : Consumed first third := by
  obtain ⟨counts, rfl⟩ := left
  obtain ⟨more, rfl⟩ := right
  exact ⟨counts ++ more, by rw [List.foldl_append]⟩

theorem consume_available (stream : TcpReassembler) (count : Nat) :
    (stream.consume count).available = stream.available - count := by
  unfold consume
  simp only
  split_ifs
  · simp only [available, List.length_drop]
    omega
  · simp only [available]
    omega

/-- What consuming leaves alone. -/
structure SameButRead (before after : TcpReassembler) : Prop where
  state : after.state = before.state
  nextSeq : after.nextSeq = before.nextSeq
  keepPayload : after.keepPayload = before.keepPayload
  outOfOrder : after.outOfOrder = before.outOfOrder
  inside : before.readPos ≤ before.assembled.length → after.readPos ≤ after.assembled.length

theorem Consumed.same {before after : TcpReassembler} (consumed : Consumed before after) :
    SameButRead before after := by
  obtain ⟨counts, rfl⟩ := consumed
  induction counts generalizing before with
  | nil => exact ⟨rfl, rfl, rfl, rfl, id⟩
  | cons count counts ih =>
      have later : SameButRead (before.consume count) (counts.foldl consume _) := ih
      obtain ⟨assembled, readPos, frame⟩ := consume_frame before count
      have bound := consume_length_bound before count
      simp only [List.foldl_cons]
      refine ⟨later.state.trans ?_, later.nextSeq.trans ?_, later.keepPayload.trans ?_,
        later.outOfOrder.trans ?_, fun inside => later.inside (bound inside)⟩ <;> rw [frame]

theorem SameButRead.readable {before after : TcpReassembler} (same : SameButRead before after) :
    after.hasReadableData = before.hasReadableData := by
  rw [hasReadableData, hasReadableData, same.state]

end TcpReassembler

open TcpReassembler

theorem resync_http_consumed (poll : HttpPoll) :
    Consumed poll.stream (resyncHttp poll).state.stream := by
  unfold resyncHttp
  simp only
  split
  · exact .once _ _
  · split_ifs
    · exact .once _ _
    · exact .refl _
    · exact .refl _

theorem http_message_consumed (header : Http.Header) (span : List UInt8) (poll : HttpPoll) :
    Consumed poll.stream (httpMessage header span poll).state.stream := by
  unfold httpMessage
  generalize popHeadRequest header poll.peer = taken
  rcases taken with ⟨headResponse, peer⟩
  simp only
  generalize scanBody header headResponse poll.applications span = scan
  cases scan with
  | malformed => exact resync_http_consumed { poll with peer := peer }
  | incomplete applications rest =>
      simp only
      split_ifs
      · unfold oversizedBody
        split_ifs
        · exact .once _ _
        · exact resync_http_consumed { poll with peer := peer, applications := applications }
      · exact .refl _
  | complete applications rest => exact .once _ _

theorem http_turn_consumed (poll : HttpPoll) :
    Consumed poll.stream (httpTurn poll).state.stream := by
  unfold httpTurn
  by_cases skipping : poll.applications.httpSkip > 0
  · rw [if_pos skipping]
    unfold skipBody
    simp only
    split_ifs <;> exact .once _ _
  rw [if_neg skipping]
  by_cases untilClose : poll.applications.httpBodyUntilClose = true
  · rw [if_pos untilClose]
    exact .once _ _
  rw [if_neg untilClose]
  split
  · split
    · exact resync_http_consumed poll
    · exact .refl _
  · exact resync_http_consumed poll
  · exact http_message_consumed _ _ poll

theorem dns_turn_consumed (poll : DnsPoll) : Consumed poll.stream (dnsTurn poll).state.stream := by
  unfold dnsTurn
  simp only
  split_ifs
  · exact .refl _
  · exact .refl _
  · split <;> exact .once _ _

def HttpPoll.Consumes (before after : HttpPoll) : Prop := Consumed before.stream after.stream

def DnsPoll.Consumes (before after : DnsPoll) : Prop := Consumed before.stream after.stream

theorem HttpPoll.Consumes.trans (first second third : HttpPoll) (left : first.Consumes second)
    (right : second.Consumes third) : first.Consumes third :=
  Consumed.trans left right

theorem DnsPoll.Consumes.trans (first second third : DnsPoll) (left : first.Consumes second)
    (right : second.Consumes third) : first.Consumes third :=
  Consumed.trans left right

theorem http_loop_consumed (poll : HttpPoll) : poll.Consumes (httpLoop poll) :=
  MeasuredLoop.run_composes (fun poll => Consumed.refl poll.stream) HttpPoll.Consumes.trans
    http_turn_consumed _ poll

theorem dns_loop_consumed (poll : DnsPoll) : poll.Consumes (dnsLoop poll) :=
  MeasuredLoop.run_composes (fun poll => Consumed.refl poll.stream) DnsPoll.Consumes.trans
    dns_turn_consumed _ poll

theorem poll_stream_consumed (key : FlowKey) (poll : StreamPoll) :
    Consumed poll.stream (pollStream key poll).stream := by
  have dns : Consumed poll.stream (dnsLoop _).stream := dns_loop_consumed
    { stream := poll.stream, applications := poll.applications, dnsTable := poll.dnsTable }
  have http : Consumed poll.stream (httpLoop _).stream := http_loop_consumed
    { stream := poll.stream, applications := poll.applications, peer := poll.peer }
  unfold pollStream
  split_ifs
  · exact .refl poll.stream
  · exact dns
  · exact http
  · exact .refl poll.stream

/-- A poll of a flow only consumes from either side. -/
theorem poll_flow_consumed (key : FlowKey) (poll : AppDecoder.FlowPoll) (flowIsNew : Bool)
    (owned : AppDecoder.Owned key poll.flow) (isReverse : Bool) :
    Consumed (poll.flow.side isReverse)
      ((AppDecoder.pollFlow key poll flowIsNew).flow.side isReverse) := by
  by_cases plain : key.isDns = false ∧ key.isHttp = false
  · rw [AppDecoder.poll_flow_plain flowIsNew plain]
    exact .refl _
  · have read := poll_stream_consumed key (AppDecoder.streamPoll key poll flowIsNew)
    have sides := Decoder.set_stream_side poll.flow
      (pollStream key (AppDecoder.streamPoll key poll flowIsNew)).stream
    rw [AppDecoder.poll_flow_app flowIsNew plain owned]
    by_cases same : isReverse = poll.flow.isReverse
    · subst same
      exact (show Flow.side _ _ = _ from sides.1) ▸ read
    · obtain rfl : isReverse = !poll.flow.isReverse := by
        cases isReverse <;> cases turned : poll.flow.isReverse <;> simp_all
      exact (show Flow.side _ _ = _ from sides.2) ▸ .refl _

/-- The stream holds `piece` in addition to what it held, and may be read. -/
structure Appends (piece : List UInt8) (before after : TcpReassembler) : Prop where
  peek : after.peek = before.peek ++ piece
  readable : after.hasReadableData = true
  inside : after.readPos ≤ after.assembled.length

/-- The polls after each of the pieces. -/
inductive Fed (key : FlowKey) : List (List UInt8) → StreamPoll → StreamPoll → Prop where
  | nil (poll : StreamPoll) : Fed key [] poll poll
  | cons {piece : List UInt8} {pieces : List (List UInt8)} {poll last : StreamPoll}
      {stream : TcpReassembler} (appends : Appends piece poll.stream stream)
      (rest : Fed key pieces (pollStream key { poll with stream := stream }) last) :
      Fed key (piece :: pieces) poll last

/-- A stream that takes in the segment it waits for, and nothing else. -/
structure InOrder (stream : TcpReassembler) : Prop where
  keepPayload : stream.keepPayload = true
  outOfOrder : stream.outOfOrder = []
  readable : stream.hasReadableData = true
  inside : stream.readPos ≤ stream.assembled.length

theorem InOrder.consumed {before after : TcpReassembler} (inOrder : InOrder before)
    (consumed : Consumed before after) : InOrder after := by
  have same := consumed.same
  exact ⟨same.keepPayload.trans inOrder.keepPayload, same.outOfOrder.trans inOrder.outOfOrder,
    same.readable.trans inOrder.readable, same.inside inOrder.inside⟩

/-- A segment at `next_seq` adds exactly its bytes. -/
theorem InOrder.ingest {stream : TcpReassembler} (inOrder : InOrder stream) (piece : List UInt8) :
    Appends piece stream (stream.ingest stream.nextSeq piece) ∧
      InOrder (stream.ingest stream.nextSeq piece) := by
  have taken : stream.ingest stream.nextSeq piece =
      { stream with
        assembled := stream.assembled ++ piece
        nextSeq := stream.nextSeq + UInt32.ofNat piece.length
        outOfOrder := [] } := by
    simp only [TcpReassembler.ingest, inOrder.keepPayload, Bool.not_true, Bool.false_eq_true,
      if_false, if_true, drain, inOrder.outOfOrder, drainFrom]
  have inside : stream.readPos ≤ (stream.assembled ++ piece).length := by
    have before := inOrder.inside
    rw [List.length_append]
    omega
  have readable : (stream.ingest stream.nextSeq piece).hasReadableData = true := by
    rw [taken]
    exact inOrder.readable
  rw [taken] at readable ⊢
  refine ⟨⟨?_, readable, inside⟩, ⟨inOrder.keepPayload, rfl, readable, inside⟩⟩
  exact List.drop_append_of_le_length inOrder.inside

/-- One piece after the other is ingested in order, with a poll after each. -/
def feedAll (key : FlowKey) (poll : StreamPoll) (pieces : List (List UInt8)) : StreamPoll :=
  pieces.foldl (fun poll piece =>
    pollStream key { poll with stream := poll.stream.ingest poll.stream.nextSeq piece }) poll

theorem feed_all_fed (key : FlowKey) (poll : StreamPoll) (pieces : List (List UInt8))
    (inOrder : InOrder poll.stream) : Fed key pieces poll (feedAll key poll pieces) := by
  induction pieces generalizing poll with
  | nil => exact .nil poll
  | cons piece pieces ih =>
      obtain ⟨appends, later⟩ := inOrder.ingest piece
      exact .cons appends (ih _ (later.consumed (poll_stream_consumed key _)))

end PcapAnalyzer
