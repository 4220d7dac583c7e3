import PcapAnalyzer.Decode.HttpGrowth

/-!
# HTTP messages, however the stream is cut

A poll carries the chunk prefix and the search position over to the next. They save work
and change nothing: with them a turn does what it does without, so that reading piece by
piece is reading the whole.
-/

namespace PcapAnalyzer

open MeasuredLoop

set_option autoImplicit false

/-- No message can be read at the front, however the bytes go on. -/
def Broken (input : List UInt8) : Prop :=
  httpFront input = .malformed ∨ ∃ header span, httpFront input = .message header span ∧
    scanBody header false {} span = .malformed

/-- The framing of a body is scanned alike from every state with the same chunk prefix. -/
theorem scan_body_malformed_same {header : Http.Header} {headResponse : Bool}
    {left right : Applications} {span : List UInt8}
    (same : left.httpChunkPrefix = right.httpChunkPrefix) :
    scanBody header headResponse left span = .malformed ↔
      scanBody header headResponse right span = .malformed := by
  unfold scanBody scanChunkedBody
  rw [same]
  simp only
  split_ifs <;> simp

theorem Broken.append {input : List UInt8} (broken : Broken input) (more : List UInt8) :
    Broken (input ++ more) := by
  rcases broken with malformed | ⟨header, span, front, malformed⟩
  · exact .inl (http_front_append_malformed malformed more)
  · exact .inr ⟨header, span ++ more, http_front_append_message front more,
      scan_body_malformed_append (Nat.zero_le _) malformed more⟩

/-- A body that is incomplete has complete chunks at most, or a known length. -/
theorem scan_body_incomplete_cases {header : Http.Header} {headResponse : Bool}
    {applications after : Applications} {span rest : List UInt8}
    (noChunks : applications.httpChunkPrefix = 0)
    (scanned : scanBody header headResponse applications span = .incomplete after rest) :
    header.bodyForbidden = false ∧ headResponse = false ∧
      (header.chunked = true ∧ rest = span ∧ Resumable after.httpChunkPrefix span ∧
          after = { applications with httpChunkPrefix := after.httpChunkPrefix } ∨
        header.chunked = false ∧ header.hasContentLength = true ∧ rest = span ∧
          span.length < header.contentLength ∧ after = applications) := by
  unfold scanBody at scanned
  split_ifs at scanned with bodyless chunked sized short
  · have resumable : Resumable applications.httpChunkPrefix span := noChunks ▸ resumable_zero span
    have further := @Resumable.further 0 span (resumable_zero span)
    rw [scan_chunked_resumed resumable] at scanned
    simp only at scanned
    split_ifs at scanned with waits
    cases scanned
    rw [Nat.zero_add, List.drop_zero] at further
    simp only [Bool.or_eq_true, not_or, Bool.not_eq_true] at bodyless
    exact ⟨bodyless.1, bodyless.2, .inl ⟨chunked, by rw [noChunks, List.drop_zero],
      further waits, rfl⟩⟩
  · cases scanned
    simp only [Bool.or_eq_true, not_or, Bool.not_eq_true] at bodyless
    exact ⟨bodyless.1, bodyless.2, .inr ⟨by simpa using chunked, sized, rfl, short, rfl⟩⟩

/-- A complete body leaves no chunks validated. -/
theorem scan_body_complete_applications {header : Http.Header} {headResponse : Bool}
    {applications after : Applications} {span rest : List UInt8}
    (noChunks : applications.httpChunkPrefix = 0)
    (scanned : scanBody header headResponse applications span = .complete after rest) :
    after = { applications with httpBodyUntilClose := after.httpBodyUntilClose } := by
  unfold scanBody at scanned
  split_ifs at scanned
  · cases scanned
    rfl
  · rw [(scan_chunked_complete scanned).2, ← noChunks]
  · cases scanned
    rfl
  · cases scanned
    rfl
  · cases scanned
    rfl

namespace HttpReader

/-- The reader without what it knows about its input from earlier polls. -/
def forget (reader : HttpReader) : HttpReader :=
  { reader with applications :=
    { reader.applications with httpChunkPrefix := 0, httpResyncScanned := 0 } }

def grow (more : List UInt8) (reader : HttpReader) : HttpReader :=
  { reader with input := reader.input ++ more }

/-- The other direction waits for no response. -/
def NonePending (reader : HttpReader) : Prop := reader.peer.pendingHeadRequests = []

/-- What a poll carries over is true of the input: chunks of the body at its front, or where
a message start was sought in vain. -/
inductive Carried (reader : HttpReader) : Prop where
  | nothing (noChunks : reader.applications.httpChunkPrefix = 0)
      (noSearch : reader.applications.httpResyncScanned = 0)
  | chunks {header : Http.Header} {span : List UInt8} (ready : reader.Ready)
      (noSearch : reader.applications.httpResyncScanned = 0)
      (front : httpFront reader.input = .message header span) (chunked : header.chunked = true)
      (allowed : header.bodyForbidden = false)
      (resumable : Resumable reader.applications.httpChunkPrefix span)
  | search (ready : reader.Ready) (noChunks : reader.applications.httpChunkPrefix = 0)
      (broken : Broken reader.input)
      (searched : ScannedTo reader.input reader.applications.httpResyncScanned)

theorem Carried.grow {reader : HttpReader} (carried : reader.Carried) (more : List UInt8) :
    (reader.grow more).Carried := by
  cases carried with
  | nothing noChunks noSearch => exact .nothing noChunks noSearch
  | chunks ready noSearch front chunked allowed resumable =>
      exact .chunks ready noSearch (http_front_append_message front more) chunked allowed
        (resumable.append more)
  | search ready noChunks broken searched =>
      exact .search ready noChunks (broken.append more) (searched.append more)

section Turns

variable {reader : HttpReader}

theorem pop_none (none : reader.NonePending) (header : Http.Header) :
    popHeadRequest header reader.peer = (false, reader.peer) := by
  unfold popHeadRequest
  rw [show reader.peer.pendingHeadRequests = [] from none]
  simp

theorem message_none (none : reader.NonePending) (header : Http.Header) (span : List UInt8) :
    reader.message header span =
      match scanBody header false reader.applications span with
      | .malformed => reader.resync
      | .incomplete applications span =>
          if reader.input.length > maxHttpMessageBytes then
            { reader with applications := applications }.oversized header span
          else .leave { reader with applications := applications }
      | .complete applications span =>
          .again { reader with input := span, applications := recordHttp header applications } := by
  rewrite [message, pop_none none]
  rfl

theorem turn_broken (ready : reader.Ready) (none : reader.NonePending)
    (noChunks : reader.applications.httpChunkPrefix = 0) (broken : Broken reader.input) :
    reader.turn = reader.resync := by
  rw [turn_ready ready]
  rcases broken with malformed | ⟨header, span, front, malformed⟩
  · rw [malformed]
  · have here : scanBody header false reader.applications span = .malformed :=
      (scan_body_malformed_same noChunks).mpr malformed
    rw [front]
    simp only [message_none none, here]

/-- The chunk prefix and the position the search goes on from make no difference to it. -/
theorem resync_forget (searched : reader.applications.httpResyncScanned = 0 ∨
    ScannedTo reader.input reader.applications.httpResyncScanned) :
    reader.resync = reader.forget.resync := by
  have found : findHttpResync reader.input reader.applications.httpResyncScanned =
      findHttpResync reader.input 0 := by
    rcases searched with zero | searched
    · rw [zero]
    · exact searched.find_http_resync
  rw [resync, found]
  rfl

/-- A chunked message is scanned as if it were scanned from its start. -/
theorem message_chunked (none : reader.NonePending) {header : Http.Header} {span : List UInt8}
    (chunked : header.chunked = true) (allowed : header.bodyForbidden = false)
    (resumable : Resumable reader.applications.httpChunkPrefix span) :
    reader.message header span =
      match scanChunkedBody { reader.applications with httpChunkPrefix := 0 } span with
      | .malformed => reader.resync
      | .incomplete applications _ =>
          if reader.input.length > maxHttpMessageBytes then reader.resync
          else .leave { reader with applications := applications }
      | .complete applications span => .again { reader with
          input := span
          applications := recordHttp header applications } := by
  have fresh : Resumable { reader.applications with httpChunkPrefix := 0 }.httpChunkPrefix span :=
    resumable_zero span
  rw [message_none none]
  simp only [scanBody, allowed, chunked, Bool.or_self, Bool.false_eq_true, if_false, if_true]
  rw [scan_chunked_resumed resumable, scan_chunked_resumed fresh]
  by_cases waits : (Http.parseChunkedBody span).err = .unexpectedEof
  · simp only [waits, if_true]
    by_cases large : reader.input.length > maxHttpMessageBytes
    · simp only [large, if_true, oversized_chunked chunked]
      rfl
    · simp only [large, if_false]
  by_cases failed : (Http.parseChunkedBody span).err = .none
  · simp [failed]
  · simp [waits, failed]

/-- What is carried over saves work and changes nothing. -/
theorem turn_forget (carried : reader.Carried) (none : reader.NonePending) :
    reader.turn = reader.forget.turn := by
  cases carried with
  | nothing noChunks noSearch =>
      have same : reader.forget = reader := by
        rcases reader with ⟨input, applications, peer⟩
        rcases applications
        simp only [forget] at noChunks noSearch ⊢
        rw [noChunks, noSearch]
      rw [same]
  | @chunks header span ready noSearch front chunked allowed resumable =>
      have readyToo : reader.forget.Ready := ready
      have frontToo : httpFront reader.forget.input = .message header span := front
      have noneToo : reader.forget.NonePending := none
      have fresh : reader.forget.applications = { reader.applications with httpChunkPrefix := 0 } := by
        simp only [forget, ← noSearch]
      rw [turn_ready ready, turn_ready readyToo, front, frontToo]
      simp only
      rw [message_chunked none chunked allowed resumable,
        message_chunked noneToo chunked allowed (resumable_zero span), fresh,
        resync_forget (.inl noSearch)]
      rfl
  | search ready noChunks broken searched =>
      have readyToo : reader.forget.Ready := ready
      rw [turn_broken ready none noChunks broken, turn_broken readyToo none rfl broken]
      exact resync_forget (.inr searched)

/-- What a turn does that finds no chunks validated before. -/
inductive Step (reader : HttpReader) : Turn HttpReader HttpReader → Prop where
  | skips (more : reader.applications.httpSkip > 0) : Step reader reader.skip
  | drains (noSkip : reader.applications.httpSkip = 0)
      (untilClose : reader.applications.httpBodyUntilClose = true) :
      Step reader (.leave { reader with input := [] })
  | waits (ready : reader.Ready) (front : httpFront reader.input = .waiting) :
      Step reader (.leave reader)
  | resyncs (ready : reader.Ready)
      (broken : Broken reader.input ∨ reader.input.length > maxHttpMessageBytes) :
      Step reader reader.resync
  | buffers {header : Http.Header} {span rest : List UInt8} {after : Applications}
      (ready : reader.Ready) (front : httpFront reader.input = .message header span)
      (scanned : scanBody header false reader.applications span = .incomplete after rest)
      (small : reader.input.length ≤ maxHttpMessageBytes) :
      Step reader (.leave { reader with applications := after })
  | oversizes {header : Http.Header} {span : List UInt8} (ready : reader.Ready)
      (front : httpFront reader.input = .message header span)
      (allowed : header.bodyForbidden = false) (unchunked : header.chunked = false)
      (sized : header.hasContentLength = true) (short : span.length < header.contentLength)
      (large : reader.input.length > maxHttpMessageBytes) :
      Step reader (.again { reader with
        input := span
        applications := { recordHttp header reader.applications with
          httpSkip := header.contentLength
          httpBodiesSkipped := (recordHttp header reader.applications).httpBodiesSkipped + 1 } })
  | reads {header : Http.Header} {span rest : List UInt8} {after : Applications}
      (ready : reader.Ready) (front : httpFront reader.input = .message header span)
      (scanned : scanBody header false reader.applications span = .complete after rest) :
      Step reader
        (.again { reader with input := rest, applications := recordHttp header after })

theorem turn_step (none : reader.NonePending)
    (noChunks : reader.applications.httpChunkPrefix = 0) : Step reader reader.turn := by
  by_cases skipping : reader.applications.httpSkip > 0
  · rw [turn, if_pos skipping]
    exact .skips skipping
  by_cases untilClose : reader.applications.httpBodyUntilClose = true
  · rw [turn_drains (by omega) untilClose]
    exact .drains (by omega) untilClose
  have ready : reader.Ready := ⟨by omega, by simpa using untilClose⟩
  rw [turn_ready ready]
  cases front : httpFront reader.input with
  | waiting => exact .waits ready front
  | malformed => exact .resyncs ready (.inl (.inl front))
  | message header span =>
      simp only
      rw [message_none none]
      cases scanned : scanBody header false reader.applications span with
      | malformed =>
          exact .resyncs ready (.inl (.inr ⟨header, span, front,
            (scan_body_malformed_same noChunks).mp scanned⟩))
      | incomplete after rest =>
          simp only
          by_cases large : reader.input.length > maxHttpMessageBytes
          · rw [if_pos large]
            obtain ⟨allowed, -, ⟨chunked, -, -, same⟩ | ⟨unchunked, sized, whole, short, same⟩⟩ :=
              scan_body_incomplete_cases noChunks scanned
            · have resynced : { reader with applications := after }.oversized header rest =
                  reader.resync := by
                rw [oversized_chunked chunked, same]
                rfl
              rw [resynced]
              exact .resyncs ready (.inr large)
            · have skipped := @Step.oversizes reader header span ready front allowed unchunked sized
                short large
              rw [same, whole, oversized, sized, unchunked, Bool.not_false, Bool.and_true,
                if_pos rfl]
              exact skipped
          · rw [if_neg large]
            exact .buffers ready front scanned (by omega)
      | complete after rest => exact .reads ready front scanned

/-- What the state of a turn has to satisfy at either end. -/
def Steady (reader : HttpReader) : Prop := reader.Carried ∧ reader.NonePending

theorem resync_steady (none : reader.NonePending) (noSkip : reader.applications.httpSkip = 0)
    (broken : Broken reader.input ∨ reader.input.length > maxHttpMessageBytes)
    (noSearch : reader.applications.httpResyncScanned = 0) : reader.resync.state.Steady := by
  unfold resync
  simp only
  cases found : findHttpResync reader.input reader.applications.httpResyncScanned with
  | some start => exact ⟨.nothing rfl rfl, none⟩
  | none =>
      by_cases large : reader.input.length > maxHttpMessageBytes
      · simp only [large, if_true]
        exact ⟨.nothing rfl rfl, none⟩
      · simp only [large, if_false]
        refine ⟨?_, none⟩
        by_cases long : 8 ≤ reader.input.length
        · exact .search ⟨noSkip, rfl⟩ rfl (broken.resolve_right large)
            (scanned_to_of_none (.inl noSearch) found long)
        · exact .nothing rfl (by simp only [Turn.state]; omega)

/-- A turn leaves behind what is true of the bytes it leaves. -/
theorem turn_steady (steady : reader.Steady) : reader.turn.state.Steady := by
  obtain ⟨carried, none⟩ := steady
  rw [turn_forget carried none]
  have noneToo : reader.forget.NonePending := none
  have noChunks : reader.forget.applications.httpChunkPrefix = 0 := rfl
  have noSearch : reader.forget.applications.httpResyncScanned = 0 := rfl
  generalize reader.forget = reader at noneToo noChunks noSearch
  have step := turn_step noneToo noChunks
  generalize reader.turn = turned at step
  cases step with
  | skips =>
      rw [skip_state]
      exact ⟨.nothing noChunks noSearch, noneToo⟩
  | drains => exact ⟨.nothing noChunks noSearch, noneToo⟩
  | waits => exact ⟨.nothing noChunks noSearch, noneToo⟩
  | resyncs ready broken => exact resync_steady noneToo ready.1 broken noSearch
  | @buffers header span rest after ready front scanned =>
      obtain ⟨allowed, -, ⟨chunked, -, resumable, same⟩ | ⟨-, -, -, -, same⟩⟩ :=
        scan_body_incomplete_cases noChunks scanned
      · have searchToo := congrArg Applications.httpResyncScanned same
        have readyToo : { reader with applications := after }.Ready := by
          rw [same]
          exact ready
        exact ⟨.chunks readyToo (searchToo.trans noSearch) front chunked allowed resumable, noneToo⟩
      · rw [same]
        exact ⟨.nothing noChunks noSearch, noneToo⟩
  | @oversizes header span =>
      obtain ⟨chunks, search⟩ := record_http_chunks header reader.applications
      exact ⟨.nothing (chunks.trans noChunks) (search.trans noSearch), noneToo⟩
  | @reads header span rest after ready front scanned =>
      obtain ⟨chunks, search⟩ := record_http_chunks header after
      have same := scan_body_complete_applications noChunks scanned
      have chunksToo := congrArg Applications.httpChunkPrefix same
      have searchToo := congrArg Applications.httpResyncScanned same
      exact ⟨.nothing (chunks.trans (chunksToo.trans noChunks))
        (search.trans (searchToo.trans noSearch)), noneToo⟩

theorem turn_grow_forget (steady : reader.Steady) (more : List UInt8) :
    (reader.grow more).turn = (reader.forget.grow more).turn :=
  turn_forget (steady.1.grow more) steady.2

/-- A turn that goes round again does the same with more bytes behind its input. -/
theorem turn_again_grow (steady : reader.Steady) {next : HttpReader} {more : List UInt8}
    (small : (reader.grow more).input.length ≤ maxHttpMessageBytes)
    (again : reader.turn = .again next) : (reader.grow more).turn = .again (next.grow more) := by
  rw [turn_forget steady.1 steady.2] at again
  rw [turn_grow_forget steady]
  have none : reader.forget.NonePending := steady.2
  have noChunks : reader.forget.applications.httpChunkPrefix = 0 := rfl
  have sameInput : reader.forget.input = reader.input := rfl
  generalize reader.forget = fresh at again none noChunks sameInput
  have noneToo : (fresh.grow more).NonePending := none
  have size : fresh.input.length + more.length ≤ maxHttpMessageBytes := by
    rw [grow, List.length_append] at small
    rwa [sameInput]
  have step := turn_step none noChunks
  rw [again] at step
  generalize turned : Turn.again next = result at step
  cases step with
  | skips skipping =>
      have grown : (fresh.grow more).turn = (fresh.grow more).skip := if_pos skipping
      rw [grown]
      unfold skip at turned ⊢
      simp only [grow, List.length_append] at turned ⊢
      split_ifs at turned with left
      rw [Turn.again.injEq] at turned
      rw [if_neg (by omega), turned, Turn.again.injEq, HttpReader.mk.injEq]
      simp only
      refine ⟨List.drop_append_of_le_length (by omega), ?_, trivial⟩
      congr 1
      omega
  | drains => cases turned
  | waits => cases turned
  | resyncs ready broken =>
      have readyToo : (fresh.grow more).Ready := ready
      have brokenToo : Broken (fresh.grow more).input := (broken.resolve_right (by omega)).append more
      rw [turn_broken readyToo noneToo noChunks brokenToo]
      unfold resync at turned ⊢
      simp only at turned ⊢
      cases found : findHttpResync fresh.input fresh.applications.httpResyncScanned with
      | some start =>
          simp only [grow, found, find_http_resync_append found more] at turned ⊢
          cases turned
          have inside : start ≤ fresh.input.length := by
            obtain ⟨p, rfl, -, here, -⟩ := find_http_resync_some.mp found
            exact (resync_at_inside here).le
          rw [List.drop_append_of_le_length inside]
      | none =>
          rw [found] at turned
          simp only at turned
          split_ifs at turned with large
          omega
  | buffers => cases turned
  | oversizes _ _ _ _ _ _ large => omega
  | @reads header span rest after ready front scanned =>
      have readyToo : (fresh.grow more).Ready := ready
      have frontToo : httpFront (fresh.grow more).input = .message header (span ++ more) :=
        http_front_append_message front more
      have scannedToo : scanBody header false (fresh.grow more).applications (span ++ more) =
          .complete after (rest ++ more) :=
        scan_body_complete_append (by rw [noChunks]; exact Nat.zero_le _) scanned more
      cases turned
      rw [turn_ready readyToo, frontToo]
      simp only
      rw [message_none noneToo, scannedToo]
      rfl

/-- A turn that leaves the loop and may read a header then knows nothing more than before. -/
theorem leave_forget (none : reader.NonePending)
    (noChunks : reader.applications.httpChunkPrefix = 0)
    (ready : reader.Ready) {result : HttpReader} (left : reader.turn = .leave result) :
    result.forget = reader.forget := by
  have step := turn_step none noChunks
  rw [left] at step
  generalize turned : Turn.leave result = turn at step
  cases step with
  | skips skipping =>
      have noSkip := ready.1
      omega
  | drains _ untilClose =>
      rw [ready.2] at untilClose
      cases untilClose
  | waits =>
      cases turned
      rfl
  | resyncs =>
      unfold resync at turned
      simp only at turned
      split at turned
      · cases turned
      · split_ifs at turned
        cases turned
        simp only [forget, ready.2]
  | buffers _ _ scanned =>
      cases turned
      obtain ⟨-, -, ⟨-, -, -, same⟩ | ⟨-, -, -, -, same⟩⟩ :=
        scan_body_incomplete_cases noChunks scanned
      · simp only [forget]
        rw [same]
      · rw [same]
  | oversizes => cases turned
  | reads => cases turned

/-- What is still to skip is skipped from the bytes that come next. -/
theorem skip_grow {result : HttpReader} (left : reader.skip = .leave result) (more : List UInt8) :
    result.applications.httpSkip > 0 ∧ (result.grow more).skip = (reader.grow more).skip := by
  unfold skip at left
  simp only at left
  split_ifs at left with rest
  cases left
  have all : reader.input.drop reader.applications.httpSkip = [] :=
    List.drop_eq_nil_of_le (by omega)
  have count : reader.applications.httpSkip - reader.input.length - more.length =
      reader.applications.httpSkip - (reader.input.length + more.length) := by omega
  have dropped : (reader.input ++ more).drop reader.applications.httpSkip =
      more.drop (reader.applications.httpSkip - reader.input.length) := by
    rw [List.drop_append, all, List.nil_append]
  refine ⟨rest, ?_⟩
  unfold skip
  simp only [grow, all, List.nil_append, List.length_append, count, dropped]

/-- Where a turn leaves the loop, more bytes find the loop as if they had been there. -/
theorem turn_leave_grow (steady : reader.Steady) {result : HttpReader} (more : List UInt8)
    (left : reader.turn = .leave result) : (result.grow more).turn = (reader.grow more).turn := by
  have after : result.Steady := by
    have state := turn_steady steady
    rwa [left] at state
  rw [turn_grow_forget steady, turn_grow_forget after]
  rw [turn_forget steady.1 steady.2] at left
  have none : reader.forget.NonePending := steady.2
  have noChunks : reader.forget.applications.httpChunkPrefix = 0 := rfl
  by_cases skipping : reader.forget.applications.httpSkip > 0
  · rw [turn, if_pos skipping] at left
    obtain ⟨skippingToo, same⟩ := skip_grow left more
    have known : result.forget = result := by
      unfold skip at left
      simp only at left
      split_ifs at left
      cases left
      rfl
    have before : (reader.forget.grow more).turn = (reader.forget.grow more).skip :=
      if_pos skipping
    have after : (result.grow more).turn = (result.grow more).skip := if_pos skippingToo
    rw [known, before, after, same]
  by_cases untilClose : reader.forget.applications.httpBodyUntilClose = true
  · have noSkip : reader.forget.applications.httpSkip = 0 := by omega
    rw [turn_drains noSkip untilClose, Turn.leave.injEq] at left
    have before := @turn_drains (reader.forget.grow more) noSkip untilClose
    have after := @turn_drains (result.forget.grow more)
    rw [← left] at after ⊢
    exact (after noSkip untilClose).trans before.symm
  have ready : reader.forget.Ready := ⟨by omega, by simpa using untilClose⟩
  have same := leave_forget none noChunks ready left
  rw [same]
  rfl

end Turns

section Reads

variable {reader : HttpReader}

theorem read_of_turn {left right : HttpReader} (same : left.turn = right.turn) :
    left.read = right.read := by
  unfold read
  rw [run_unfold turn_decreasing _ _ (Nat.lt_succ_self _),
    run_unfold turn_decreasing _ _ (Nat.lt_succ_self _), same]

theorem read_steady (steady : reader.Steady) : reader.read.Steady := by
  refine run_invariant turn_decreasing Steady Steady ?_ ?_ _ reader (Nat.lt_succ_self _) steady
  · intro before after steady again
    have state := turn_steady steady
    rwa [again] at state
  · intro before after steady left
    have state := turn_steady steady
    rwa [left] at state

/-- Reading what there is and then the rest is reading the whole. -/
theorem read_grow (steady : reader.Steady) (more : List UInt8)
    (small : (reader.grow more).input.length ≤ maxHttpMessageBytes) :
    (reader.read.grow more).read = (reader.grow more).read := by
  refine run_ahead id id turn_decreasing turn_decreasing
    (fun behind ahead => ahead = behind.grow more ∧ behind.Steady ∧
      (behind.grow more).input.length ≤ maxHttpMessageBytes)
    (fun result whole => (result.grow more).read = whole) ?_ ?_ reader _ ⟨rfl, steady, small⟩
  · rintro behind _ next ⟨rfl, steady, small⟩ again
    have state := turn_steady steady
    have shorter := turn_decreasing behind next again
    rw [again] at state
    refine ⟨_, turn_again_grow steady small again, rfl, state, ?_⟩
    simp only [grow, List.length_append] at small shorter ⊢
    omega
  · rintro behind _ result ⟨rfl, steady, small⟩ left
    exact read_of_turn (turn_leave_grow steady more left)

theorem grow_nil (reader : HttpReader) : reader.grow [] = reader := by
  simp [grow]

/-- What a read has left it leaves again. -/
theorem read_read (steady : reader.Steady) : reader.read.read = reader.read := by
  have rests : reader.read.turn = .leave reader.read := by
    refine run_invariant turn_decreasing Steady (fun result => result.turn = .leave result) ?_ ?_ _
      reader (Nat.lt_succ_self _) steady
    · intro before after steady again
      have state := turn_steady steady
      rwa [again] at state
    · intro before after steady left
      have same := turn_leave_grow steady [] left
      rwa [grow_nil, grow_nil, left] at same
  exact run_leave turn_decreasing (Nat.lt_succ_self _) rests

/-- The reads after each of the pieces. -/
def feed (pieces : List (List UInt8)) (reader : HttpReader) : HttpReader :=
  pieces.foldl (fun reader piece => (reader.grow piece).read) reader

theorem feed_steady (steady : reader.Steady) (pieces : List (List UInt8)) :
    (reader.feed pieces).Steady := by
  induction pieces generalizing reader with
  | nil => exact steady
  | cons piece pieces ih => exact ih (read_steady ⟨steady.1.grow piece, steady.2⟩)

theorem feed_rests (steady : reader.Steady) (rests : reader.read = reader)
    (pieces : List (List UInt8)) : (reader.feed pieces).read = reader.feed pieces := by
  induction pieces generalizing reader with
  | nil => exact rests
  | cons piece pieces ih =>
      have grown : (reader.grow piece).Steady := ⟨steady.1.grow piece, steady.2⟩
      exact ih (read_steady grown) (read_read grown)

/-- With nothing unread, there is nothing to read. -/
theorem read_drained (drained : reader.input = []) : reader.read = reader := by
  rcases reader with ⟨input, applications, peer⟩
  simp only at drained
  subst drained
  refine run_leave turn_decreasing (Nat.lt_succ_self _) ?_
  unfold turn
  split_ifs with skipping untilClose
  · unfold skip
    simp only [List.length_nil, Nat.sub_zero, List.drop_nil]
    rw [if_pos skipping]
  · rfl
  · rfl

/-- However the bytes are cut, reading piece by piece is reading the whole. -/
theorem feed_flatten (steady : reader.Steady) (rests : reader.read = reader)
    (pieces : List (List UInt8))
    (small : (reader.grow pieces.flatten).input.length ≤ maxHttpMessageBytes) :
    reader.feed pieces = (reader.grow pieces.flatten).read := by
  induction pieces generalizing reader with
  | nil =>
      rw [List.flatten_nil, grow_nil, rests]
      rfl
  | cons piece pieces ih =>
      have grown : (reader.grow piece).Steady := ⟨steady.1.grow piece, steady.2⟩
      have joined : (reader.grow piece).grow pieces.flatten =
          reader.grow (piece :: pieces).flatten := by
        simp [grow]
      have shorter := (read_suffix (reader.grow piece)).length_le
      rw [← joined] at small ⊢
      have later : (((reader.grow piece).read).grow pieces.flatten).input.length ≤
          maxHttpMessageBytes := by
        simp only [grow, List.length_append] at small shorter ⊢
        omega
      rw [← read_grow grown pieces.flatten small,
        ← ih (read_steady grown) (read_read grown) later]
      rfl

end Reads

end HttpReader

/-- The polls after each of the pieces are the reads after each of them. -/
theorem fed_viewed {key : FlowKey} (http : key.isHttp = true) (notDns : key.isDns = false)
    {pieces : List (List UInt8)} {poll last : StreamPoll} (fed : Fed key pieces poll last) :
    last.view = poll.view.feed pieces := by
  induction fed with
  | nil poll => rfl
  | @cons piece pieces poll last stream appends _ ih =>
      rw [ih, poll_stream_viewed http notDns appends.readable appends.inside]
      have grown : { poll with stream := stream }.view = poll.view.grow piece := by
        simp only [StreamPoll.view, HttpReader.grow, appends.peek]
      rw [grown]
      rfl

/-- However a stream is cut and polled, its messages, failures and unread bytes are those of
polling the whole of it once. -/
theorem http_decoding_ignores_segmentation {key : FlowKey} (http : key.isHttp = true)
    (notDns : key.isDns = false) {earlier pieces : List (List UInt8)}
    {start poll piecewise atOnce : StreamPoll} (drained : start.stream.peek = [])
    (noChunks : start.applications.httpChunkPrefix = 0)
    (noSearch : start.applications.httpResyncScanned = 0)
    (nonePending : start.peer.pendingHeadRequests = []) (reached : Fed key earlier start poll)
    (small : poll.stream.peek.length + pieces.flatten.length ≤ maxHttpMessageBytes)
    (fedPieces : Fed key pieces poll piecewise)
    (fedAtOnce : Fed key [pieces.flatten] poll atOnce) :
    piecewise.applications = atOnce.applications ∧
      piecewise.stream.peek = atOnce.stream.peek ∧ piecewise.peer = atOnce.peer := by
  have startSteady : start.view.Steady := ⟨.nothing noChunks noSearch, nonePending⟩
  have startRests : start.view.read = start.view := HttpReader.read_drained drained
  have steady : poll.view.Steady := by
    rw [fed_viewed http notDns reached]
    exact HttpReader.feed_steady startSteady earlier
  have rests : poll.view.read = poll.view := by
    rw [fed_viewed http notDns reached]
    exact HttpReader.feed_rests startSteady startRests earlier
  have whole : (poll.view.grow pieces.flatten).input.length ≤ maxHttpMessageBytes := by
    simp only [HttpReader.grow, StreamPoll.view, List.length_append]
    exact small
  have same : piecewise.view = atOnce.view := by
    rw [fed_viewed http notDns fedPieces, fed_viewed http notDns fedAtOnce,
      HttpReader.feed_flatten steady rests pieces whole]
    rfl
  simp only [StreamPoll.view, HttpReader.mk.injEq] at same
  exact ⟨same.2.1, same.1, same.2.2⟩

def httpStream : StreamPoll :=
  { stream := { state := .established }, applications := {}, peer := {}, dnsTable := {} }

/-- The start line and the fields of a request whose body is chunked. -/
def chunkedRequest : List UInt8 :=
  text ['P', 'U', 'T', ' ', '/', ' '] ++ Http.http11 ++ text ['\r', '\n'] ++
    Http.transferEncoding ++ text [':'] ++ Http.chunked ++ text ['\r', '\n', '\r', '\n']

/-- A chunked request, a line that is none and a second request, cut inside a line end, a chunk
and the word the second one starts with. -/
def httpPieces : List (List UInt8) :=
  [chunkedRequest.take 15, chunkedRequest.drop 15 ++ text ['2', '\r', '\n', 'a', 'b', '\r'],
    text ['\n', '2', '\r', '\n', 'c'], [],
    text ['d', '\r', '\n', '0', '\r', '\n', '\r', '\n', '?', '\r', '\n', 'G', 'E'],
    text ['T', ' ', '/', ' '] ++ Http.http11 ++ text ['\r', '\n', '\r', '\n', '?', '?']]

theorem http_decoding_ignores_segmentation_pieces :
    (feedAll { dstPort := 80 } httpStream httpPieces).applications =
        (feedAll { dstPort := 80 } httpStream [httpPieces.flatten]).applications ∧
      (feedAll { dstPort := 80 } httpStream httpPieces).applications.httpMessages.length = 2 := by
  have inOrder : InOrder httpStream.stream := ⟨rfl, rfl, by decide, by decide⟩
  have same := http_decoding_ignores_segmentation (by decide) (by decide) rfl rfl rfl rfl
    (.nil httpStream) (by decide) (feed_all_fed { dstPort := 80 } httpStream httpPieces inOrder)
    (feed_all_fed { dstPort := 80 } httpStream [httpPieces.flatten] inOrder)
  exact ⟨same.1, by decide +kernel⟩

end PcapAnalyzer
