import PcapAnalyzer.Decode.DnsFraming
import PcapAnalyzer.Decode.HttpGrowth
import PcapAnalyzer.Protocols.HttpEncoding

/-!
# Polls make progress

A pass of the poll loops that goes round again has taken bytes off the stream, so every poll
ends; and no pass leaves the loop with more unread bytes than a message may have. The search
for the next message after a malformed one misses a single position.
-/

namespace PcapAnalyzer

open AppDecoder MeasuredLoop

set_option autoImplicit false

section Progress

theorem unread_nil {stream : TcpReassembler}
    (outside : ¬ stream.readPos ≤ stream.assembled.length) :
    stream.peek = [] ∧ stream.available = 0 := by
  rw [TcpReassembler.peek, TcpReassembler.available]
  exact ⟨List.drop_eq_nil_of_le (by omega), by omega⟩

/-- Without unread bytes the loop leaves at once. -/
theorem http_turn_unread {poll : HttpPoll} (peek : poll.stream.peek = [])
    (none : poll.stream.available = 0) :
    ∃ left, httpTurn poll = .leave left ∧ left.stream.available = 0 := by
  have waits : parseFront [] = .error .unexpectedEof := by decide
  have notLarge : ¬ poll.stream.available > maxHttpHeaderBytes := by omega
  unfold httpTurn
  by_cases skips : poll.applications.httpSkip > 0
  · have pending : poll.applications.httpSkip - min poll.applications.httpSkip 0 > 0 := by omega
    rw [if_pos skips, skipBody, none]
    simp only [pending, if_true]
    exact ⟨_, rfl, by rw [TcpReassembler.consume_available, none, Nat.zero_sub]⟩
  rw [if_neg skips]
  by_cases drains : poll.applications.httpBodyUntilClose = true
  · rw [if_pos drains]
    exact ⟨_, rfl, by rw [TcpReassembler.consume_available, none]⟩
  · rw [if_neg drains, peek, waits]
    simp only [notLarge, if_false]
    exact ⟨poll, rfl, none⟩

theorem http_turn_decreasing : Decreasing httpTurn fun poll => poll.stream.available := by
  intro poll next pass
  by_cases inside : poll.stream.readPos ≤ poll.stream.assembled.length
  · have viewed := http_turn_viewed inside
    rw [pass] at viewed
    generalize turned : poll.view.turn = turn at viewed
    cases viewed with
    | again viewed =>
        have shorter := HttpReader.turn_decreasing _ _ turned
        rw [viewed.view] at shorter
        simp only [TcpReassembler.available_eq_peek]
        exact shorter
  · obtain ⟨peek, none⟩ := unread_nil inside
    obtain ⟨left, leaves, _⟩ := http_turn_unread peek none
    rw [leaves] at pass
    cases pass

namespace HttpReader

variable {reader result : HttpReader}

theorem resync_backlog (leaves : reader.resync = .leave result) :
    result.input.length ≤ maxHttpMessageBytes := by
  unfold resync at leaves
  simp only at leaves
  split at leaves
  · cases leaves
  · split_ifs at leaves with large
    cases leaves
    exact Nat.le_of_not_lt large

theorem message_backlog {header : Http.Header} {span : List UInt8}
    (leaves : reader.message header span = .leave result) :
    result.input.length ≤ maxHttpMessageBytes := by
  unfold message at leaves
  generalize popHeadRequest header reader.peer = taken at leaves
  rcases taken with ⟨headResponse, peer⟩
  simp only at leaves
  split at leaves
  · exact resync_backlog leaves
  · split_ifs at leaves with large
    · unfold oversized at leaves
      split_ifs at leaves
      exact resync_backlog leaves
    · cases leaves
      exact Nat.le_of_not_lt large
  · cases leaves

/-- However a turn leaves, no more than one message is kept. -/
theorem turn_backlog (leaves : reader.turn = .leave result) :
    result.input.length ≤ maxHttpMessageBytes := by
  unfold turn at leaves
  split_ifs at leaves
  · unfold skip at leaves
    simp only at leaves
    split_ifs at leaves
    cases leaves
    rw [List.length_drop]
    omega
  · cases leaves
    exact Nat.zero_le _
  · split at leaves
    · next front =>
        cases leaves
        unfold httpFront at front
        split at front
        · split_ifs at front with large
          have limits : maxHttpHeaderBytes ≤ maxHttpMessageBytes := by decide
          omega
        · cases front
        · cases front
    · exact resync_backlog leaves
    · exact message_backlog leaves

end HttpReader

theorem http_turn_backlog {poll result : HttpPoll} (leaves : httpTurn poll = .leave result) :
    result.stream.available ≤ maxHttpMessageBytes := by
  by_cases inside : poll.stream.readPos ≤ poll.stream.assembled.length
  · have viewed := http_turn_viewed inside
    rw [leaves] at viewed
    generalize turned : poll.view.turn = turn at viewed
    cases viewed with
    | leave viewed =>
        have bound := HttpReader.turn_backlog turned
        rw [viewed.view] at bound
        rw [TcpReassembler.available_eq_peek]
        exact bound
  · obtain ⟨peek, none⟩ := unread_nil inside
    obtain ⟨left, pass, empty⟩ := http_turn_unread peek none
    rw [pass] at leaves
    cases leaves
    rw [empty]
    exact Nat.zero_le _

/-- A DNS message is waited for as long as its declared length has not arrived. -/
theorem dns_turn_backlog {poll result : DnsPoll} (leaves : dnsTurn poll = .leave result) :
    result.stream.available ≤ 65536 := by
  have declared : ((byteAt poll.stream.peek 0).toNat <<< 8 |||
      (byteAt poll.stream.peek 1).toNat) < 65536 := by
    have high := (byteAt poll.stream.peek 0).toNat_lt
    have low := (byteAt poll.stream.peek 1).toNat_lt
    rw [Nat.or_comm, Nat.shiftLeft_eq, or_of_disjoint _ _ 8 low]
    omega
  unfold dnsTurn at leaves
  simp only at leaves
  split_ifs at leaves with short cut
  · cases leaves
    omega
  · cases leaves
    omega
  · split at leaves <;> cases leaves

end Progress

/-- Whatever has arrived and whatever the decoder state is, the loop of a poll ends, each of its
passes but the last takes bytes off the stream, and what is left is bounded. -/
theorem polls_end_within_backlog :
    (∀ state next, httpTurn state = .again next → next.stream.available < state.stream.available) ∧
    (∀ state next, dnsTurn state = .again next → next.stream.available < state.stream.available) ∧
    (∀ state, Ends httpTurn state (httpLoop state)) ∧
    (∀ state, Ends dnsTurn state (dnsLoop state)) ∧
    ∀ (key : FlowKey) (poll : StreamPoll), poll.stream.hasReadableData = true →
      (key.isDns = true → (pollStream key poll).stream.available ≤ 65536) ∧
      (key.isDns = false → key.isHttp = true →
        (pollStream key poll).stream.available ≤ maxHttpMessageBytes) := by
  refine ⟨http_turn_decreasing, dns_turn_decreasing, ?_, ?_, ?_⟩
  · intro state
    exact ends_run http_turn_decreasing _ state (Nat.lt_succ_self _)
  · intro state
    exact ends_run dns_turn_decreasing _ state (Nat.lt_succ_self _)
  · intro key poll readable
    have readable' : (!poll.stream.hasReadableData) = false := by rw [readable]; rfl
    constructor
    · intro dns
      rw [pollStream, readable', if_neg Bool.false_ne_true, if_pos dns]
      exact run_invariant dns_turn_decreasing (fun _ => True) (fun result =>
        result.stream.available ≤ 65536) (fun _ _ _ _ => trivial)
        (fun _ _ _ leaves => dns_turn_backlog leaves) _ _ (Nat.lt_succ_self _) trivial
    · intro notDns http
      rw [pollStream, readable', if_neg Bool.false_ne_true, notDns, if_neg Bool.false_ne_true,
        if_pos http]
      exact run_invariant http_turn_decreasing (fun _ => True) (fun result =>
        result.stream.available ≤ maxHttpMessageBytes) (fun _ _ _ _ => trivial)
        (fun _ _ _ leaves => http_turn_backlog leaves) _ _ (Nat.lt_succ_self _) trivial

/-- A chunk that announces all of 64 bits, on either port. -/
theorem polls_end_within_backlog_chunk :
    let announced : TcpReassembler :=
      { state := .established
        assembled := Http.http11 ++ text [' ', '2', '0', '0', ' '] ++ Http.crlf ++
          Http.transferEncoding ++ text [':'] ++ Http.chunked ++ Http.crlf ++ Http.crlf ++
          List.replicate 16 (code 'f') ++ Http.crlf ++ text ['x'] }
    let poll : StreamPoll :=
      { stream := announced, applications := {}, peer := {}, dnsTable := {} }
    (pollStream { dstPort := 80 } poll).stream.available ≤ maxHttpMessageBytes ∧
      (pollStream { dstPort := 53 } poll).stream.available ≤ 65536 := by
  intro announced poll
  have bounded := polls_end_within_backlog.2.2.2.2
  exact ⟨(bounded { dstPort := 80 } poll (by decide)).2 (by decide) (by decide),
    (bounded { dstPort := 53 } poll (by decide)).1 (by decide)⟩

section Search

/-- A message can start at `q`: behind the end of a line stands one of the markers. -/
def StartsMessage (buf : List UInt8) (q : Nat) : Prop :=
  2 ≤ q ∧ byteAt buf (q - 2) = code '\r' ∧ byteAt buf (q - 1) = code '\n' ∧
    ∃ marker ∈ httpMarkers, marker <+: buf.drop q

/-- The first position at which a message can start, if there is one. -/
def FirstStart (buf : List UInt8) : Option Nat → Prop
  | none => ∀ q, ¬ StartsMessage buf q
  | some q => StartsMessage buf q ∧ ∀ earlier < q, ¬ StartsMessage buf earlier

theorem resync_at_starts {buf : List UInt8} {p : Nat} :
    resyncAt buf p = true ↔ 2 ≤ p ∧ StartsMessage buf (p + 1) := by
  rw [resync_at_iff]
  constructor
  · rintro ⟨feed, late, ret, marker⟩
    have before : p + 1 - 2 = p - 1 := by omega
    exact ⟨late, by omega, by rwa [before], feed, marker⟩
  · rintro ⟨late, -, ret, feed, marker⟩
    have before : p + 1 - 2 = p - 1 := by omega
    rw [before] at ret
    exact ⟨feed, late, ret, marker⟩

/-- The search finds the first position at which a message can start, unless that is behind a
line end at the very start of the buffer. -/
theorem find_http_resync_first_iff (buf : List UInt8) :
    FirstStart buf (findHttpResync buf 0) ↔ ¬ StartsMessage buf 2 := by
  constructor
  · intro first start
    cases search : findHttpResync buf 0 with
    | none =>
        rw [search] at first
        exact first 2 start
    | some found =>
        rw [search] at first
        obtain ⟨p, rfl, -, here, -⟩ := find_http_resync_some.mp search
        have late := (resync_at_starts.mp here).1
        exact first.2 2 (by omega) start
  · intro noStart
    have searched : ∀ q, StartsMessage buf q → ∃ p, q = p + 1 ∧ resyncAt buf p = true := by
      intro q start
      have early := start.1
      obtain ⟨p, rfl⟩ : ∃ p, q = p + 1 := ⟨q - 1, by omega⟩
      refine ⟨p, rfl, resync_at_starts.mpr ⟨?_, start⟩⟩
      by_contra first
      obtain rfl : p = 1 := by omega
      exact noStart start
    cases search : findHttpResync buf 0 with
    | none =>
        intro q start
        obtain ⟨p, rfl, here⟩ := searched q start
        rw [find_http_resync_none.mp search p (Nat.zero_le _)] at here
        cases here
    | some found =>
        obtain ⟨p, rfl, -, here, before⟩ := find_http_resync_some.mp search
        refine ⟨(resync_at_starts.mp here).2, ?_⟩
        intro earlier less start
        obtain ⟨q, rfl, found⟩ := searched earlier start
        rw [before q (Nat.zero_le _) (by omega)] at found
        cases found

/-- A request behind an empty line at the start of the buffer is not found. -/
theorem request_behind_empty_line_is_missed :
    ¬ ∀ buf, FirstStart buf (findHttpResync buf 0) := by
  intro always
  have first := always (Http.crlf ++ text ['G', 'E', 'T', ' '])
  have search : findHttpResync (Http.crlf ++ text ['G', 'E', 'T', ' ']) 0 = none := by decide
  rw [search] at first
  exact first 2 ⟨le_rfl, by decide, by decide, text ['G', 'E', 'T', ' '], by decide, by decide⟩

end Search

end PcapAnalyzer
