import PcapAnalyzer.Flow.TcpRun

/-!
# Closing a connection

The closing states are reached by FINs only: an own FIN that `next_seq` has reached, a FIN
of the other side, an acknowledgement behind the own FIN. `Closed` does not last: its
transitions are those of a connection that has not been seen yet.
-/

namespace PcapAnalyzer.TcpReassembler

open SerialNumber (int32)

set_option autoImplicit false

section Closed

/-- A segment without SYN. -/
def Event.PlainSegment : Event → Prop
  | .sent header _ => header.syn = false
  | .received header => header.syn = false
  | .consume _ => False

instance : DecidablePred Event.PlainSegment
  | .sent header _ => inferInstanceAs (Decidable (header.syn = false))
  | .received header => inferInstanceAs (Decidable (header.syn = false))
  | .consume _ => inferInstanceAs (Decidable False)

/-- What takes a closed connection up as if it were an unknown one: an ACK of the other
side, or one of this side when it has sent nothing before. -/
def Reopens (stream : TcpReassembler) : Event → Prop
  | .sent header _ => header.rst = false ∧ stream.seeded = false ∧ header.ack = true
  | .received header => header.rst = false ∧ header.ack = true
  | .consume _ => False

instance (stream : TcpReassembler) : DecidablePred (Reopens stream)
  | .sent header _ => inferInstanceAs (Decidable (header.rst = false ∧ _ ∧ header.ack = true))
  | .received header => inferInstanceAs (Decidable (header.rst = false ∧ header.ack = true))
  | .consume _ => inferInstanceAs (Decidable False)

variable {stream : TcpReassembler}

theorem closed_step {event : Event} (closed : stream.state = .closed)
    (plain : event.PlainSegment) (stays : ¬ Reopens stream event) : stream.step event = stream := by
  have same : { stream with state := .closed } = stream := by rw [← closed]
  cases event with
  | sent header span =>
      have noSyn : header.syn = false := plain
      simp only [Reopens, not_and, Bool.not_eq_true] at stays
      simp only [step, onSent, closed, noSyn]
      cases rst : header.rst with
      | true => simpa using same
      | false =>
          cases seeded : stream.seeded with
          | false => simp [stays rst seeded]
          | true => simp
  | received header =>
      have noSyn : header.syn = false := plain
      simp only [Reopens, not_and, Bool.not_eq_true] at stays
      simp only [step, onReceived, closed, noSyn]
      cases rst : header.rst with
      | true => simpa using same
      | false => simp [stays rst]
  | consume n => exact absurd plain id

theorem closed_reopens {event : Event} (closed : stream.state = .closed)
    (plain : event.PlainSegment) (reopens : Reopens stream event) :
    (stream.step event).state ≠ .closed := by
  cases event with
  | sent header span =>
      have noSyn : header.syn = false := plain
      obtain ⟨rst, seeded, ack⟩ := reopens
      have opened : stream.dataStart header = some { stream with
          nextSeq := header.seqNumber, seeded := true, state := .established } := by
        simp [dataStart, rst, seeded, noSyn, ack, closed]
      have taken : stream.onSent header span = ({ stream with
          nextSeq := header.seqNumber, seeded := true, state := .established } :
            TcpReassembler).onData header span := by
        simp [onSent, rst, seeded, noSyn, ack, closed]
      rw [step, taken, on_data_eq]
      have state := (marked_control { stream with
        nextSeq := header.seqNumber, seeded := true, state := .established } header span).1
      split_ifs
      · simp [finish, state]
      · simp [state]
  | received header =>
      have noSyn : header.syn = false := plain
      obtain ⟨rst, ack⟩ := reopens
      simp only [step, onReceived, closed, noSyn, rst, ack]
      cases header.fin <;> simp
  | consume n => exact absurd plain id

theorem closed_run (closed : stream.state = .closed) (events : List Event)
    (plain : ∀ event ∈ events, event.PlainSegment)
    (stays : ∀ event ∈ events, ¬ Reopens stream event) : stream.run events = stream := by
  induction events with
  | nil => rfl
  | cons event rest ih =>
      rw [run_cons, closed_step closed (plain event (by simp)) (stays event (by simp))]
      exact ih (fun other member => plain other (by simp [member]))
        (fun other member => stays other (by simp [member]))

/-- A closed connection stays closed, unreadable and as it is for as long as no ACK reaches it,
and no longer. -/
theorem closed_stays_closed_iff (stream : TcpReassembler) (closed : stream.state = .closed)
    (events : List Event) (plain : ∀ event ∈ events, event.PlainSegment) :
    (∀ first, first <+: events → (stream.run first).state = .closed ∧
        (stream.run first).hasReadableData = false ∧
        (stream.run first).assembled = stream.assembled) ↔
      ∀ event ∈ events, ¬ Reopens stream event := by
  constructor
  · intro stays
    induction events with
    | nil => simp
    | cons event rest ih =>
        have last := (stays [event] (by simp)).1
        have calm : ¬ Reopens stream event :=
          fun reopens => closed_reopens closed (plain event (by simp)) reopens last
        have same := closed_step closed (plain event (by simp)) calm
        have later := ih (fun other member => plain other (by simp [member])) (by
          intro first initial
          have whole := stays (event :: first) (by simpa using initial)
          rwa [run_cons, same] at whole)
        simpa [calm] using later
  · intro calm first initial
    have same := closed_run closed first (fun event member => plain event (initial.subset member))
      (fun event member => calm event (initial.subset member))
    rw [same]
    exact ⟨closed, by simp [hasReadableData, closed], rfl⟩

def ackHeader (seq : UInt32) : Tcp.Header := { seqNumber := seq, flags := 0x10 }

def rstHeader : Tcp.Header := { flags := 0x04 }

theorem closed_stays_closed_iff_after_rst :
    ((fresh true).run [.sent (ackHeader 1) [], .received rstHeader]).state = .closed ∧
      ∀ first, first <+: [Event.sent (ackHeader 1) [7], .received rstHeader] →
        (((fresh true).run [.sent (ackHeader 1) [], .received rstHeader]).run first).state =
          .closed :=
  ⟨by decide, fun first initial => ((closed_stays_closed_iff
    ((fresh true).run [.sent (ackHeader 1) [], .received rstHeader]) (by decide)
    [Event.sent (ackHeader 1) [7], .received rstHeader]
    (by decide)).mpr (by decide) first initial).1⟩

/-- After an RST one late ACK of the other side is enough: data is taken in and read again. -/
theorem late_ack_reopens_closed :
    let stream := (fresh true).run [.sent (ackHeader 1) [], .received rstHeader]
    let after := stream.run [.received (ackHeader 9), .sent (ackHeader 1) [7]]
    stream.state = .closed ∧ stream.assembled = [] ∧
      after.state = .established ∧ after.hasReadableData = true ∧ after.assembled = [7] := by
  decide

end Closed

/-- The states behind an own FIN. -/
def OwnClosing (state : TcpState) : Prop :=
  state = .finWait1 ∨ state = .finWait2 ∨ state = .closing ∨ state = .lastAck ∨ state = .timeWait

/-- The states behind a FIN of the other side. -/
def PeerClosing (state : TcpState) : Prop :=
  state = .closeWait ∨ state = .lastAck ∨ state = .closing ∨ state = .timeWait

/-- The states behind an acknowledgement of the own FIN. -/
def OwnAcknowledged (state : TcpState) : Prop := state = .finWait2 ∨ state = .timeWait

/-- Some segment sent so far carried a FIN at the given sequence position. -/
def FinSent (events : List Event) (finSeq : UInt32) : Prop :=
  ∃ header span, Event.sent header span ∈ events ∧ header.fin = true ∧
    finSeq = header.seqNumber + UInt32.ofNat span.length

/-- An own FIN was processed when `reached` had been called, and `next_seq` has not moved
since. -/
structure ClosedAt (stream : TcpReassembler) (events reached : List Event) : Prop where
  processed : ∃ finSeq, OwnFin stream events reached finSeq ∧ FinSent reached finSeq
  since : ∀ middle, reached <+: middle → middle <+: events →
    (stream.run middle).nextSeq = (stream.run reached).nextSeq

/-- An ACK at or past the `next_seq` in force since `reached` was received after it. -/
def AcknowledgedAfter (stream : TcpReassembler) (events reached : List Event) : Prop :=
  ∃ before header, reached <+: before ∧ before ++ [.received header] <+: events ∧
    header.ack = true ∧ int32 (header.ackNumber - (stream.run reached).nextSeq) ≥ 0

/-- What the closing states of a run are owed to. -/
structure Justified (stream : TcpReassembler) (events : List Event) (final : TcpReassembler) :
    Prop where
  seen : final.finSeen = true → FinSent events final.finSeq
  own : OwnClosing final.state → ∃ reached, ClosedAt stream events reached ∧
    (OwnAcknowledged final.state → AcknowledgedAfter stream events reached)
  peer : PeerClosing final.state → ∃ header, Event.received header ∈ events ∧ header.fin = true

theorem FinSent.append {events : List Event} {finSeq : UInt32} (sent : FinSent events finSeq)
    (more : List Event) : FinSent (events ++ more) finSeq := by
  obtain ⟨header, span, member, fin, position⟩ := sent
  exact ⟨header, span, by simp [member], fin, position⟩

section Step

variable {stream : TcpReassembler} {events reached : List Event}

/-- A call that leaves `next_seq` alone leaves an own FIN the last word. -/
theorem ClosedAt.append_one (closed : ClosedAt stream events reached) (event : Event)
    (same : ((stream.run events).step event).nextSeq = (stream.run events).nextSeq) :
    ClosedAt stream (events ++ [event]) reached := by
  obtain ⟨finSeq, fin, sent⟩ := closed.processed
  refine ⟨⟨finSeq, fin.append _, sent⟩, ?_⟩
  intro middle after before
  rcases List.prefix_concat_iff.mp before with whole | earlier
  · rw [whole, run_append_one, same]
    exact closed.since events fin.earlier List.prefix_rfl
  · exact closed.since middle after earlier

theorem AcknowledgedAfter.append (acked : AcknowledgedAfter stream events reached)
    (more : List Event) : AcknowledgedAfter stream (events ++ more) reached := by
  obtain ⟨before, header, after, inside, ack, past⟩ := acked
  exact ⟨before, header, after, inside.trans (List.prefix_append _ _), ack, past⟩

/-- A received segment leads to a closing state only by a FIN or by an acknowledgement of the
own one. -/
theorem on_received_closing (stream : TcpReassembler) (header : Tcp.Header) :
    (OwnClosing (stream.onReceived header).state → OwnClosing stream.state) ∧
    (OwnAcknowledged (stream.onReceived header).state → OwnAcknowledged stream.state ∨
      header.ack = true ∧ int32 (header.ackNumber - stream.nextSeq) ≥ 0) ∧
    (PeerClosing (stream.onReceived header).state →
      PeerClosing stream.state ∨ header.fin = true) := by
  unfold onReceived
  by_cases rst : header.rst = true
  · simp [rst, OwnClosing, OwnAcknowledged, PeerClosing]
  simp only [rst, Bool.false_eq_true, if_false]
  cases state : stream.state <;> simp only
  case closeWait | timeWait => simp [OwnClosing, OwnAcknowledged, PeerClosing, state]
  all_goals
    split_ifs <;> simp_all [OwnClosing, OwnAcknowledged, PeerClosing, acknowledged]

/-- A call that moves neither `next_seq` nor the seen FIN keeps the reasons for the state. -/
theorem Justified.keep (justified : Justified stream events (stream.run events)) (event : Event)
    (same : ((stream.run events).step event).nextSeq = (stream.run events).nextSeq)
    (seen : ((stream.run events).step event).finSeen = (stream.run events).finSeen ∧
      ((stream.run events).step event).finSeq = (stream.run events).finSeq)
    (own : OwnClosing ((stream.run events).step event).state → OwnClosing (stream.run events).state)
    (acked : OwnAcknowledged ((stream.run events).step event).state →
      OwnAcknowledged (stream.run events).state ∨ ∃ header, event = .received header ∧
        header.ack = true ∧ int32 (header.ackNumber - (stream.run events).nextSeq) ≥ 0)
    (peer : PeerClosing ((stream.run events).step event).state →
      PeerClosing (stream.run events).state ∨
        ∃ header, event = .received header ∧ header.fin = true) :
    Justified stream (events ++ [event]) ((stream.run events).step event) := by
  constructor
  · intro known
    rw [seen.2]
    exact (justified.seen (seen.1 ▸ known)).append _
  · intro closing
    obtain ⟨reached, closed, before⟩ := justified.own (own closing)
    refine ⟨reached, closed.append_one event same, ?_⟩
    intro acknowledged
    rcases acked acknowledged with earlier | ⟨header, rfl, ack, past⟩
    · exact (before earlier).append _
    · obtain ⟨_, fin, _⟩ := closed.processed
      refine ⟨events, header, fin.earlier, List.prefix_rfl, ack, ?_⟩
      rwa [closed.since events fin.earlier List.prefix_rfl] at past
  · intro closing
    rcases peer closing with earlier | ⟨header, rfl, fin⟩
    · obtain ⟨header, member, fin⟩ := justified.peer earlier
      exact ⟨header, by simp [member], fin⟩
    · exact ⟨header, by simp, fin⟩

/-- The FIN in `marked` is the one of the segment or the one seen before. -/
theorem marked_fin (start : TcpReassembler) (header : Tcp.Header) (span : List UInt8)
    (seen : (start.marked header span).finSeen = true) :
    header.fin = true ∧ (start.marked header span).finSeq =
        header.seqNumber + UInt32.ofNat span.length ∨
      start.finSeen = true ∧ (start.marked header span).finSeq = start.finSeq := by
  have taken := ingest_control start header.seqNumber span
  unfold marked at seen ⊢
  by_cases fin : header.fin = true
  · simp only [fin, if_true] at seen ⊢
    exact Or.inl (by simp)
  · simp only [fin, if_false, Bool.false_eq_true] at seen ⊢
    exact Or.inr ⟨taken.finSeen ▸ seen, taken.finSeq⟩

/-- The FIN in `marked` has been sent by then. -/
theorem Justified.fin_sent (justified : Justified stream events (stream.run events))
    {header : Tcp.Header} {span : List UInt8} {start : TcpReassembler}
    (taken : (stream.run events).dataStart header = some start)
    (known : (start.marked header span).finSeen = true) :
    FinSent (events ++ [.sent header span]) (start.marked header span).finSeq := by
  obtain ⟨-, -, -, frame⟩ := data_start_frame _ _ taken
  have seen : start.finSeen = (stream.run events).finSeen ∧
      start.finSeq = (stream.run events).finSeq := by
    rcases frame with ⟨same, -⟩ | ⟨same, -⟩ <;> rw [same] <;> exact ⟨rfl, rfl⟩
  rcases marked_fin start header span known with ⟨fin, position⟩ | ⟨earlier, position⟩
  · exact ⟨header, span, by simp, fin, position⟩
  · rw [position, seen.2]
    exact (justified.seen (seen.1 ▸ earlier)).append _

/-- A segment that is taken in leaves the closing states alone, or processes an own FIN. -/
theorem Justified.take (justified : Justified stream events (stream.run events))
    {header : Tcp.Header} {span : List UInt8} {start : TcpReassembler}
    (taken : (stream.run events).dataStart header = some start)
    (sent : (stream.run events).onSent header span = start.onData header span) :
    Justified stream (events ++ [.sent header span])
      ((stream.run events).step (.sent header span)) := by
  obtain ⟨-, -, open_, -⟩ := data_start_frame _ _ taken
  have control := marked_control start header span
  have finSent : (start.marked header span).finSeen = true → _ := justified.fin_sent taken
  have peer : start.state = .closeWait →
      ∃ other, Event.received other ∈ events ++ [.sent header span] ∧ other.fin = true := by
    intro waits
    have before : (stream.run events).state = .closeWait := by
      rcases open_ with established | closing
      · rw [established] at waits
        cases waits
      · exact closing.2
    obtain ⟨other, member, fin⟩ := justified.peer (Or.inl before)
    exact ⟨other, by simp [member], fin⟩
  have stepped : (stream.run events).step (.sent header span) = start.onData header span := sent
  rw [stepped, on_data_eq]
  split_ifs with due
  · have processed : ClosedAt stream (events ++ [.sent header span])
        (events ++ [.sent header span]) := by
      refine ⟨⟨_, ⟨List.prefix_rfl, events, header, span, rfl, start, taken, due, rfl⟩,
        finSent due.1⟩, ?_⟩
      intro middle after before
      rw [List.IsPrefix.eq_of_length_le after before.length_le]
    constructor
    · intro known
      simp [finish] at known
    · intro _
      refine ⟨_, processed, ?_⟩
      simp only [finish]
      split_ifs <;> simp [OwnAcknowledged]
    · simp only [finish, control.1]
      split_ifs with waits
      · exact fun _ => peer waits
      · simp [PeerClosing]
  · constructor
    · exact finSent
    · rw [control.1]
      rcases open_ with established | ⟨closing, -⟩
      · simp [established, OwnClosing]
      · simp [closing, OwnClosing]
    · rw [control.1]
      rcases open_ with established | ⟨closing, -⟩
      · simp [established, PeerClosing]
      · exact fun _ => peer closing

theorem Justified.step (justified : Justified stream events (stream.run events)) (event : Event) :
    Justified stream (events ++ [event]) ((stream.run events).step event) := by
  cases event with
  | sent header span =>
      rcases on_sent_cases (stream.run events) header span with
        ⟨-, closed⟩ | ⟨-, -, -, seeded⟩ | ⟨start, taken, sent⟩ | ⟨-, -, ignored⟩
      · refine justified.keep _ ?_ ?_ ?_ ?_ ?_ <;> simp only [TcpReassembler.step, closed] <;>
          simp [OwnClosing, OwnAcknowledged, PeerClosing]
      · have control := ingest_control ((stream.run events).seed header) (header.seqNumber + 1) span
        have state : ((stream.run events).step (.sent header span)).state =
            if header.ack then .synReceived else .synSent := by
          rw [TcpReassembler.step, seeded, control.state]
          rfl
        constructor
        · intro known
          rw [TcpReassembler.step, seeded] at known ⊢
          rw [control.finSeen] at known
          rw [control.finSeq]
          exact (justified.seen known).append _
        · rw [state]
          split_ifs <;> simp [OwnClosing]
        · rw [state]
          split_ifs <;> simp [PeerClosing]
      · exact justified.take taken sent
      · refine justified.keep _ ?_ ?_ ?_ ?_ ?_ <;> simp only [TcpReassembler.step, ignored] <;>
          simp +contextual
  | received header =>
      obtain ⟨state, moved⟩ := on_received_frame (stream.run events) header
      obtain ⟨own, acked, peer⟩ := on_received_closing (stream.run events) header
      refine justified.keep _ ?_ ?_ own ?_ ?_
      · simp only [TcpReassembler.step, moved]
      · simp only [TcpReassembler.step, moved, and_self]
      · exact fun known => (acked known).imp_right fun past => ⟨header, rfl, past⟩
      · exact fun known => (peer known).imp_right fun fin => ⟨header, rfl, fin⟩
  | consume n =>
      obtain ⟨assembled, readPos, read⟩ := consume_frame (stream.run events) n
      refine justified.keep _ ?_ ?_ ?_ ?_ ?_ <;> simp only [TcpReassembler.step, read] <;>
        simp +contextual

end Step

theorem run_justified (keepPayload : Bool) (events : List Event) :
    Justified (fresh keepPayload) events ((fresh keepPayload).run events) :=
  run_history (fresh keepPayload) (Justified (fresh keepPayload))
    ⟨by simp [fresh], by simp [fresh, OwnClosing], by simp [fresh, PeerClosing]⟩
    (fun _ event justified => justified.step event) events

/-- A FIN that is processed has been sent. -/
theorem OwnFin.sent {keepPayload : Bool} {events reached : List Event} {finSeq : UInt32}
    (own : OwnFin (fresh keepPayload) events reached finSeq) : FinSent reached finSeq := by
  obtain ⟨before, header, span, rfl, start, taken, due, rfl⟩ := own.processed
  exact (run_justified keepPayload before).fin_sent taken due.1

/-- In every run, a closing state of the own side follows an own FIN that `next_seq` had
reached, one of the other side a FIN received from it, and `FinWait2` and `TimeWait` an ACK
that covers the own FIN. -/
theorem closing_states_follow_fins (keepPayload : Bool) (events : List Event) :
    let final := (fresh keepPayload).run events
    (OwnClosing final.state → ∃ reached, ClosedAt (fresh keepPayload) events reached ∧
      (OwnAcknowledged final.state → AcknowledgedAfter (fresh keepPayload) events reached)) ∧
    (PeerClosing final.state →
      ∃ header, Event.received header ∈ events ∧ header.fin = true) := by
  have justified := run_justified keepPayload events
  exact ⟨justified.own, justified.peer⟩

end PcapAnalyzer.TcpReassembler
