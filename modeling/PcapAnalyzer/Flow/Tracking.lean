import PcapAnalyzer.Flow.OutOfOrder
import PcapAnalyzer.Library.RunPrefixes

/-!
# Tracking a connection

What a reassembler reports of a connection is its state and the sequence numbers of its own
side. Without the payload nothing is buffered, so `next_seq` stops in front of every gap
that is filled later; other than that the payload does not matter.
-/

namespace PcapAnalyzer.TcpReassembler

open SerialNumber

set_option autoImplicit false

/-- Two reassemblers that track the connection alike. -/
structure SameTracking (left right : TcpReassembler) : Prop where
  state : left.state = right.state
  nextSeq : left.nextSeq = right.nextSeq
  finSeen : left.finSeen = right.finSeen
  finSeq : left.finSeq = right.finSeq
  seeded : left.seeded = right.seeded

/-- The segment arrives at the front and brings `next_seq` to a buffered segment that extends
beyond it. -/
def GapFilled (stream : TcpReassembler) (seq : UInt32) (span : List UInt8) : Prop :=
  let reached := (stream.ingestUnkept seq span).nextSeq
  (seq = stream.nextSeq ∨ reached ≠ stream.nextSeq) ∧
    ∃ segment ∈ stream.outOfOrder.takeWhile fun segment => int32 (segment.seq - reached) ≤ 0,
      (reached - segment.seq).toNat < segment.data.length

/-- The call takes in a segment that fills a gap. -/
def FillsGap (stream : TcpReassembler) : Event → Prop
  | .sent header span =>
      ∃ start, stream.dataStart header = some start ∧ start.GapFilled header.seqNumber span
  | .received _ => False
  | .consume _ => False

/-- Draining moves `next_seq` by at most what is buffered, and by nothing unless a segment it
reaches extends beyond it. -/
theorem drain_from_advance (segments : List Segment) (stream : TcpReassembler) :
    ∃ count ≤ bytesOf segments,
      (drainFrom segments stream).nextSeq = stream.nextSeq + UInt32.ofNat count ∧
      (0 < count ↔ ∃ segment ∈ segments.takeWhile fun segment =>
          int32 (segment.seq - stream.nextSeq) ≤ 0,
        (stream.nextSeq - segment.seq).toNat < segment.data.length) := by
  induction segments generalizing stream with
  | nil => exact ⟨0, le_rfl, by simp [drainFrom], by simp⟩
  | cons segment rest ih =>
      have covered : 0 - (segment.seq - stream.nextSeq) = stream.nextSeq - segment.seq := by
        rw [UInt32.zero_sub, UInt32.neg_sub]
      simp only [drainFrom, covered, List.takeWhile_cons]
      by_cases ahead : int32 (segment.seq - stream.nextSeq) > 0
      · have test : decide (int32 (segment.seq - stream.nextSeq) ≤ 0) = false := by
          simpa using ahead
        simp only [ahead, test, if_true, Bool.false_eq_true, if_false]
        exact ⟨0, Nat.zero_le _, by simp, by simp⟩
      · have test : decide (int32 (segment.seq - stream.nextSeq) ≤ 0) = true := by
          simpa using ahead
        simp only [ahead, test, if_true, if_false]
        by_cases longer : (stream.nextSeq - segment.seq).toNat < segment.data.length
        · simp only [longer, if_true]
          obtain ⟨count, bound, moved, -⟩ := ih { stream with
            assembled := stream.assembled ++
              segment.data.drop (stream.nextSeq - segment.seq).toNat
            nextSeq := stream.nextSeq + UInt32.ofNat
              (segment.data.length - (stream.nextSeq - segment.seq).toNat)
            oooBytes := stream.oooBytes - segment.data.length }
          refine ⟨segment.data.length - (stream.nextSeq - segment.seq).toNat + count,
            by simp only [bytes_of_cons]; omega, ?_, ?_⟩
          · rw [moved, UInt32.ofNat_add, UInt32.add_assoc]
          · exact ⟨fun _ => ⟨segment, by simp, longer⟩, fun _ => by omega⟩
        · simp only [longer, if_false]
          obtain ⟨count, bound, moved, positive⟩ :=
            ih { stream with oooBytes := stream.oooBytes - segment.data.length }
          refine ⟨count, by simp only [bytes_of_cons]; omega, moved, ?_⟩
          rw [positive]
          simp [longer]

section Ingest

theorem buffer_ahead_next_seq (stream : TcpReassembler) (seq : UInt32) (span : List UInt8) :
    (stream.bufferAhead seq span).nextSeq = stream.nextSeq := by
  have buffers := buffer_ahead_buffers stream seq span
  generalize stream.bufferAhead seq span = buffered at buffers ⊢
  cases buffers with
  | leftOut => rfl
  | putIn => rfl
  | replaced => rfl

/-- Keeping the payload moves `next_seq` further exactly if a gap is filled. -/
theorem ingest_gap (stream : TcpReassembler) (keeps : stream.keepPayload = true) (seq : UInt32)
    (span : List UInt8) :
    ∃ count ≤ bytesOf stream.outOfOrder,
      (stream.ingest seq span).nextSeq =
        (stream.ingestUnkept seq span).nextSeq + UInt32.ofNat count ∧
      (0 < count ↔ stream.GapFilled seq span) := by
  unfold ingest GapFilled
  rw [if_neg (by simp [keeps])]
  by_cases here : seq = stream.nextSeq
  · subst here
    have reached : (stream.ingestUnkept stream.nextSeq span).nextSeq =
        stream.nextSeq + UInt32.ofNat span.length := by
      simp [ingestUnkept]
    obtain ⟨count, bound, moved, positive⟩ := drain_from_advance stream.outOfOrder
      { stream with
        assembled := stream.assembled ++ span
        nextSeq := stream.nextSeq + UInt32.ofNat span.length }
    simp only [reached, if_true, true_or, true_and]
    exact ⟨count, bound, moved, positive⟩
  by_cases ahead : int32 (seq - stream.nextSeq) > 0
  · have reached : (stream.ingestUnkept seq span).nextSeq = stream.nextSeq := by
      simp only [ingestUnkept, here, if_false]
      rw [if_neg (by omega)]
    simp only [here, ahead, if_true, if_false, reached, buffer_ahead_next_seq]
    exact ⟨0, Nat.zero_le _, by simp, by simp⟩
  have behind : int32 (seq - stream.nextSeq) < 0 := by
    have apart : (seq - stream.nextSeq).toNat ≠ 0 := by
      intro zero
      have same : seq - stream.nextSeq = 0 := UInt32.toNat_inj.mp zero
      rw [UInt32.sub_eq_iff_eq_add, UInt32.zero_add] at same
      exact here same
    rw [gt_iff_lt, int32_pos] at ahead
    rw [int32_neg]
    omega
  by_cases overlaps : stream.nextSeq - seq < UInt32.ofNat span.length
  · have reached : (stream.ingestUnkept seq span).nextSeq =
        stream.nextSeq + (UInt32.ofNat span.length - (stream.nextSeq - seq)) := by
      simp [ingestUnkept, here, behind, overlaps]
    have moves : stream.nextSeq + (UInt32.ofNat span.length - (stream.nextSeq - seq)) ≠
        stream.nextSeq := by
      intro same
      rw [UInt32.add_eq_left, UInt32.sub_eq_iff_eq_add, UInt32.zero_add] at same
      rw [same] at overlaps
      exact UInt32.lt_irrefl _ overlaps
    obtain ⟨count, bound, moved, positive⟩ := drain_from_advance stream.outOfOrder
      { stream with
        assembled := stream.assembled ++ span.drop (stream.nextSeq - seq).toNat
        nextSeq := stream.nextSeq + (UInt32.ofNat span.length - (stream.nextSeq - seq)) }
    simp only [here, ahead, overlaps, if_true, if_false, reached, ne_eq, moves, not_false_eq_true,
      or_true, true_and]
    exact ⟨count, bound, moved, positive⟩
  · have reached : (stream.ingestUnkept seq span).nextSeq = stream.nextSeq := by
      simp [ingestUnkept, here, behind, overlaps]
    simp only [here, ahead, overlaps, if_false, reached]
    exact ⟨0, Nat.zero_le _, by simp, by simp⟩

end Ingest

section Step

variable {left right : TcpReassembler}

theorem ingest_unkept_tracking (same : SameTracking left right) (seq : UInt32)
    (span : List UInt8) :
    (left.ingestUnkept seq span).nextSeq = (right.ingestUnkept seq span).nextSeq := by
  simp only [ingestUnkept, same.nextSeq]
  split_ifs <;> simp [same.nextSeq]

/-- The two passes through `onData` agree exactly if no gap is filled. -/
theorem on_data_tracking (same : SameTracking left right) (keeps : left.keepPayload = true)
    (drops : right.keepPayload = false) (counted : Counted left) (header : Tcp.Header)
    (span : List UInt8) :
    SameTracking (left.onData header span) (right.onData header span) ↔
      ¬ left.GapFilled header.seqNumber span := by
  obtain ⟨count, bound, moved, filled⟩ := ingest_gap left keeps header.seqNumber span
  have unkept : right.ingest header.seqNumber span = right.ingestUnkept header.seqNumber span := by
    simp [ingest, drops]
  rw [ingest_unkept_tracking same, ← unkept] at moved
  have leftControl := ingest_control left header.seqNumber span
  have rightControl := ingest_control right header.seqNumber span
  have limit : count ≤ 1048576 := by
    have cap := counted.cap
    rw [counted.bytes] at cap
    exact le_trans bound cap
  have marks : (left.marked header span).state = (right.marked header span).state ∧
      (left.marked header span).finSeen = (right.marked header span).finSeen ∧
      (left.marked header span).finSeq = (right.marked header span).finSeq ∧
      (left.marked header span).seeded = (right.marked header span).seeded ∧
      (left.marked header span).nextSeq =
        (right.marked header span).nextSeq + UInt32.ofNat count := by
    unfold marked
    simp only
    split_ifs
    · exact ⟨by simp [leftControl.state, rightControl.state, same.state], rfl, rfl,
        by simp [leftControl.seeded, rightControl.seeded, same.seeded], moved⟩
    · exact ⟨by simp [leftControl.state, rightControl.state, same.state],
        by simp [leftControl.finSeen, rightControl.finSeen, same.finSeen],
        by simp [leftControl.finSeq, rightControl.finSeq, same.finSeq],
        by simp [leftControl.seeded, rightControl.seeded, same.seeded], moved⟩
  rw [← filled, on_data_eq, on_data_eq]
  generalize left.marked header span = leftMark at marks
  generalize right.marked header span = rightMark at marks
  obtain ⟨state, finSeen, finSeq, seeded, nextSeq⟩ := marks
  constructor
  · intro tracking positive
    have apart : leftMark.nextSeq ≠ rightMark.nextSeq := by
      intro equal
      rw [nextSeq, UInt32.add_eq_left] at equal
      have zero := congrArg UInt32.toNat equal
      rw [UInt32.toNat_ofNat'] at zero
      have none : UInt32.toNat 0 = 0 := rfl
      omega
    split_ifs at tracking with leftDue rightDue rightDue
    · exact apart ((UInt32.add_left_inj 1).mp tracking.nextSeq)
    · have seen := tracking.finSeen
      simp only [finish] at seen
      rw [← finSeen, leftDue.1] at seen
      cases seen
    · have seen := tracking.finSeen
      simp only [finish] at seen
      rw [finSeen, rightDue.1] at seen
      cases seen
    · exact apart tracking.nextSeq
  · intro none
    have equal : leftMark.nextSeq = rightMark.nextSeq := by
      rw [nextSeq, Nat.eq_zero_of_not_pos none]
      simp
    have due : leftMark.FinDue ↔ rightMark.FinDue := by
      simp only [FinDue, finSeen, finSeq, equal]
    by_cases rightDue : rightMark.FinDue
    · rw [if_pos (due.mpr rightDue), if_pos rightDue]
      exact ⟨by simp [finish, state], by simp [finish, equal], rfl, finSeq, seeded⟩
    · rw [if_neg (fun leftDue => rightDue (due.mp leftDue)), if_neg rightDue]
      exact ⟨state, equal, finSeen, finSeq, seeded⟩

theorem data_start_tracking (same : SameTracking left right) (header : Tcp.Header) :
    left.dataStart header = none ∧ right.dataStart header = none ∨
      ∃ leftStart rightStart, left.dataStart header = some leftStart ∧
        right.dataStart header = some rightStart ∧ SameTracking leftStart rightStart ∧
        leftStart.keepPayload = left.keepPayload ∧ rightStart.keepPayload = right.keepPayload := by
  have state := same.state
  have seeded := same.seeded
  unfold dataStart
  by_cases rst : header.rst = true
  · simp [rst]
  simp only [rst, Bool.false_eq_true, if_false, ← seeded, ← state]
  cases known : left.seeded with
  | false =>
      simp only [Bool.not_false, if_true]
      split_ifs
      · exact Or.inl ⟨rfl, rfl⟩
      · exact Or.inr ⟨_, _, rfl, rfl, ⟨rfl, rfl, same.finSeen, same.finSeq, rfl⟩, rfl, rfl⟩
      · exact Or.inr ⟨_, _, rfl, rfl, ⟨rfl, rfl, same.finSeen, same.finSeq, rfl⟩, rfl, rfl⟩
      · exact Or.inl ⟨rfl, rfl⟩
  | true =>
      simp only [Bool.not_true, Bool.false_eq_true, if_false]
      split
      · split_ifs
        · exact Or.inr ⟨_, _, rfl, rfl,
            ⟨rfl, same.nextSeq, same.finSeen, same.finSeq, rfl⟩, rfl, rfl⟩
        · exact Or.inl ⟨rfl, rfl⟩
      · exact Or.inr ⟨_, _, rfl, rfl, same, rfl, rfl⟩
      · exact Or.inr ⟨_, _, rfl, rfl, same, rfl, rfl⟩
      · exact Or.inl ⟨rfl, rfl⟩

theorem on_received_tracking (same : SameTracking left right) (header : Tcp.Header) :
    SameTracking (left.onReceived header) (right.onReceived header) := by
  have sameState : ∀ state, SameTracking { left with state := state }
      { right with state := state } :=
    fun _ => ⟨rfl, same.nextSeq, same.finSeen, same.finSeq, same.seeded⟩
  have acknowledged : left.acknowledged header = right.acknowledged header := by
    simp only [TcpReassembler.acknowledged, same.nextSeq]
  unfold onReceived
  rw [same.state, acknowledged]
  by_cases rst : header.rst = true
  · rw [if_pos rst, if_pos rst]
    exact sameState _
  rw [if_neg rst, if_neg rst]
  cases right.state <;> simp only
  case closeWait | timeWait => exact same
  all_goals split_ifs
  all_goals first | exact same | exact sameState _

/-- Without `onData` nothing is buffered that a gap could be filled with. -/
theorem on_sent_tracking (same : SameTracking left right) (keeps : left.keepPayload = true)
    (drops : right.keepPayload = false) (empty : left.seeded = false → left.outOfOrder = [])
    (header : Tcp.Header) (span : List UInt8) (leftNone : left.dataStart header = none)
    (rightNone : right.dataStart header = none) :
    SameTracking (left.onSent header span) (right.onSent header span) := by
  by_cases rst : header.rst = true
  · simp only [onSent, rst, if_true]
    exact ⟨rfl, same.nextSeq, same.finSeen, same.finSeq, same.seeded⟩
  by_cases seeds : left.seeded = false ∧ header.syn = true
  · obtain ⟨unseeded, syn⟩ := seeds
    have sentLeft : left.onSent header span =
        (left.seed header).ingest (header.seqNumber + 1) span := by
      simp [onSent, rst, unseeded, syn, seed]
    have sentRight : right.onSent header span =
        (right.seed header).ingest (header.seqNumber + 1) span := by
      simp [onSent, rst, ← same.seeded, unseeded, syn, seed]
    have seeded : SameTracking (left.seed header) (right.seed header) :=
      ⟨rfl, rfl, same.finSeen, same.finSeq, rfl⟩
    obtain ⟨count, bound, moved, -⟩ :=
      ingest_gap (left.seed header) keeps (header.seqNumber + 1) span
    have none : count = 0 := by
      rw [show (left.seed header).outOfOrder = [] from empty unseeded, bytes_of_nil] at bound
      omega
    have unkept : (right.seed header).ingest (header.seqNumber + 1) span =
        (right.seed header).ingestUnkept (header.seqNumber + 1) span := by
      simp [ingest, seed, drops]
    have leftControl := ingest_control (left.seed header) (header.seqNumber + 1) span
    have rightControl := ingest_control (right.seed header) (header.seqNumber + 1) span
    rw [sentLeft, sentRight]
    constructor
    · rw [leftControl.state, rightControl.state, seeded.state]
    · rw [moved, none, unkept, ingest_unkept_tracking seeded]
      simp
    · rw [leftControl.finSeen, rightControl.finSeen, seeded.finSeen]
    · rw [leftControl.finSeq, rightControl.finSeq, seeded.finSeq]
    · rw [leftControl.seeded, rightControl.seeded, seeded.seeded]
  · have plain : header.rst = false := by simpa using rst
    rw [on_sent_ignored left header span plain leftNone seeds,
      on_sent_ignored right header span plain rightNone (same.seeded ▸ seeds)]
    exact same

/-- The two passes agree on a call exactly if it fills no gap. -/
theorem step_tracking (same : SameTracking left right) (keeps : left.keepPayload = true)
    (drops : right.keepPayload = false) (counted : Counted left)
    (empty : left.seeded = false → left.outOfOrder = []) (event : Event) :
    SameTracking (left.step event) (right.step event) ↔ ¬ left.FillsGap event := by
  cases event with
  | sent header span =>
      simp only [FillsGap, step]
      rcases data_start_tracking same header with ⟨leftNone, rightNone⟩ |
        ⟨leftStart, rightStart, leftTaken, rightTaken, starts, leftKeeps, rightKeeps⟩
      · rw [leftNone]
        simp only [reduceCtorEq, false_and, exists_false, not_false_eq_true, iff_true]
        exact on_sent_tracking same keeps drops empty header span leftNone rightNone
      · rw [on_sent_take _ _ _ leftTaken, on_sent_take _ _ _ rightTaken, leftTaken,
          on_data_tracking starts (leftKeeps.trans keeps) (rightKeeps.trans drops)
            (data_start_counted counted leftTaken)]
        simp
  | received header => simpa [FillsGap, step] using on_received_tracking same header
  | consume n =>
      obtain ⟨leftAssembled, leftPos, leftRead⟩ := consume_frame left n
      obtain ⟨rightAssembled, rightPos, rightRead⟩ := consume_frame right n
      simp only [FillsGap, step, leftRead, rightRead, not_false_eq_true, iff_true]
      exact ⟨same.state, same.nextSeq, same.finSeen, same.finSeq, same.seeded⟩

end Step

theorem step_keep_payload (stream : TcpReassembler) (event : Event) :
    (stream.step event).keepPayload = stream.keepPayload := by
  cases event with
  | sent header span =>
      rcases on_sent_cases stream header span with
        ⟨-, closed⟩ | ⟨-, -, -, seeded⟩ | ⟨start, taken, sent⟩ | ⟨-, -, ignored⟩
      · rw [step, closed]
      · rw [step, seeded, (ingest_control _ _ _).keepPayload]
        rfl
      · have marked := (marked_control start header span).2.2.1
        have started : start.keepPayload = stream.keepPayload := by
          obtain ⟨-, -, -, ⟨same, -⟩ | ⟨same, -⟩⟩ := data_start_frame _ _ taken <;> rw [same]
        rw [step, sent, on_data_eq, ← started, ← marked]
        split_ifs <;> rfl
      · rw [step, ignored]
  | received header =>
      obtain ⟨state, moved⟩ := on_received_frame stream header
      rw [step, moved]
  | consume n =>
      obtain ⟨assembled, readPos, read⟩ := consume_frame stream n
      rw [step, read]

theorem run_keep_payload (keepPayload : Bool) (events : List Event) :
    ((fresh keepPayload).run events).keepPayload = keepPayload :=
  run_history (fresh keepPayload) (fun _ stream => stream.keepPayload = keepPayload) rfl
    (fun _ event kept => (step_keep_payload _ event).trans kept) events

theorem run_tracking_append {events : List Event}
    (same : SameTracking ((fresh true).run events) ((fresh false).run events)) (event : Event) :
    SameTracking ((fresh true).run (events ++ [event])) ((fresh false).run (events ++ [event])) ↔
      ¬ ((fresh true).run events).FillsGap event := by
  rw [run_append_one, run_append_one]
  refine step_tracking same (run_keep_payload true events) (run_keep_payload false events)
    (run_counted true events) ?_ event
  intro unseeded
  obtain ⟨state, empty⟩ := run_unseeded true events unseeded
  rw [empty]
  rfl

/-- Keeping the payload or not, a connection is tracked alike up to every point of a run exactly
if no segment of the run fills a gap. -/
theorem tracking_ignores_payload_iff (events : List Event) :
    (∀ first, first <+: events →
      SameTracking ((fresh true).run first) ((fresh false).run first)) ↔
    ∀ before event, before ++ [event] <+: events → ¬ ((fresh true).run before).FillsGap event :=
  RunPrefixes.holds_throughout_iff ⟨rfl, rfl, rfl, rfl, rfl⟩
    (fun _ event same => run_tracking_append same event) events

/-- Two segments in the wrong order, then a FIN: with the payload the connection is closing,
without it `next_seq` stays in front of the second segment and the FIN is never reached. -/
theorem reordered_fin_is_missed_without_payload :
    let events : List Event := [.sent { seqNumber := 1, flags := 0x10 } [],
      .sent { seqNumber := 2, flags := 0x10 } [8], .sent { seqNumber := 1, flags := 0x10 } [7],
      .sent { seqNumber := 3, flags := 0x11 } []]
    ((fresh true).run events).state = .finWait1 ∧ ((fresh true).run events).nextSeq = 4 ∧
      ((fresh false).run events).state = .established ∧
      ((fresh false).run events).nextSeq = 2 := by
  decide

end PcapAnalyzer.TcpReassembler
