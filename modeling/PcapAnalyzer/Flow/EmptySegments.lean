import PcapAnalyzer.Flow.Tracking

/-!
# Empty segments ahead of a gap

The cap on the out-of-order buffer counts payload bytes, so it refuses no empty segment. A
segment without payload that lies ahead of `next_seq` is put in like any other, and nothing but
reaching it takes it out again.
-/

namespace PcapAnalyzer.TcpReassembler

open SerialNumber (int32 int32_pos)

set_option autoImplicit false

/-- Every buffered segment carries payload. -/
def AllPayload (stream : TcpReassembler) : Prop :=
  ∀ segment ∈ stream.outOfOrder, 1 ≤ segment.data.length

/-- Every buffered segment carries payload, and so the cap on the bytes is one on the segments. -/
structure SegmentsBounded (stream : TcpReassembler) : Prop where
  payload : stream.AllPayload
  number : stream.outOfOrder.length ≤ maxOooBytes

/-- The segment that `std::lower_bound` finds for a sequence number. -/
def lowerBound (stream : TcpReassembler) (seq : UInt32) : Option Segment :=
  stream.outOfOrder[BinarySearch.lowerBound (below stream.nextSeq seq) stream.outOfOrder]?

/-- The call sends a segment without payload that is taken in, lies ahead of `next_seq` and has
a sequence number that the buffer does not hold. -/
def EmptyAhead (stream : TcpReassembler) (event : Event) : Prop :=
  ∃ header start, event = .sent header [] ∧ stream.dataStart header = some start ∧
    0 < int32 (header.seqNumber - start.nextSeq) ∧
    ∀ it, start.lowerBound header.seqNumber = some it → it.seq ≠ header.seqNumber

section Buffer

variable {stream : TcpReassembler}

theorem length_le_bytes {segments : List Segment}
    (payload : ∀ segment ∈ segments, 1 ≤ segment.data.length) :
    segments.length ≤ bytesOf segments := by
  induction segments with
  | nil => exact le_rfl
  | cons segment rest ih =>
      obtain ⟨first, others⟩ := List.forall_mem_cons.mp payload
      have later := ih others
      rw [List.length_cons, bytes_of_cons]
      omega

/-- With the byte count in order, payload in every segment bounds their number. -/
theorem segments_bounded_iff (counted : Counted stream) :
    SegmentsBounded stream ↔ AllPayload stream := by
  constructor
  · exact fun bounded => bounded.payload
  · intro payload
    have number := length_le_bytes payload
    rw [← counted.bytes] at number
    exact ⟨payload, number.trans counted.cap⟩

/-- Draining only takes segments out. -/
theorem drain_from_sublist (segments : List Segment) (stream : TcpReassembler) :
    (drainFrom segments stream).outOfOrder <:+ segments := by
  induction segments generalizing stream with
  | nil => exact List.suffix_rfl
  | cons segment rest ih =>
      simp only [drainFrom]
      split_ifs
      · exact List.suffix_rfl
      · exact (ih _).trans (List.suffix_cons _ _)
      · exact (ih _).trans (List.suffix_cons _ _)

theorem drain_payload (payload : AllPayload stream) : AllPayload stream.drain :=
  fun segment member => payload segment ((drain_from_sublist _ _).subset member)

/-- A segment with payload leaves only segments with payload behind. -/
theorem buffer_ahead_payload (payload : AllPayload stream) (seq : UInt32) {span : List UInt8}
    (present : 1 ≤ span.length) : AllPayload (stream.bufferAhead seq span) := by
  have buffers := buffer_ahead_buffers stream seq span
  generalize stream.bufferAhead seq span = buffered at buffers ⊢
  unfold AllPayload at payload ⊢
  cases buffers with
  | leftOut => exact payload
  | putIn split room =>
      rw [split, List.forall_mem_append] at payload
      exact List.forall_mem_append.mpr ⟨payload.1, List.forall_mem_cons.mpr ⟨present, payload.2⟩⟩
  | replaced split same longer room =>
      rw [split, List.forall_mem_append, List.forall_mem_cons] at payload
      exact List.forall_mem_append.mpr
        ⟨payload.1, List.forall_mem_cons.mpr ⟨present, payload.2.2⟩⟩

/-- The cap never refuses an empty segment: it is put in unless the buffer holds its sequence
number already. -/
theorem buffer_ahead_empty (counted : Counted stream) (payload : AllPayload stream)
    (seq : UInt32) : AllPayload (stream.bufferAhead seq []) ↔
      ∃ it, stream.lowerBound seq = some it ∧ it.seq = seq := by
  have room : stream.oooBytes + ([] : List UInt8).length ≤ maxOooBytes := counted.cap
  have spoiled (before after : List Segment) :
      ¬ ∀ segment ∈ before ++ { seq := seq, data := [] } :: after, 1 ≤ segment.data.length := by
    intro all
    have empty := all { seq := seq, data := [] } (List.mem_append_right _ List.mem_cons_self)
    exact absurd empty (Nat.not_succ_le_zero 0)
  simp only [bufferAhead, lowerBound, ← List.head?_drop]
  cases stream.outOfOrder.drop
      (BinarySearch.lowerBound (below stream.nextSeq seq) stream.outOfOrder) with
  | nil =>
      simp only [if_pos room]
      exact iff_of_false (spoiled _ _) (by simp)
  | cons it rest =>
      simp only
      by_cases same : it.seq = seq
      · rw [if_pos same, if_neg fun longer => absurd longer.1 (Nat.not_lt_zero _)]
        exact iff_of_true payload ⟨it, rfl, same⟩
      · rw [if_neg same, if_pos room]
        refine iff_of_false (spoiled _ _) ?_
        rintro ⟨_, ⟨⟩, equal⟩
        exact same equal

theorem ingest_ahead (kept : stream.keepPayload = true) {seq : UInt32} {span : List UInt8}
    (ahead : int32 (seq - stream.nextSeq) > 0) :
    stream.ingest seq span = stream.bufferAhead seq span := by
  have apart : seq ≠ stream.nextSeq := by
    intro here
    rw [here, UInt32.sub_self] at ahead
    exact absurd ahead (by decide)
  simp only [ingest, kept, Bool.not_true, Bool.false_eq_true, if_false, if_neg apart, if_pos ahead]

/-- Taking in a segment leaves payload in every buffered one unless it has none itself and lies
ahead. -/
theorem ingest_payload_iff (counted : Counted stream) (payload : AllPayload stream)
    (kept : stream.keepPayload = true) (seq : UInt32) (span : List UInt8) :
    AllPayload (stream.ingest seq span) ↔ ¬ (span = [] ∧ 0 < int32 (seq - stream.nextSeq) ∧
      ∀ it, stream.lowerBound seq = some it → it.seq ≠ seq) := by
  have drained {started : TcpReassembler} (same : started.outOfOrder = stream.outOfOrder) :
      AllPayload started.drain :=
    drain_payload fun segment member => payload segment (same ▸ member)
  have keeps : ¬ (!stream.keepPayload) = true := by
    rw [kept]
    decide
  by_cases ahead : int32 (seq - stream.nextSeq) > 0
  · rw [ingest_ahead kept ahead]
    cases span with
    | nil =>
        rw [buffer_ahead_empty counted payload, and_iff_right rfl, and_iff_right ahead]
        push Not
        rfl
    | cons byte span =>
        refine iff_of_true (buffer_ahead_payload payload seq ?_) ?_
        · rw [List.length_cons]
          omega
        · rintro ⟨⟨⟩, -⟩
  · refine iff_of_true ?_ fun slip => ahead slip.2.1
    simp only [ingest, if_neg keeps, if_neg ahead]
    split_ifs
    · exact drained rfl
    · exact drained rfl
    · exact payload

theorem on_data_payload_iff (counted : Counted stream) (payload : AllPayload stream)
    (kept : stream.keepPayload = true) (header : Tcp.Header) (span : List UInt8) :
    AllPayload (stream.onData header span) ↔
      ¬ (span = [] ∧ 0 < int32 (header.seqNumber - stream.nextSeq) ∧
        ∀ it, stream.lowerBound header.seqNumber = some it → it.seq ≠ header.seqNumber) := by
  have same : (stream.onData header span).outOfOrder =
      (stream.ingest header.seqNumber span).outOfOrder := by
    rw [on_data_eq]
    unfold marked finish
    simp only
    split_ifs <;> rfl
  rw [← ingest_payload_iff counted payload kept, AllPayload, same, AllPayload]

/-- One call leaves payload in every buffered segment unless it sends an empty one ahead. -/
theorem step_payload_iff (counted : Counted stream) (payload : AllPayload stream)
    (kept : stream.keepPayload = true) (event : Event) :
    AllPayload (stream.step event) ↔ ¬ stream.EmptyAhead event := by
  unfold EmptyAhead
  cases event with
  | sent header span =>
      cases taken : stream.dataStart header with
      | some start =>
          have started : start.outOfOrder = stream.outOfOrder ∧
              start.keepPayload = stream.keepPayload := by
            obtain ⟨-, -, -, ⟨same, -⟩ | ⟨same, -⟩⟩ := data_start_frame _ _ taken <;>
              rw [same] <;> exact ⟨rfl, rfl⟩
          have before : AllPayload start := by
            unfold AllPayload
            rw [started.1]
            exact payload
          rw [step, on_sent_take _ _ _ taken, on_data_payload_iff
            (data_start_counted counted taken) before (started.2.trans kept)]
          refine not_congr ⟨?_, ?_⟩
          · rintro ⟨rfl, ahead, new⟩
            exact ⟨header, start, rfl, taken, ahead, new⟩
          · rintro ⟨_, found, ⟨⟩, same, ahead, new⟩
            obtain rfl : start = found := Option.some.inj (taken.symm.trans same)
            exact ⟨rfl, ahead, new⟩
      | none =>
          have out : ¬ ∃ other start, Event.sent header span = .sent other [] ∧
              stream.dataStart other = some start ∧
              0 < int32 (other.seqNumber - start.nextSeq) ∧
              ∀ it, start.lowerBound other.seqNumber = some it → it.seq ≠ other.seqNumber := by
            rintro ⟨_, start, ⟨⟩, found, -⟩
            rw [taken] at found
            cases found
          refine iff_of_true ?_ out
          rcases on_sent_cases stream header span with
            ⟨-, closed⟩ | ⟨-, -, -, seeded⟩ | ⟨start, found, -⟩ | ⟨-, -, ignored⟩
          · rw [step, closed]
            exact payload
          · have start : Counted (stream.seed header) :=
              ⟨counted.bytes, counted.cap, counted.readable, counted.kept⟩
            rw [step, seeded, ingest_payload_iff start payload kept]
            rintro ⟨-, ahead, -⟩
            rw [seed, UInt32.sub_self] at ahead
            exact absurd ahead (by decide)
          · rw [taken] at found
            cases found
          · rw [step, ignored]
            exact payload
  | received header =>
      obtain ⟨state, moved⟩ := on_received_frame stream header
      rw [step, moved]
      exact iff_of_true payload (by simp)
  | consume n =>
      obtain ⟨assembled, readPos, read⟩ := consume_frame stream n
      rw [step, read]
      exact iff_of_true payload (by simp)

end Buffer

/-- In a run that keeps the payload, every buffered segment has some, and there are at most as
many as the cap has bytes, exactly as long as no empty segment is sent ahead. -/
theorem segments_bounded_throughout_iff (events : List Event) :
    (∀ first, first <+: events → SegmentsBounded ((fresh true).run first)) ↔
      ∀ before event, before ++ [event] <+: events →
        ¬ ((fresh true).run before).EmptyAhead event := by
  refine RunPrefixes.holds_throughout_iff ?_ ?_ events
  · exact (segments_bounded_iff (run_counted true [])).mpr fun _ => by simp [fresh]
  · intro before event bounded
    rw [segments_bounded_iff (run_counted true _), run_append_one]
    exact step_payload_iff (run_counted true before) bounded.payload
      (run_keep_payload true before) event

/-- An acknowledgement without payload ahead of `next_seq` is held in the buffer. -/
theorem empty_segment_is_held :
    let events : List Event :=
      [.sent { seqNumber := 1, flags := 0x10 } [], .sent { seqNumber := 2, flags := 0x10 } []]
    ((fresh true).run events).outOfOrder = [{ seq := 2, data := [] }] ∧
      ¬ SegmentsBounded ((fresh true).run events) := by
  intro events
  have held : ((fresh true).run events).outOfOrder = [{ seq := 2, data := [] }] := by decide
  refine ⟨held, fun bounded => ?_⟩
  have empty := bounded.payload { seq := 2, data := [] }
    (by rw [held]; exact List.mem_singleton_self _)
  exact absurd empty (by decide)

/-- In front of all that is buffered, an empty segment is put in. -/
theorem buffer_ahead_front {stream : TcpReassembler} (counted : Counted stream) {seq : UInt32}
    (front : ∀ segment ∈ stream.outOfOrder, seq - stream.nextSeq < segment.seq - stream.nextSeq) :
    stream.bufferAhead seq [] =
      { stream with outOfOrder := { seq := seq, data := [] } :: stream.outOfOrder } := by
  have room : stream.oooBytes + ([] : List UInt8).length ≤ maxOooBytes := counted.cap
  have beyond : ∀ segment ∈ stream.outOfOrder, below stream.nextSeq seq segment = false := by
    intro segment member
    exact decide_eq_false (UInt32.not_lt.mpr (UInt32.le_of_lt (front segment member)))
  simp only [bufferAhead, BinarySearch.lower_bound_none beyond, List.take_zero, List.drop_zero]
  cases held : stream.outOfOrder with
  | nil =>
      simp only [if_pos room]
      rfl
  | cons it rest =>
      rw [held] at front
      have other : it.seq ≠ seq := fun same =>
        UInt32.ne_of_lt (front it List.mem_cons_self) (by rw [same])
      simp only [if_neg other, if_pos room]
      rfl

/-- An acknowledgement without payload. -/
def emptySegment (seq : Nat) : Event := .sent { seqNumber := UInt32.ofNat seq, flags := 0x10 } []

/-- An established stream at sequence number zero. -/
def holding (segments : List Segment) : TcpReassembler :=
  { state := .established, seeded := true, outOfOrder := segments }

theorem step_nearest {segments : List Segment} {seq : Nat} (counted : Counted (holding segments))
    (near : 0 < seq ∧ seq < 2 ^ 31) (beyond : ∀ segment ∈ segments, seq < segment.seq.toNat) :
    (holding segments).step (emptySegment seq) =
      holding ({ seq := UInt32.ofNat seq, data := [] } :: segments) := by
  have word : (UInt32.ofNat seq).toNat = seq := by
    rw [UInt32.toNat_ofNat']
    omega
  have zero : (holding segments).nextSeq = 0 := rfl
  have ahead : int32 (UInt32.ofNat seq - (holding segments).nextSeq) > 0 := by
    rw [gt_iff_lt, int32_pos, zero, UInt32.sub_zero, word]
    exact near
  have front : ∀ segment ∈ (holding segments).outOfOrder,
      UInt32.ofNat seq - (holding segments).nextSeq < segment.seq - (holding segments).nextSeq := by
    intro segment member
    rw [zero, UInt32.sub_zero, UInt32.sub_zero, UInt32.lt_iff_toNat_lt, word]
    exact beyond segment member
  have taken : (holding segments).ingest (UInt32.ofNat seq) [] =
      holding ({ seq := UInt32.ofNat seq, data := [] } :: segments) := by
    rw [ingest_ahead rfl ahead, buffer_ahead_front counted front]
    rfl
  have flags : ({ seqNumber := UInt32.ofNat seq, flags := 0x10 } : Tcp.Header).rst = false ∧
      ({ seqNumber := UInt32.ofNat seq, flags := 0x10 } : Tcp.Header).fin = false := by
    simp only [Tcp.Header.rst, Tcp.Header.fin]
    exact ⟨decide_eq_false (by decide), decide_eq_false (by decide)⟩
  have start : (holding segments).dataStart
      { seqNumber := UInt32.ofNat seq, flags := 0x10 } = some (holding segments) := by
    unfold dataStart
    rw [flags.1, if_neg Bool.false_ne_true]
    rfl
  have marked : (holding segments).marked { seqNumber := UInt32.ofNat seq, flags := 0x10 } [] =
      holding ({ seq := UInt32.ofNat seq, data := [] } :: segments) := by
    unfold marked
    rw [flags.2, if_neg Bool.false_ne_true]
    exact taken
  have notDue (held : List Segment) : ¬ (holding held).FinDue := fun due => by cases due.1
  rw [emptySegment, step, on_sent_take _ _ _ start, on_data_eq, marked, if_neg (notDue _)]

/-- Empty segments that arrive from the farthest to the nearest are all held. -/
theorem held_empty_segments {farthest : Nat} (near : farthest < 2 ^ 31) (count : Nat)
    (left : count ≤ farthest) :
    ∃ segments, (fresh true).run (emptySegment 0 ::
        (List.range count).map fun i => emptySegment (farthest - i)) = holding segments ∧
      segments.length = count ∧
      ∀ segment ∈ segments, farthest - count < segment.seq.toNat := by
  induction count with
  | zero => exact ⟨[], rfl, rfl, by simp⟩
  | succ count ih =>
      obtain ⟨segments, before, number, beyond⟩ := ih (Nat.le_of_succ_le left)
      have counted := run_counted true (emptySegment 0 ::
        (List.range count).map fun i => emptySegment (farthest - i))
      rw [before] at counted
      refine ⟨{ seq := UInt32.ofNat (farthest - count), data := [] } :: segments, ?_, ?_, ?_⟩
      · rw [List.range_succ, List.map_append, ← List.cons_append, List.map_singleton,
          run_append_one, before]
        exact step_nearest counted (by omega) beyond
      · rw [List.length_cons, number]
      · refine List.forall_mem_cons.mpr ⟨?_, fun segment member => ?_⟩
        · rw [UInt32.toNat_ofNat']
          omega
        · have later := beyond segment member
          omega

/-- The cap leaves the number of buffered segments unbounded, up to the number space itself. -/
theorem empty_segments_uncapped (count : Nat) (near : count < 2 ^ 31) :
    ∃ events, ((fresh true).run events).outOfOrder.length = count ∧
      ((fresh true).run events).oooBytes = 0 := by
  obtain ⟨segments, held, number, -⟩ := held_empty_segments near count le_rfl
  exact ⟨_, by rw [held]; exact number, by rw [held]; rfl⟩

end PcapAnalyzer.TcpReassembler
