import PcapAnalyzer.Flow.TcpRun
import PcapAnalyzer.Library.IntervalBuffer

/-!
# The out-of-order buffer

Seen from `next_seq`, the buffered segments are the pending pieces of an interval buffer
whose front is 0. Their order needs no more than that payloads are short; the byte count
holds whatever is sent.
-/

namespace PcapAnalyzer.TcpReassembler

open SerialNumber IntervalBuffer

set_option autoImplicit false

/-- What `ooo_bytes` counts. -/
def bytesOf (segments : List Segment) : Nat := (segments.map fun segment => segment.data.length).sum

@[simp] theorem bytes_of_nil : bytesOf [] = 0 := rfl

@[simp] theorem bytes_of_cons (segment : Segment) (rest : List Segment) :
    bytesOf (segment :: rest) = segment.data.length + bytesOf rest := by
  simp [bytesOf]

@[simp] theorem bytes_of_append (left right : List Segment) :
    bytesOf (left ++ right) = bytesOf left + bytesOf right := by
  simp [bytesOf]

/-- The byte count is right and within the cap, and what has been read was there. -/
structure Counted (stream : TcpReassembler) : Prop where
  bytes : stream.oooBytes = bytesOf stream.outOfOrder
  cap : stream.oooBytes ≤ maxOooBytes
  readable : stream.readPos ≤ stream.assembled.length
  kept : stream.keepPayload = false → stream.outOfOrder = []

section Counted

variable {stream : TcpReassembler}

theorem drain_from_counted (segments : List Segment) (bytes : stream.oooBytes = bytesOf segments)
    (cap : stream.oooBytes ≤ maxOooBytes) (readable : stream.readPos ≤ stream.assembled.length)
    (kept : stream.keepPayload = true) : Counted (drainFrom segments stream) := by
  induction segments generalizing stream with
  | nil => exact ⟨bytes, cap, readable, fun _ => rfl⟩
  | cons segment rest ih =>
      rw [bytes_of_cons] at bytes
      simp only [drainFrom]
      split_ifs
      · exact ⟨by rw [bytes_of_cons]; exact bytes, cap, readable, by simp [kept]⟩
      · exact ih (by simp only; omega) (by simp only; omega)
          (by simp only [List.length_append]; omega) kept
      · exact ih (by simp only; omega) (by simp only; omega) readable kept

theorem buffer_ahead_counted (counted : Counted stream) (kept : stream.keepPayload = true)
    (seq : UInt32) (span : List UInt8) : Counted (stream.bufferAhead seq span) := by
  have bytes := counted.bytes
  have cap := counted.cap
  have unkept : ∀ {segments}, stream.keepPayload = false → segments = ([] : List Segment) := by
    simp [kept]
  have buffers := buffer_ahead_buffers stream seq span
  generalize stream.bufferAhead seq span = buffered at buffers ⊢
  cases buffers with
  | leftOut => exact counted
  | putIn split room =>
      rw [split, bytes_of_append] at bytes
      exact ⟨by simp; omega, room, counted.readable, unkept⟩
  | replaced split same longer room =>
      rw [split, bytes_of_append, bytes_of_cons] at bytes
      exact ⟨by simp; omega, by simp only; omega, counted.readable, unkept⟩

theorem ingest_counted (counted : Counted stream) (seq : UInt32) (span : List UInt8) :
    Counted (stream.ingest seq span) := by
  have readable := counted.readable
  unfold ingest
  cases kept : stream.keepPayload with
  | false =>
      simp only [ingestUnkept, Bool.not_false, if_true]
      split_ifs
      all_goals exact ⟨counted.bytes, counted.cap, counted.readable, counted.kept⟩
  | true =>
      simp only [Bool.not_true, Bool.false_eq_true, if_false]
      split_ifs
      · exact drain_from_counted _ counted.bytes counted.cap
          (by simp only [List.length_append]; omega) rfl
      · exact buffer_ahead_counted counted kept seq span
      · exact drain_from_counted _ counted.bytes counted.cap
          (by simp only [List.length_append]; omega) rfl
      · exact counted

theorem on_data_counted (counted : Counted stream) (header : Tcp.Header) (span : List UInt8) :
    Counted (stream.onData header span) := by
  have taken := ingest_counted counted header.seqNumber span
  rw [on_data_eq]
  unfold marked finish
  simp only
  split_ifs <;> exact ⟨taken.bytes, taken.cap, taken.readable, taken.kept⟩

theorem data_start_counted (counted : Counted stream) {header : Tcp.Header}
    {start : TcpReassembler} (taken : stream.dataStart header = some start) : Counted start := by
  obtain ⟨-, -, -, frame⟩ := data_start_frame _ _ taken
  rcases frame with ⟨same, -⟩ | ⟨same, -⟩ <;> rw [same] <;>
    exact ⟨counted.bytes, counted.cap, counted.readable, counted.kept⟩

theorem step_counted (counted : Counted stream) (event : Event) :
    Counted (stream.step event) := by
  cases event with
  | sent header span =>
      rcases on_sent_cases stream header span with
        ⟨-, closed⟩ | ⟨-, -, -, seeded⟩ | ⟨start, taken, sent⟩ | ⟨-, -, ignored⟩
      · rw [step, closed]
        exact ⟨counted.bytes, counted.cap, counted.readable, counted.kept⟩
      · have before : Counted (stream.seed header) :=
          ⟨counted.bytes, counted.cap, counted.readable, counted.kept⟩
        rw [step, seeded]
        exact ingest_counted before _ _
      · rw [step, sent]
        exact on_data_counted (data_start_counted counted taken) header span
      · rw [step, ignored]
        exact counted
  | received header =>
      obtain ⟨state, moved⟩ := on_received_frame stream header
      rw [step, moved]
      exact ⟨counted.bytes, counted.cap, counted.readable, counted.kept⟩
  | consume n =>
      have readable := consume_length_bound stream n counted.readable
      obtain ⟨assembled, readPos, read⟩ := consume_frame stream n
      rw [step]
      rw [read] at readable ⊢
      exact ⟨counted.bytes, counted.cap, readable, counted.kept⟩

theorem run_counted (keepPayload : Bool) (events : List Event) :
    Counted ((fresh keepPayload).run events) :=
  run_history (fresh keepPayload) (fun _ stream => Counted stream)
    ⟨rfl, Nat.zero_le _, le_rfl, fun _ => rfl⟩ (fun _ event counted => step_counted counted event)
    events

end Counted

/-- A segment seen from a sequence number. -/
def pieceOf (base : UInt32) (segment : Segment) : Piece :=
  ⟨(segment.seq - base).toNat, segment.data.length⟩

/-- The buffered segments seen from `next_seq`. -/
def window (stream : TcpReassembler) : Buffer :=
  ⟨0, stream.outOfOrder.map (pieceOf stream.nextSeq)⟩

/-- The buffered segments are in order ahead of `next_seq`, near it and short. -/
structure Sorted (stream : TcpReassembler) : Prop where
  ordered : Ordered stream.window
  near : ∀ piece ∈ stream.window.pending, piece.offset < 2 ^ 31 ∧ piece.length < 2 ^ 16

section Sorted

variable {stream : TcpReassembler}

/-- Draining from a base is draining the interval buffer, as long as `next_seq` stays near it. -/
theorem drain_from_window (base : UInt32) (segments : List Segment) (front : Nat)
    (nextSeq : stream.nextSeq = number base front)
    (sorted : (segments.map (pieceOf base)).Pairwise fun left right => left.offset < right.offset)
    (near : ∀ piece ∈ segments.map (pieceOf base),
      piece.offset < 2 ^ 31 ∧ piece.length < 2 ^ 16 ∧ front < piece.offset + 2 ^ 16) :
    let drained := IntervalBuffer.drainFrom (segments.map (pieceOf base)) front
    (TcpReassembler.drainFrom segments stream).outOfOrder.map (pieceOf base) = drained.pending ∧
      (TcpReassembler.drainFrom segments stream).nextSeq = number base drained.front := by
  induction segments generalizing stream front with
  | nil => exact ⟨rfl, nextSeq⟩
  | cons segment rest ih =>
      rw [List.map_cons, List.pairwise_cons] at sorted
      have bounds := near (pieceOf base segment) (by simp)
      simp only [pieceOf] at bounds
      have origin : segment.seq = number base (segment.seq - base).toNat := by
        rw [number, UInt32.ofNat_toNat, UInt32.add_comm, UInt32.sub_add_cancel]
      have baseBound := base.toNat_lt
      have gap : int32 (segment.seq - stream.nextSeq) > 0 ↔
          front < (segment.seq - base).toNat := by
        rw [gt_iff_lt, int32_pos, nextSeq]
        generalize (segment.seq - base).toNat = offset at *
        rw [origin]
        simp only [number, UInt32.toNat_sub, UInt32.toNat_add, UInt32.toNat_ofNat']
        omega
      simp only [List.map_cons, IntervalBuffer.drainFrom, TcpReassembler.drainFrom, Piece.stop]
      by_cases ahead : front < (segment.seq - base).toNat
      · rw [if_pos (gap.mpr ahead), if_pos (show front < (pieceOf base segment).offset from ahead)]
        exact ⟨by simp, nextSeq⟩
      · rw [if_neg (fun positive => ahead (gap.mp positive)),
          if_neg (show ¬ front < (pieceOf base segment).offset from ahead)]
        have covered : (0 - (segment.seq - stream.nextSeq)).toNat =
            front - (segment.seq - base).toNat := by
          rw [nextSeq]
          generalize (segment.seq - base).toNat = offset at *
          rw [origin]
          simp only [number, UInt32.toNat_sub, UInt32.toNat_add, UInt32.toNat_ofNat',
            UInt32.toNat_zero]
          omega
        rw [covered]
        have later : ∀ bound, bound < (segment.seq - base).toNat + 2 ^ 16 →
            ∀ piece ∈ rest.map (pieceOf base),
              piece.offset < 2 ^ 31 ∧ piece.length < 2 ^ 16 ∧ bound < piece.offset + 2 ^ 16 := by
          intro bound reached piece member
          have after := sorted.1 piece member
          have old := near piece (by rw [List.map_cons]; exact List.mem_cons_of_mem _ member)
          simp only [pieceOf] at after
          exact ⟨old.1, old.2.1, by omega⟩
        simp only [pieceOf]
        by_cases longer : front - (segment.seq - base).toNat < segment.data.length
        · rw [if_pos longer, Nat.max_eq_right (by omega)]
          refine ih ((segment.seq - base).toNat + segment.data.length) ?_ sorted.2
            (later _ (by omega))
          simp only [nextSeq, number_add]
          congr 1
          omega
        · rw [if_neg longer, Nat.max_eq_left (by omega)]
          exact ih front nextSeq sorted.2 (later _ (by omega))

/-- Ahead of the front, moving the base moves every offset by as much. -/
theorem piece_of_rebase (base : UInt32) {front : Nat} (segment : Segment)
    (ahead : front < (pieceOf base segment).offset) :
    (pieceOf (number base front) segment).offset = (pieceOf base segment).offset - front := by
  have baseBound := base.toNat_lt
  have seqBound := segment.seq.toNat_lt
  simp only [pieceOf, number, UInt32.toNat_sub, UInt32.toNat_add, UInt32.toNat_ofNat'] at ahead ⊢
  omega

/-- Order ahead of a front is order ahead of `next_seq` once it is there. -/
theorem sorted_of_base (base : UInt32) (front : Nat) (nextSeq : stream.nextSeq = number base front)
    (ordered : Ordered ⟨front, stream.outOfOrder.map (pieceOf base)⟩)
    (near : ∀ piece ∈ stream.outOfOrder.map (pieceOf base),
      piece.offset < 2 ^ 31 ∧ piece.length < 2 ^ 16) : Sorted stream := by
  obtain ⟨sorted, ahead⟩ := ordered
  simp only [List.pairwise_map, List.forall_mem_map] at sorted ahead near
  refine ⟨⟨?_, ?_⟩, ?_⟩
  · simp only [window, List.pairwise_map, nextSeq]
    refine List.Pairwise.imp_of_mem ?_ sorted
    intro left right leftMember rightMember below
    have leftAhead := ahead left leftMember
    have rightAhead := ahead right rightMember
    rw [piece_of_rebase base left leftAhead, piece_of_rebase base right rightAhead]
    omega
  · simp only [window, List.forall_mem_map, nextSeq]
    intro segment member
    have before := ahead segment member
    rw [piece_of_rebase base segment before]
    omega
  · simp only [window, List.forall_mem_map, nextSeq]
    intro segment member
    have bound := near segment member
    rw [piece_of_rebase base segment (ahead segment member)]
    exact ⟨by omega, bound.2⟩

/-- `next_seq` has moved by less than a payload: draining restores the order. -/
theorem drain_sorted (base : UInt32) (front : Nat) (nextSeq : stream.nextSeq = number base front)
    (short : front < 2 ^ 16) (ordered : Ordered ⟨0, stream.outOfOrder.map (pieceOf base)⟩)
    (near : ∀ piece ∈ stream.outOfOrder.map (pieceOf base),
      piece.offset < 2 ^ 31 ∧ piece.length < 2 ^ 16) : Sorted stream.drain := by
  obtain ⟨pending, reached⟩ := drain_from_window base stream.outOfOrder front nextSeq
    ordered.sorted (by
      intro piece member
      have bound := near piece member
      exact ⟨bound.1, bound.2, by omega⟩)
  refine sorted_of_base base _ reached ?_ ?_
  · rw [show stream.drain = TcpReassembler.drainFrom stream.outOfOrder stream from rfl, pending]
    exact drain_ordered _ _ ordered.sorted
  · rw [show stream.drain = TcpReassembler.drainFrom stream.outOfOrder stream from rfl, pending]
    intro piece member
    exact near piece (drain_mem _ _ piece member)

/-- In order ahead of `next_seq`, the segments below a bound stand in front of the others. -/
theorem window_partitioned (ordered : Ordered stream.window) (seq : UInt32) :
    BinarySearch.Partitioned (below stream.nextSeq seq) stream.outOfOrder := by
  have sorted := ordered.sorted
  simp only [window, List.pairwise_map, pieceOf] at sorted
  refine sorted.imp ?_
  intro left right before passed
  have order := of_decide_eq_true passed
  rw [UInt32.lt_iff_toNat_lt] at order
  exact decide_eq_true (UInt32.lt_iff_toNat_lt.mpr (before.trans order))

/-- Buffering a segment is holding its piece. -/
theorem buffer_ahead_window (counted : Counted stream) (ordered : Ordered stream.window)
    (seq : UInt32) (span : List UInt8) :
    (stream.bufferAhead seq span).window =
      hold maxOooBytes stream.window ⟨(seq - stream.nextSeq).toNat, span.length⟩ := by
  have bytes : stream.oooBytes = total stream.window.pending := by
    rw [counted.bytes]
    simp [bytesOf, total, window, pieceOf, Function.comp_def]
  have same : ∀ segment : Segment, (pieceOf stream.nextSeq segment).offset =
      (seq - stream.nextSeq).toNat ↔ segment.seq = seq := by
    intro segment
    rw [pieceOf, UInt32.toNat_inj, UInt32.sub_left_inj]
  have nearer : (fun other : Piece => decide (other.offset < (seq - stream.nextSeq).toNat)) ∘
      pieceOf stream.nextSeq = below stream.nextSeq seq := by
    funext segment
    exact decide_eq_decide.mpr UInt32.lt_iff_toNat_lt.symm
  have stored : ∀ (segments : List Segment) (count : Nat),
      ({ stream with outOfOrder := segments, oooBytes := count } : TcpReassembler).window =
        { stream.window with pending := segments.map (pieceOf stream.nextSeq) } :=
    fun _ _ => rfl
  have before : stream.window.pending.takeWhile
      (fun other => decide (other.offset < (seq - stream.nextSeq).toNat)) =
        (stream.outOfOrder.takeWhile (below stream.nextSeq seq)).map
          (pieceOf stream.nextSeq) := by
    rw [window, List.takeWhile_map, nearer]
  have after : stream.window.pending.dropWhile
      (fun other => decide (other.offset < (seq - stream.nextSeq).toNat)) =
        (stream.outOfOrder.dropWhile (below stream.nextSeq seq)).map
          (pieceOf stream.nextSeq) := by
    rw [window, List.dropWhile_map, nearer]
  have searched := window_partitioned ordered seq
  simp only [bufferAhead, BinarySearch.take_lower_bound searched,
    BinarySearch.drop_lower_bound searched, hold, bytes, before, after]
  cases stream.outOfOrder.dropWhile (below stream.nextSeq seq) with
  | nil =>
      simp only [List.map_nil, apply_ite window]
      split_ifs
      · rw [stored, List.map_append]
        rfl
      · rfl
  | cons it rest =>
      have sameSeq := same it
      have sameLength : (pieceOf stream.nextSeq it).length = it.data.length := rfl
      simp only [List.map_cons, apply_ite window, sameSeq, sameLength]
      split_ifs with equal
      · rw [stored, List.map_append]
        subst equal
        rfl
      · rfl
      · rw [stored, List.map_append]
        rfl
      · rfl

theorem ingest_sorted (counted : Counted stream) (sorted : Sorted stream) (seq : UInt32)
    {span : List UInt8} (short : span.length < 2 ^ 16) : Sorted (stream.ingest seq span) := by
  obtain ⟨ordered, near⟩ := sorted
  unfold ingest
  cases kept : stream.keepPayload with
  | false =>
      have empty := counted.kept kept
      simp only [Bool.not_false, if_true, ingestUnkept]
      split_ifs
      all_goals exact ⟨⟨by simp [window, empty], by simp [window, empty]⟩, by simp [window, empty]⟩
  | true =>
      simp only [Bool.not_true, Bool.false_eq_true, if_false]
      split_ifs with here ahead overlaps
      · exact drain_sorted stream.nextSeq span.length rfl short ordered near
      · rw [gt_iff_lt, int32_pos] at ahead
        have held := hold_cases maxOooBytes stream.window
          ⟨(seq - stream.nextSeq).toNat, span.length⟩ ordered.sorted
        have same : (stream.bufferAhead seq span).window = hold maxOooBytes stream.window
            ⟨(seq - stream.nextSeq).toNat, span.length⟩ :=
          buffer_ahead_window counted ordered seq span
        refine ⟨?_, ?_⟩
        · exact same ▸ held.ordered ordered ahead.1
        · rw [same]
          intro piece member
          rcases held.mem piece member with rfl | member
          · exact ⟨ahead.2, short⟩
          · exact near piece member
      · have sizeBound : (UInt32.ofNat span.length).toNat = span.length := by
          rw [UInt32.toNat_ofNat']
          omega
        rw [UInt32.lt_iff_toNat_lt, sizeBound] at overlaps
        refine drain_sorted stream.nextSeq (span.length - (stream.nextSeq - seq).toNat) ?_ (by omega)
          ordered near
        apply UInt32.toNat_inj.mp
        have bound := stream.nextSeq.toNat_lt
        simp only [number, UInt32.toNat_add, UInt32.toNat_sub, UInt32.toNat_ofNat'] at *
        omega
      · exact ⟨ordered, near⟩

end Sorted

/-- No own FIN has been processed. -/
def NoOwnFin (stream : TcpReassembler) (events : List Event) : Prop :=
  ∀ reached finSeq, ¬ OwnFin stream events reached finSeq

theorem on_data_sorted {stream : TcpReassembler} (counted : Counted stream)
    (sorted : Sorted stream) {header : Tcp.Header} {span : List UInt8} (short : span.length < 2 ^ 16)
    (waits : ¬ (stream.marked header span).FinDue) : Sorted (stream.onData header span) := by
  obtain ⟨ordered, near⟩ := ingest_sorted counted sorted header.seqNumber short
  rw [on_data_eq, if_neg waits]
  unfold marked
  simp only
  split_ifs
  · exact ⟨⟨ordered.1, ordered.2⟩, near⟩
  · exact ⟨ordered, near⟩

theorem sorted_of_empty {stream : TcpReassembler} (empty : stream.outOfOrder = []) :
    Sorted stream :=
  ⟨⟨by simp [window, empty], by simp [window, empty]⟩, by simp [window, empty]⟩

/-- One call keeps the order, unless it processes an own FIN. -/
theorem step_sorted {keepPayload : Bool} {events : List Event} {event : Event}
    (sorted : Sorted ((fresh keepPayload).run events))
    (short : ∀ header span, event = .sent header span → span.length < 2 ^ 16)
    (noFin : NoOwnFin (fresh keepPayload) (events ++ [event])) :
    Sorted (((fresh keepPayload).run events).step event) := by
  have counted := run_counted keepPayload events
  obtain ⟨ordered, near⟩ := sorted
  cases event with
  | sent header span =>
      have bound := short header span rfl
      rcases on_sent_cases ((fresh keepPayload).run events) header span with
        ⟨-, closed⟩ | ⟨-, unseeded, -, seeded⟩ | ⟨start, taken, sent⟩ | ⟨-, -, ignored⟩
      · rw [step, closed]
        exact ⟨⟨ordered.1, ordered.2⟩, near⟩
      · obtain ⟨state, same⟩ := run_unseeded keepPayload events unseeded
        have counted' : Counted (((fresh keepPayload).run events).seed header) :=
          ⟨counted.bytes, counted.cap, counted.readable, counted.kept⟩
        rw [step, seeded]
        exact ingest_sorted counted' (sorted_of_empty (by rw [same]; rfl)) _ bound
      · have waits : ¬ (start.marked header span).FinDue := fun due =>
          noFin _ _ ⟨List.prefix_rfl, events, header, span, rfl, start, taken, due, rfl⟩
        have sorted' : Sorted start := by
          obtain ⟨-, -, -, ⟨same, -⟩ | ⟨same, unseeded⟩⟩ := data_start_frame _ _ taken
          · rw [same]
            exact ⟨⟨ordered.1, ordered.2⟩, near⟩
          · obtain ⟨state, empty⟩ := run_unseeded keepPayload events unseeded
            exact sorted_of_empty (by rw [same, empty]; rfl)
        rw [step, sent]
        exact on_data_sorted (data_start_counted counted taken) sorted' bound waits
      · rw [step, ignored]
        exact ⟨ordered, near⟩
  | received header =>
      obtain ⟨state, moved⟩ := on_received_frame ((fresh keepPayload).run events) header
      rw [step, moved]
      exact ⟨⟨ordered.1, ordered.2⟩, near⟩
  | consume n =>
      obtain ⟨assembled, readPos, read⟩ := consume_frame ((fresh keepPayload).run events) n
      rw [step, read]
      exact ⟨⟨ordered.1, ordered.2⟩, near⟩

/-- The order holds in every run until an own FIN has been processed. -/
theorem run_sorted (keepPayload : Bool) (events : List Event)
    (short : ∀ header span, Event.sent header span ∈ events → span.length < 2 ^ 16)
    (noFin : NoOwnFin (fresh keepPayload) events) : Sorted ((fresh keepPayload).run events) := by
  induction events using List.reverseRecOn with
  | nil => exact sorted_of_empty rfl
  | append_singleton events event ih =>
      rw [run_append_one]
      refine step_sorted (ih (fun header span member => short header span (by simp [member]))
        fun reached finSeq own => noFin reached finSeq (own.append _)) ?_ noFin
      rintro header span rfl
      exact short header span (by simp)

/-- In every run the byte count of the out-of-order buffer is right and within the cap, and no
subtraction from it can underflow: `drain` takes segments off the front one by one. Until an
own FIN is processed the segments lie in order within half the number space ahead of
`next_seq`. -/
theorem out_of_order_invariant (keepPayload : Bool) (events : List Event)
    (short : ∀ header span, Event.sent header span ∈ events → span.length < 2 ^ 16) :
    let final := (fresh keepPayload).run events
    final.oooBytes = (final.outOfOrder.map fun segment => segment.data.length).sum ∧
    final.oooBytes ≤ maxOooBytes ∧
    (∀ before segment after, final.outOfOrder = before ++ segment :: after →
      segment.data.length ≤
        final.oooBytes - (before.map fun segment => segment.data.length).sum) ∧
    final.readPos ≤ final.assembled.length ∧
    (NoOwnFin (fresh keepPayload) events →
      (final.outOfOrder.Pairwise fun left right =>
        (left.seq - final.nextSeq).toNat < (right.seq - final.nextSeq).toNat) ∧
      ∀ segment ∈ final.outOfOrder, 1 ≤ (segment.seq - final.nextSeq).toNat ∧
        (segment.seq - final.nextSeq).toNat < 2 ^ 31) := by
  intro final
  have counted := run_counted keepPayload events
  refine ⟨counted.bytes, counted.cap, ?_, counted.readable, ?_⟩
  · intro before segment after split
    have bytes : final.oooBytes = bytesOf final.outOfOrder := counted.bytes
    rw [split, bytes_of_append, bytes_of_cons] at bytes
    simp only [bytesOf] at bytes
    omega
  · intro noFin
    obtain ⟨⟨ordered, ahead⟩, near⟩ := run_sorted keepPayload events short noFin
    simp only [window, List.pairwise_map, List.forall_mem_map] at ordered ahead near
    exact ⟨ordered, fun segment member => ⟨ahead segment member, (near segment member).1⟩⟩

/-- Two segments buffered in the wrong order across the wraparound. -/
theorem out_of_order_invariant_wraparound :
    let final := (fresh true).run [.sent { seqNumber := 0xFFFFFFF0, flags := 0x10 } [],
      .sent { seqNumber := 4, flags := 0x10 } [1, 2],
      .sent { seqNumber := 0xFFFFFFFF, flags := 0x10 } [3]]
    final.oooBytes = (final.outOfOrder.map fun segment => segment.data.length).sum :=
  (out_of_order_invariant true _ (by
    intro header span member
    simp only [List.mem_cons, Event.sent.injEq, List.not_mem_nil, or_false] at member
    rcases member with ⟨-, rfl⟩ | ⟨-, rfl⟩ | ⟨-, rfl⟩ <;> decide)).1

end PcapAnalyzer.TcpReassembler
