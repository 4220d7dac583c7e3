import Mathlib.Data.List.Induction
import PcapAnalyzer.Flow.TcpRun
import PcapAnalyzer.Library.IntervalBuffer

/-!
# Reassembly delivers the covered part of a stream

Segments that carry slices of one byte stream, numbered from an initial sequence
number, drive a reassembler exactly as their offsets drive an interval buffer.
Sequence numbers, trimming and compaction are eliminated once, in
`ingest_represents`; order, duplication and overlap are then the interval
buffer's business.
-/

namespace PcapAnalyzer.Reassembly

open SerialNumber IntervalBuffer TcpReassembler

set_option autoImplicit false

/-- The segment that carries the bytes of a piece. -/
def segmentOf (isn : UInt32) (data : List UInt8) (piece : Piece) : Segment :=
  { seq := number isn piece.offset, data := slice data piece.offset piece.length }

/-- The bytes read so far are the first `front` bytes of the stream, and the
sequence number stands behind them. -/
structure Delivers (isn : UInt32) (data consumed : List UInt8) (stream : TcpReassembler)
    (front : Nat) : Prop where
  keepPayload : stream.keepPayload = true
  readable : stream.readPos ≤ stream.assembled.length
  inside : front ≤ data.length
  nextSeq : stream.nextSeq = number isn front
  delivered : consumed ++ stream.peek = data.take front

/-- The reassembler holds what the interval buffer holds. -/
structure Represents (isn : UInt32) (data consumed : List UInt8) (stream : TcpReassembler)
    (buffer : Buffer) : Prop where
  delivers : Delivers isn data consumed stream buffer.front
  outOfOrder : stream.outOfOrder = buffer.pending.map (segmentOf isn data)
  oooBytes : stream.oooBytes = total buffer.pending
  inside : ∀ piece ∈ buffer.pending, piece.stop ≤ data.length

section Stream

variable {isn : UInt32} {data consumed : List UInt8} {stream : TcpReassembler}

theorem segment_length (isn : UInt32) {piece : Piece} (inside : piece.stop ≤ data.length) :
    (segmentOf isn data piece).data.length = piece.length := by
  simp only [segmentOf, slice_length]
  simp only [Piece.stop] at inside
  omega

/-- Appending the rest of a piece the front has reached moves the front to its end. -/
theorem delivers_append {front : Nat} (piece : Piece)
    (delivers : Delivers isn data consumed stream front) (reached : piece.offset ≤ front)
    (longer : front ≤ piece.stop) (inside : piece.stop ≤ data.length)
    (extra : List UInt8) (rest : extra = (slice data piece.offset piece.length).drop
      (front - piece.offset))
    (count : UInt32) (counted : count = UInt32.ofNat (piece.stop - front)) :
    Delivers isn data consumed
      { stream with
        assembled := stream.assembled ++ extra
        nextSeq := stream.nextSeq + count } piece.stop := by
  have stopEq : piece.stop = piece.offset + piece.length := rfl
  have start : piece.offset + (front - piece.offset) = front := by omega
  have size : piece.length - (front - piece.offset) = piece.stop - front := by omega
  have window : extra = slice data front (piece.stop - front) := by
    rw [rest, slice, slice, List.drop_take, List.drop_drop, start, size]
  constructor
  · exact delivers.keepPayload
  · have readable := delivers.readable
    simp only [List.length_append]
    omega
  · exact inside
  · rw [counted, delivers.nextSeq, number_add, Nat.add_sub_cancel' longer]
  · have peeked : ({ stream with
        assembled := stream.assembled ++ extra
        nextSeq := stream.nextSeq + count } : TcpReassembler).peek = stream.peek ++ extra := by
      simp only [peek, List.drop_append_of_le_length delivers.readable]
    rw [peeked, ← List.append_assoc, delivers.delivered, window, slice, ← List.take_add,
      Nat.add_sub_cancel' longer]

/-- `drain` absorbs exactly the pieces the interval buffer absorbs. -/
theorem drain_represents (short : data.length < 2 ^ 31) (pending : List Piece) (front : Nat)
    (delivers : Delivers isn data consumed stream front)
    (bytes : stream.oooBytes = total pending)
    (inside : ∀ piece ∈ pending, piece.stop ≤ data.length) :
    Represents isn data consumed
      (TcpReassembler.drainFrom (pending.map (segmentOf isn data)) stream)
      (IntervalBuffer.drainFrom pending front) := by
  induction pending generalizing stream front with
  | nil =>
      exact ⟨⟨delivers.1, delivers.2, delivers.3, delivers.4, delivers.5⟩, rfl, bytes, inside⟩
  | cons piece rest ih =>
      have pieceInside := inside piece (by simp)
      have restInside : ∀ other ∈ rest, other.stop ≤ data.length := by
        intro other member
        exact inside other (by simp [member])
      have size := segment_length isn pieceInside
      have frontInside := delivers.inside
      have offsetShort : piece.offset < 2 ^ 31 := by
        simp only [Piece.stop] at pieceInside
        omega
      have gap : int32 ((segmentOf isn data piece).seq - stream.nextSeq) > 0 ↔
          front < piece.offset := by
        rw [delivers.nextSeq]
        exact number_after isn offsetShort (by omega)
      have bytesRest : stream.oooBytes - piece.length = total rest := by
        rw [bytes, total_cons, Nat.add_sub_cancel_left]
      simp only [List.map_cons, TcpReassembler.drainFrom, IntervalBuffer.drainFrom]
      by_cases ahead : front < piece.offset
      · rw [if_pos (gap.mpr ahead), if_pos ahead]
        exact ⟨⟨delivers.1, delivers.2, delivers.3, delivers.4, delivers.5⟩, rfl, bytes, inside⟩
      · rw [if_neg (fun positive => ahead (gap.mp positive)), if_neg ahead]
        have covered : (0 - ((segmentOf isn data piece).seq - stream.nextSeq)).toNat =
            front - piece.offset := by
          rw [delivers.nextSeq, UInt32.zero_sub, UInt32.neg_sub]
          exact number_sub_of_le isn (by omega) (by omega)
        rw [covered, size]
        by_cases longer : front - piece.offset < piece.length
        · rw [if_pos longer]
          have stop : max front piece.stop = piece.stop := by
            simp only [Piece.stop]
            omega
          rw [stop]
          have moved := delivers_append piece delivers (by omega)
            (by simp only [Piece.stop]; omega) pieceInside _ rfl
            (UInt32.ofNat (piece.length - (front - piece.offset)))
            (by
              congr 1
              simp only [Piece.stop]
              omega)
          exact ih piece.stop
            ⟨moved.1, moved.2, moved.3, moved.4, moved.5⟩ bytesRest restInside
        · rw [if_neg longer]
          have stop : max front piece.stop = front := by
            simp only [Piece.stop]
            omega
          rw [stop]
          exact ih front ⟨delivers.1, delivers.2, delivers.3, delivers.4, delivers.5⟩
            bytesRest restInside

theorem while_congr {Item : Type} (left right : Item → Bool) (items : List Item)
    (same : ∀ item ∈ items, left item = right item) :
    items.takeWhile left = items.takeWhile right ∧
      items.dropWhile left = items.dropWhile right := by
  induction items with
  | nil => exact ⟨rfl, rfl⟩
  | cons item rest ih =>
      have head := same item (by simp)
      have tail := ih (by intro other member; exact same other (by simp [member]))
      simp only [List.takeWhile_cons, List.dropWhile_cons, head]
      split
      · exact ⟨by rw [tail.1], tail.2⟩
      · exact ⟨rfl, rfl⟩

/-- Ahead of the front, the distance from `next_seq` orders segments as their
offsets do. -/
theorem below_iff {front : Nat} {piece other : Piece} (short : data.length < 2 ^ 31)
    (nextSeq : stream.nextSeq = number isn front)
    (ahead : front < piece.offset) (inside : piece.stop ≤ data.length)
    (otherAhead : front < other.offset) (otherInside : other.stop ≤ data.length) :
    below stream.nextSeq (number isn piece.offset) (segmentOf isn data other) =
      decide (other.offset < piece.offset) := by
  have stopEq : piece.stop = piece.offset + piece.length := rfl
  have otherStop : other.stop = other.offset + other.length := rfl
  rw [below, decide_eq_decide, UInt32.lt_iff_toNat_lt, nextSeq]
  simp only [segmentOf]
  rw [number_sub_of_le isn (by omega) (by omega), number_sub_of_le isn (by omega) (by omega)]
  omega

/-- The buffered segments stand in the order in which `std::lower_bound` searches them. -/
theorem Represents.partitioned {buffer : Buffer} {piece : Piece} (short : data.length < 2 ^ 31)
    (represents : Represents isn data consumed stream buffer) (ordered : Ordered buffer)
    (ahead : buffer.front < piece.offset) (inside : piece.stop ≤ data.length) :
    BinarySearch.Partitioned (below stream.nextSeq (number isn piece.offset))
      stream.outOfOrder := by
  have offsets (other : Piece) (member : other ∈ buffer.pending) :
      below stream.nextSeq (number isn piece.offset) (segmentOf isn data other) =
        decide (other.offset < piece.offset) :=
    below_iff short represents.delivers.nextSeq ahead inside (ordered.ahead other member)
      (represents.inside other member)
  rw [BinarySearch.Partitioned, represents.outOfOrder, List.pairwise_map]
  refine ordered.sorted.imp_of_mem ?_
  intro left right leftMember rightMember before passed
  rw [offsets right rightMember, decide_eq_true_iff] at passed
  rw [offsets left leftMember, decide_eq_true_iff]
  exact before.trans passed

/-- A piece is stored in its place, in front of those that stay behind it. -/
theorem Represents.place {buffer : Buffer} {piece : Piece} {before replaced after : List Piece}
    (represents : Represents isn data consumed stream buffer)
    (parts : buffer.pending = before ++ (replaced ++ after)) (inside : piece.stop ≤ data.length)
    {bytes : Nat} (counted : bytes = total (before ++ piece :: after)) :
    Represents isn data consumed
      { stream with
        outOfOrder := before.map (segmentOf isn data) ++
          segmentOf isn data piece :: after.map (segmentOf isn data)
        oooBytes := bytes }
      { buffer with pending := before ++ piece :: after } := by
  obtain ⟨delivers, -, -, pendingInside⟩ := represents
  rw [parts] at pendingInside
  refine ⟨⟨delivers.1, delivers.2, delivers.3, delivers.4, delivers.5⟩, ?_, counted, ?_⟩
  · simp
  · intro other member
    simp only [List.mem_append, List.mem_cons] at member pendingInside
    rcases member with member | rfl | member
    · exact pendingInside other (.inl member)
    · exact inside
    · exact pendingInside other (.inr (.inr member))

theorem hold_represents {buffer : Buffer} {piece : Piece} (short : data.length < 2 ^ 31)
    (represents : Represents isn data consumed stream buffer) (ordered : Ordered buffer)
    (ahead : buffer.front < piece.offset) (inside : piece.stop ≤ data.length) :
    Represents isn data consumed
      (stream.bufferAhead (number isn piece.offset) (slice data piece.offset piece.length))
      (hold maxOooBytes buffer piece) := by
  have size : (slice data piece.offset piece.length).length = piece.length :=
    segment_length isn inside
  have searched := represents.partitioned short ordered ahead inside
  have split := while_congr
    (below stream.nextSeq (number isn piece.offset) ∘ segmentOf isn data)
    (fun other => decide (other.offset < piece.offset)) buffer.pending
    (by
      intro other member
      exact below_iff short represents.delivers.nextSeq ahead inside (ordered.ahead other member)
        (represents.inside other member))
  have partition := List.takeWhile_append_dropWhile
    (p := fun other : Piece => decide (other.offset < piece.offset)) (l := buffer.pending)
  simp only [bufferAhead, BinarySearch.take_lower_bound searched,
    BinarySearch.drop_lower_bound searched]
  simp only [hold, represents.outOfOrder, List.takeWhile_map, List.dropWhile_map,
    split.1, split.2, size, represents.oooBytes]
  generalize buffer.pending.takeWhile (fun other => decide (other.offset < piece.offset)) = before
    at partition ⊢
  generalize buffer.pending.dropWhile (fun other => decide (other.offset < piece.offset)) = after
    at partition ⊢
  have insertion : Represents isn data consumed
        (if total buffer.pending + piece.length ≤ maxOooBytes then
          { stream with
            outOfOrder := before.map (segmentOf isn data) ++
              segmentOf isn data piece :: after.map (segmentOf isn data)
            oooBytes := total buffer.pending + piece.length }
        else stream)
        (if total buffer.pending + piece.length ≤ maxOooBytes then
          { buffer with pending := before ++ piece :: after }
        else buffer) := by
    split_ifs
    · have counted : total buffer.pending + piece.length = total (before ++ piece :: after) := by
        rw [← partition]
        simp
        omega
      have parts : buffer.pending = before ++ ([] ++ after) := partition.symm
      exact represents.place parts inside counted
    · exact represents
  cases after with
  | nil => exact insertion
  | cons other rest =>
      have otherInside : other.stop ≤ data.length :=
        represents.inside other (by simp [← partition])
      have otherStop : other.stop = other.offset + other.length := rfl
      have pieceStop : piece.stop = piece.offset + piece.length := rfl
      have otherSize := segment_length isn otherInside
      have sameSeq : (segmentOf isn data other).seq = number isn piece.offset ↔
          other.offset = piece.offset := number_inj isn (by omega) (by omega)
      simp only [List.map_cons, sameSeq, otherSize]
      split_ifs with same room
      · have counted : total buffer.pending + (piece.length - other.length) =
            total (before ++ piece :: rest) := by
          rw [← partition]
          simp
          omega
        have parts : buffer.pending = before ++ ([other] ++ rest) := partition.symm
        have placed := represents.place parts inside counted
        simpa [segmentOf, same] using placed
      · exact represents
      · rename_i room
        rw [if_pos room, if_pos room] at insertion
        exact insertion
      · exact represents

/-- Taking in a segment moves the interval buffer by one piece, whichever of the
three branches of `ingest` its sequence number selects. -/
theorem ingest_represents {buffer : Buffer} {piece : Piece} (short : data.length < 2 ^ 31)
    (represents : Represents isn data consumed stream buffer) (ordered : Ordered buffer)
    (inside : piece.stop ≤ data.length) :
    Represents isn data consumed
      (stream.ingest (number isn piece.offset) (slice data piece.offset piece.length))
      (accept maxOooBytes buffer piece) := by
  have delivers := represents.delivers
  have frontInside := delivers.inside
  have stopEq : piece.stop = piece.offset + piece.length := rfl
  have size : (slice data piece.offset piece.length).length = piece.length :=
    segment_length isn inside
  have same : number isn piece.offset = stream.nextSeq ↔ piece.offset = buffer.front := by
    rw [delivers.nextSeq]
    exact number_inj isn (by omega) (by omega)
  have after : int32 (number isn piece.offset - stream.nextSeq) > 0 ↔
      buffer.front < piece.offset := by
    rw [delivers.nextSeq]
    exact number_after isn (by omega) (by omega)
  have moved : ∀ extra count, piece.offset ≤ buffer.front → buffer.front ≤ piece.stop →
      extra = (slice data piece.offset piece.length).drop (buffer.front - piece.offset) →
      count = UInt32.ofNat (piece.stop - buffer.front) →
      Represents isn data consumed
        (drain { stream with
          assembled := stream.assembled ++ extra
          nextSeq := stream.nextSeq + count })
        (IntervalBuffer.drainFrom buffer.pending piece.stop) := by
    intro extra count reached longer rest counted
    have drained := drain_represents short buffer.pending piece.stop
      (delivers_append piece delivers reached longer inside extra rest count counted)
      represents.oooBytes represents.inside
    rw [← represents.outOfOrder] at drained
    exact drained
  unfold ingest accept
  rw [if_neg (by simp [delivers.keepPayload])]
  simp only [size]
  by_cases atFront : piece.offset = buffer.front
  · rw [if_pos (same.mpr atFront), if_neg (by omega), Nat.max_eq_right (by omega)]
    apply moved
    · omega
    · omega
    · rw [atFront, Nat.sub_self, List.drop_zero]
    · congr 1
      omega
  · rw [if_neg (fun equal => atFront (same.mp equal))]
    by_cases ahead : buffer.front < piece.offset
    · rw [if_pos (after.mpr ahead), if_pos ahead]
      exact hold_represents short represents ordered ahead inside
    · rw [if_neg (fun positive => ahead (after.mp positive)), if_neg ahead]
      have overlap : (stream.nextSeq - number isn piece.offset).toNat =
          buffer.front - piece.offset := by
        rw [delivers.nextSeq]
        exact number_sub_of_le isn (by omega) (by omega)
      have sizeNat : (UInt32.ofNat piece.length).toNat = piece.length := by
        rw [UInt32.toNat_ofNat']
        omega
      have longer : stream.nextSeq - number isn piece.offset < UInt32.ofNat piece.length ↔
          buffer.front < piece.stop := by
        rw [UInt32.lt_iff_toNat_lt, overlap, sizeNat]
        omega
      by_cases new : buffer.front < piece.stop
      · rw [if_pos (longer.mpr new), Nat.max_eq_right (by omega), overlap]
        apply moved
        · omega
        · omega
        · rfl
        · apply UInt32.toNat_inj.mp
          have apart : stream.nextSeq - number isn piece.offset ≤ UInt32.ofNat piece.length := by
            rw [UInt32.le_iff_toNat_le, overlap, sizeNat]
            omega
          rw [UInt32.toNat_sub_of_le _ _ apart, overlap, sizeNat, UInt32.toNat_ofNat']
          omega
      · rw [if_neg (fun less => new (longer.mp less)), Nat.max_eq_left (by omega),
          drain_stuck _ _ ordered.ahead]
        exact represents

end Stream

/-- A direction that still takes in data: no FIN has been processed, and one that
was seen waits for the bytes in front of it. -/
structure Receiving (isn : UInt32) (data consumed : List UInt8) (fin : Bool)
    (stream : TcpReassembler) (buffer : Buffer) : Prop where
  represents : Represents isn data consumed stream buffer
  ordered : Ordered buffer
  within : total buffer.pending ≤ maxOooBytes
  state : stream.state = .established
  seeded : stream.seeded = true
  finSeen : stream.finSeen = fin
  waiting : fin = true → stream.finSeq = number isn data.length ∧ buffer.front < data.length

/-- The FIN has been processed; nothing is taken in any more. -/
structure Finished (isn : UInt32) (data consumed : List UInt8) (stream : TcpReassembler) :
    Prop where
  state : stream.state = .finWait1
  seeded : stream.seeded = true
  readable : stream.readPos ≤ stream.assembled.length
  nextSeq : stream.nextSeq = number isn data.length + 1
  outOfOrder : stream.outOfOrder = []
  oooBytes : stream.oooBytes = 0
  delivered : consumed ++ stream.peek = data

section Run

variable {isn : UInt32} {data consumed : List UInt8} {stream : TcpReassembler}

/-- No piece can lie ahead of a front that has reached the end. -/
theorem pending_empty {buffer : Buffer} (represents : Represents isn data consumed stream buffer)
    (ordered : Ordered buffer) (atEnd : buffer.front = data.length) : buffer.pending = [] := by
  rw [List.eq_nil_iff_forall_not_mem]
  intro piece member
  have ahead := ordered.ahead piece member
  have inside := represents.inside piece member
  simp only [Piece.stop] at inside
  omega

/-- A FIN is due as soon as the front has reached the end. -/
theorem fin_due_iff {buffer : Buffer} (short : data.length < 2 ^ 31)
    (represents : Represents isn data consumed stream buffer)
    (position : stream.finSeen = true → stream.finSeq = number isn data.length) :
    stream.FinDue ↔ stream.finSeen = true ∧ buffer.front = data.length := by
  have inside : buffer.front ≤ data.length := represents.delivers.inside
  unfold FinDue
  constructor
  · rintro ⟨seen, reached⟩
    rw [position seen, represents.delivers.nextSeq, ge_iff_le,
      number_not_before isn (by omega) (by omega)] at reached
    exact ⟨seen, by omega⟩
  · rintro ⟨seen, atEnd⟩
    refine ⟨seen, ?_⟩
    rw [position seen, represents.delivers.nextSeq, ge_iff_le,
      number_not_before isn (by omega) (by omega)]
    omega

theorem finish_finished {buffer : Buffer} (represents : Represents isn data consumed stream buffer)
    (ordered : Ordered buffer) (atEnd : buffer.front = data.length)
    (state : stream.state = .established) (seeded : stream.seeded = true) :
    Finished isn data consumed stream.finish := by
  have empty := pending_empty represents ordered atEnd
  have delivers := represents.delivers
  have delivered := delivers.delivered
  rw [atEnd, List.take_length] at delivered
  constructor
  · simp [finish, state]
  · exact seeded
  · exact delivers.readable
  · simp only [finish, delivers.nextSeq, atEnd]
  · simp only [finish, represents.outOfOrder, empty, List.map_nil]
  · simp only [finish, represents.oooBytes, empty, total_nil]
  · exact delivered

/-- What `onData` knows before it asks for a FIN that is due. -/
theorem marked_receiving {fin : Bool} {buffer : Buffer} {piece : Piece} {header : Tcp.Header}
    (short : data.length < 2 ^ 31)
    (receiving : Receiving isn data consumed fin stream buffer)
    (seq : header.seqNumber = number isn piece.offset) (inside : piece.stop ≤ data.length)
    (finLast : header.fin = true → piece.stop = data.length)
    {marked : TcpReassembler}
    (marks : stream.marked header (slice data piece.offset piece.length) = marked) :
    Represents isn data consumed marked (accept maxOooBytes buffer piece) ∧
      marked.state = .established ∧ marked.seeded = true ∧
      marked.finSeen = (fin || header.fin) ∧
      (marked.finSeen = true → marked.finSeq = number isn data.length) := by
  have represents := ingest_represents short receiving.represents receiving.ordered inside
  have control := ingest_control stream header.seqNumber (slice data piece.offset piece.length)
  rw [← seq] at represents
  have size : (slice data piece.offset piece.length).length = piece.length :=
    segment_length isn inside
  have state := control.state.trans receiving.state
  have seeded := control.seeded.trans receiving.seeded
  subst marks
  unfold marked
  cases own : header.fin with
  | true =>
      have last : header.seqNumber + UInt32.ofNat (slice data piece.offset piece.length).length =
          number isn data.length := by
        rw [seq, size, number_add]
        exact congrArg (number isn) (finLast own)
      have delivers := represents.delivers
      refine ⟨?_, state, seeded, (Bool.or_true fin).symm, fun _ => last⟩
      exact ⟨⟨delivers.1, delivers.2, delivers.3, delivers.4, delivers.5⟩,
        represents.outOfOrder, represents.oooBytes, represents.inside⟩
  | false =>
      have seen := control.finSeen.trans receiving.finSeen
      refine ⟨represents, state, seeded, seen.trans (Bool.or_false fin).symm, ?_⟩
      intro known
      exact control.finSeq.trans (receiving.waiting (seen.symm.trans known)).1

/-- One segment of a direction that still receives: the buffer accepts its piece,
and the FIN is processed exactly when it has been seen and the front is at the end. -/
theorem on_data_receiving {fin : Bool} {buffer : Buffer} {piece : Piece} {header : Tcp.Header}
    (short : data.length < 2 ^ 31)
    (receiving : Receiving isn data consumed fin stream buffer)
    (seq : header.seqNumber = number isn piece.offset) (inside : piece.stop ≤ data.length)
    (finLast : header.fin = true → piece.stop = data.length) :
    let next := accept maxOooBytes buffer piece
    let after := stream.onData header (slice data piece.offset piece.length)
    if (fin || header.fin) = true ∧ next.front = data.length then Finished isn data consumed after
    else Receiving isn data consumed (fin || header.fin) after next := by
  intro next after
  have unfolded : after = _ := on_data_eq stream header (slice data piece.offset piece.length)
  have ordered : Ordered next := accept_ordered receiving.ordered
  have within : total next.pending ≤ maxOooBytes :=
    accept_total_le_limit receiving.ordered receiving.within
  obtain ⟨represents, state, seeded, seen, position⟩ :=
    marked_receiving short receiving seq inside finLast rfl
  rw [unfolded]
  generalize stream.marked header (slice data piece.offset piece.length) = marked
    at represents state seeded seen position
  have due := fin_due_iff short represents position
  rw [seen] at due
  by_cases complete : (fin || header.fin) = true ∧ next.front = data.length
  · rw [if_pos complete, if_pos (due.mpr complete)]
    exact finish_finished represents ordered complete.2 state seeded
  · rw [if_neg complete, if_neg (fun reached => complete (due.mp reached))]
    refine ⟨represents, ordered, within, state, seeded, seen, ?_⟩
    intro known
    have frontInside : next.front ≤ data.length := represents.delivers.inside
    have behind : next.front ≠ data.length := fun reached => complete ⟨known, reached⟩
    exact ⟨position (seen.trans known), by omega⟩

end Run

/-- One call on the stream of a direction. -/
inductive Call where
  | sent (header : Tcp.Header) (piece : Piece)
  | consume (n : Nat)

/-- The stream with everything that was consumed from it. -/
structure Session where
  stream : TcpReassembler
  consumed : List UInt8

def Session.call (data : List UInt8) (session : Session) : Call → Session
  | .sent header piece =>
      { session with
        stream := session.stream.onSent header (slice data piece.offset piece.length) }
  | .consume n =>
      { stream := session.stream.consume n
        consumed := session.consumed ++ session.stream.peek.take n }

/-- A fresh reassembler, seeded by an empty segment. -/
def Session.start (seed : Tcp.Header) : Session :=
  { stream := ({} : TcpReassembler).onSent seed [], consumed := [] }

def Session.run (data : List UInt8) (seed : Tcp.Header) (calls : List Call) : Session :=
  calls.foldl (Session.call data) (Session.start seed)

/-- An ACK segment without SYN or RST that carries a slice of the stream under its
own sequence number, with FIN only at the end of the stream. -/
def Call.Carries (isn : UInt32) (data : List UInt8) : Call → Prop
  | .sent header piece =>
      header.ack = true ∧ header.syn = false ∧ header.rst = false ∧
        header.seqNumber = number isn piece.offset ∧ piece.stop ≤ data.length ∧
        (header.fin = true → piece.stop = data.length)
  | .consume _ => True

/-- The pieces sent by a list of calls. -/
def pieces (calls : List Call) : List Piece :=
  calls.filterMap fun
    | .sent _ piece => some piece
    | .consume _ => none

def Call.isFin : Call → Bool
  | .sent header _ => header.fin
  | .consume _ => false

def finSent (calls : List Call) : Bool := calls.any Call.isFin

/-- The positions of the stream that some sent segment carries. -/
def Covered (calls : List Call) (i : Nat) : Prop := ∃ piece ∈ pieces calls, piece.Covers i

@[simp] theorem pieces_append (left right : List Call) :
    pieces (left ++ right) = pieces left ++ pieces right := by
  simp [pieces]

@[simp] theorem fin_sent_append (left right : List Call) :
    finSent (left ++ right) = (finSent left || finSent right) := by
  simp [finSent]

/-- The state of a session after some calls. The coverage part only holds as long
as the segments sent fit the out-of-order buffer. -/
inductive Progress (isn : UInt32) (data : List UInt8) (calls : List Call) (session : Session) :
    Prop
  | receiving (buffer : Buffer)
      (receiving : Receiving isn data session.consumed (finSent calls) session.stream buffer)
      (tracks : total (pieces calls) ≤ maxOooBytes →
        Tracks (pieces calls) buffer ∧ total buffer.pending ≤ total (pieces calls))
  | finished (finished : Finished isn data session.consumed session.stream)
      (fin : finSent calls = true)
      (covered : total (pieces calls) ≤ maxOooBytes → ∀ i < data.length, Covered calls i)

theorem tracks_of_mem_iff (left : List Piece) {right : List Piece} {buffer : Buffer}
    (same : ∀ piece, piece ∈ left ↔ piece ∈ right) (tracks : Tracks left buffer) :
    Tracks right buffer := by
  constructor
  · intro i reached
    obtain ⟨piece, member, covers⟩ := tracks.reached i reached
    exact ⟨piece, (same piece).mp member, covers⟩
  · intro piece member
    exact tracks.kept piece ((same piece).mpr member)
  · intro piece member
    exact (same piece).mp (tracks.genuine piece member)

theorem start_progress (isn : UInt32) (data : List UInt8) (seed : Tcp.Header)
    (ack : seed.ack = true) (syn : seed.syn = false) (rst : seed.rst = false)
    (fin : seed.fin = false) (seq : seed.seqNumber = isn) :
    Progress isn data [] (Session.start seed) := by
  have seeded : ({} : TcpReassembler).onSent seed [] =
      { nextSeq := isn, seeded := true, state := .established } := by
    simp [onSent, rst, syn, ack, onData, ingest, fin, seq, drain, TcpReassembler.drainFrom]
  refine .receiving ⟨0, []⟩ ?_ ?_
  · simp only [Session.start, seeded]
    exact
      { represents := ⟨⟨rfl, le_rfl, Nat.zero_le _, by simp, by simp [peek]⟩, rfl, rfl, by simp⟩
        ordered := ⟨List.Pairwise.nil, by simp⟩
        within := Nat.zero_le _
        state := rfl
        seeded := rfl
        finSeen := rfl
        waiting := by simp [finSent] }
  · intro _
    exact ⟨tracks_empty, le_rfl⟩

theorem consume_progress {isn : UInt32} {data : List UInt8} {calls : List Call}
    {session : Session} (progress : Progress isn data calls session) (n : Nat) :
    Progress isn data (calls ++ [.consume n]) (session.call data (.consume n)) := by
  have samePieces : pieces (calls ++ [.consume n]) = pieces calls := by simp [pieces]
  have sameFin : finSent (calls ++ [.consume n]) = finSent calls := by simp [finSent, Call.isFin]
  have control : (session.stream.consume n).state = session.stream.state ∧
      (session.stream.consume n).seeded = session.stream.seeded ∧
      (session.stream.consume n).nextSeq = session.stream.nextSeq ∧
      (session.stream.consume n).outOfOrder = session.stream.outOfOrder ∧
      (session.stream.consume n).oooBytes = session.stream.oooBytes ∧
      (session.stream.consume n).keepPayload = session.stream.keepPayload ∧
      (session.stream.consume n).finSeen = session.stream.finSeen ∧
      (session.stream.consume n).finSeq = session.stream.finSeq := by
    obtain ⟨assembled, readPos, moved⟩ := consume_frame session.stream n
    rw [moved]
    exact ⟨rfl, rfl, rfl, rfl, rfl, rfl, rfl, rfl⟩
  obtain ⟨state, seeded, nextSeq, outOfOrder, oooBytes, keepPayload, finSeen, finSeq⟩ := control
  have delivered : ∀ readable : session.stream.readPos ≤ session.stream.assembled.length,
      session.consumed ++ session.stream.peek.take n ++ (session.stream.consume n).peek =
        session.consumed ++ session.stream.peek := by
    intro readable
    rw [consume_peek _ _ readable, List.append_assoc, List.take_append_drop]
  cases progress with
  | receiving buffer receiving tracks =>
      have delivers := receiving.represents.delivers
      refine .receiving buffer ?_ (by rw [samePieces]; exact tracks)
      rw [sameFin]
      exact
        { represents :=
            ⟨⟨keepPayload.trans delivers.keepPayload,
              consume_length_bound _ _ delivers.readable, delivers.inside,
              nextSeq.trans delivers.nextSeq,
              (delivered delivers.readable).trans delivers.delivered⟩,
              outOfOrder.trans receiving.represents.outOfOrder,
              oooBytes.trans receiving.represents.oooBytes, receiving.represents.inside⟩
          ordered := receiving.ordered
          within := receiving.within
          state := state.trans receiving.state
          seeded := seeded.trans receiving.seeded
          finSeen := finSeen.trans receiving.finSeen
          waiting := by
            intro known
            exact ⟨finSeq.trans (receiving.waiting known).1, (receiving.waiting known).2⟩ }
  | finished finished fin covered =>
      refine .finished ?_ (by rw [sameFin]; exact fin)
        (by
          intro room i inside
          rw [samePieces] at room
          unfold Covered
          rw [samePieces]
          exact covered room i inside)
      exact
        { state := state.trans finished.state
          seeded := seeded.trans finished.seeded
          readable := consume_length_bound _ _ finished.readable
          nextSeq := nextSeq.trans finished.nextSeq
          outOfOrder := outOfOrder.trans finished.outOfOrder
          oooBytes := oooBytes.trans finished.oooBytes
          delivered := (delivered finished.readable).trans finished.delivered }

theorem sent_progress {isn : UInt32} {data : List UInt8} {calls : List Call}
    {session : Session} (short : data.length < 2 ^ 31)
    (progress : Progress isn data calls session) (header : Tcp.Header) (piece : Piece)
    (carries : (Call.sent header piece).Carries isn data) :
    Progress isn data (calls ++ [.sent header piece])
      (session.call data (.sent header piece)) := by
  obtain ⟨_, _, rst, seq, inside, finLast⟩ := carries
  have morePieces : pieces (calls ++ [.sent header piece]) = pieces calls ++ [piece] := by
    simp [pieces]
  have moreFin : finSent (calls ++ [.sent header piece]) = (finSent calls || header.fin) := by
    simp [finSent, Call.isFin]
  cases progress with
  | receiving buffer receiving tracks =>
      have onSentEq : session.stream.onSent header (slice data piece.offset piece.length) =
          session.stream.onData header (slice data piece.offset piece.length) := by
        simp [onSent, rst, receiving.seeded, receiving.state]
      have advanced : total (pieces calls ++ [piece]) ≤ maxOooBytes →
          Tracks (pieces calls ++ [piece]) (accept maxOooBytes buffer piece) ∧
            total (accept maxOooBytes buffer piece).pending ≤ total (pieces calls ++ [piece]) := by
        intro room
        simp only [total_append, total_cons, total_nil] at room ⊢
        obtain ⟨tracked, bounded⟩ := tracks (by omega)
        constructor
        · apply tracks_of_mem_iff (piece :: pieces calls) (by simp [or_comm])
          exact accept_tracks receiving.ordered tracked (by omega)
        · have grown := accept_total_le maxOooBytes piece receiving.ordered
          omega
      have stepped := on_data_receiving short receiving seq inside finLast
      simp only at stepped
      split_ifs at stepped with complete
      · refine .finished ?_ ?_ ?_
        · simpa only [Session.call, onSentEq] using stepped
        · rw [moreFin]
          exact complete.1
        · intro room i reached
          rw [morePieces] at room
          unfold Covered
          rw [morePieces]
          exact (advanced room).1.reached i (by rw [complete.2]; exact reached)
      · refine .receiving (accept maxOooBytes buffer piece) ?_ ?_
        · simpa only [Session.call, onSentEq, moreFin] using stepped
        · rw [morePieces]
          exact advanced
  | finished finished fin covered =>
      have ignored : session.stream.onSent header (slice data piece.offset piece.length) =
          session.stream := by
        simp [onSent, rst, finished.seeded, finished.state]
      refine .finished ?_ ?_ ?_
      · simpa only [Session.call, ignored] using finished
      · rw [moreFin, fin, Bool.true_or]
      · intro room i reached
        rw [morePieces, total_append] at room
        obtain ⟨earlier, member, covers⟩ := covered (by omega) i reached
        exact ⟨earlier, by rw [morePieces]; simp [member], covers⟩

theorem run_progress (isn : UInt32) (data : List UInt8) (short : data.length < 2 ^ 31)
    (seed : Tcp.Header) (ack : seed.ack = true) (syn : seed.syn = false)
    (rst : seed.rst = false) (fin : seed.fin = false) (seq : seed.seqNumber = isn)
    (calls : List Call) (carries : ∀ call ∈ calls, call.Carries isn data) :
    Progress isn data calls (Session.run data seed calls) := by
  induction calls using List.reverseRecOn with
  | nil => exact start_progress isn data seed ack syn rst fin seq
  | append_singleton calls call ih =>
      have earlier := ih (by intro other member; exact carries other (by simp [member]))
      have last := carries call (by simp)
      rw [Session.run, List.foldl_append]
      cases call with
      | sent header piece => exact sent_progress short earlier header piece last
      | consume n => exact consume_progress earlier n

/-- The sequence number reached once the first `k` bytes are delivered. -/
def finalSeq (isn : UInt32) (data : List UInt8) (calls : List Call) (k : Nat) : UInt32 :=
  number isn k + if k = data.length ∧ finSent calls = true then 1 else 0

theorem progress_initial {isn : UInt32} {data : List UInt8} {calls : List Call}
    {session : Session} (progress : Progress isn data calls session) :
    (session.consumed ++ session.stream.peek) <+: data := by
  cases progress with
  | receiving buffer receiving =>
      rw [receiving.represents.delivers.delivered]
      exact List.take_prefix _ _
  | finished finished =>
      exact finished.delivered ▸ List.prefix_rfl

theorem progress_covered {isn : UInt32} {data : List UInt8} {calls : List Call}
    {session : Session} (progress : Progress isn data calls session)
    (room : total (pieces calls) ≤ maxOooBytes) :
    ∃ k, IsGreatest {k | k ≤ data.length ∧ ∀ i < k, Covered calls i} k ∧
      session.consumed ++ session.stream.peek = data.take k ∧
      session.stream.nextSeq = finalSeq isn data calls k ∧
      (k = data.length → session.stream.outOfOrder = [] ∧ session.stream.oooBytes = 0) := by
  cases progress with
  | receiving buffer receiving tracks =>
      have represents := receiving.represents
      have greatest := front_greatest receiving.ordered (tracks room).1
      refine ⟨buffer.front, ⟨⟨represents.delivers.inside, greatest.1⟩, ?_⟩,
        represents.delivers.delivered, ?_, ?_⟩
      · intro k covered
        exact greatest.2 covered.2
      · rw [represents.delivers.nextSeq, finalSeq, if_neg, UInt32.add_zero]
        intro complete
        have open_end := (receiving.waiting complete.2).2
        omega
      · intro atEnd
        have empty := pending_empty represents receiving.ordered atEnd
        rw [represents.outOfOrder, represents.oooBytes, empty]
        exact ⟨rfl, rfl⟩
  | finished finished fin covered =>
      refine ⟨data.length, ⟨⟨le_rfl, covered room⟩, ?_⟩, ?_, ?_, ?_⟩
      · intro k bounded
        exact bounded.1
      · rw [finished.delivered, List.take_length]
      · rw [finished.nextSeq, finalSeq, if_pos ⟨rfl, fin⟩]
      · intro _
        exact ⟨finished.outOfOrder, finished.oooBytes⟩

/-- What was consumed followed by what can be read is always an initial part of the
stream. If the segments fit the out-of-order buffer it is the longest part the
segments cover, so it depends on what they cover and on nothing else. -/
theorem reassembly_delivers_covered_part (isn : UInt32) (data : List UInt8)
    (short : data.length < 2 ^ 31) (seed : Tcp.Header) (ack : seed.ack = true)
    (syn : seed.syn = false) (rst : seed.rst = false) (fin : seed.fin = false)
    (seq : seed.seqNumber = isn) (calls : List Call)
    (carries : ∀ call ∈ calls, call.Carries isn data) :
    let final := Session.run data seed calls
    (final.consumed ++ final.stream.peek) <+: data ∧
    (total (pieces calls) ≤ maxOooBytes →
      (∃ k, IsGreatest {k | k ≤ data.length ∧ ∀ i < k, Covered calls i} k ∧
        final.consumed ++ final.stream.peek = data.take k ∧
        final.stream.nextSeq = finalSeq isn data calls k ∧
        (k = data.length → final.stream.outOfOrder = [] ∧ final.stream.oooBytes = 0)) ∧
      ∀ others : List Call, (∀ call ∈ others, call.Carries isn data) →
        total (pieces others) ≤ maxOooBytes → (∀ i, Covered calls i ↔ Covered others i) →
        finSent calls = finSent others →
        let other := Session.run data seed others
        final.consumed ++ final.stream.peek = other.consumed ++ other.stream.peek ∧
          final.stream.nextSeq = other.stream.nextSeq) := by
  intro final
  have progress := run_progress isn data short seed ack syn rst fin seq calls carries
  refine ⟨progress_initial progress, ?_⟩
  intro room
  have reached := progress_covered progress room
  refine ⟨reached, ?_⟩
  intro others othersCarry othersRoom sameCover sameFin other
  have otherProgress := run_progress isn data short seed ack syn rst fin seq others othersCarry
  obtain ⟨k, greatest, delivered, nextSeq, _⟩ := reached
  obtain ⟨l, otherGreatest, otherDelivered, otherSeq, _⟩ :=
    progress_covered otherProgress othersRoom
  have sameSet : {k | k ≤ data.length ∧ ∀ i < k, Covered calls i} =
      {k | k ≤ data.length ∧ ∀ i < k, Covered others i} := by
    ext bound
    simp only [Set.mem_ofPred_eq, sameCover]
  rw [sameSet] at greatest
  have sameEnd : k = l := greatest.unique otherGreatest
  constructor
  · rw [delivered, otherDelivered, sameEnd]
  · rw [nextSeq, otherSeq, sameEnd, finalSeq, finalSeq, sameFin]

/-- Two segments in the wrong order across the wraparound, the first with the FIN. -/
theorem reassembly_delivers_covered_part_wraparound :
    let seed : Tcp.Header := { flags := 0x10, seqNumber := 0xFFFFFFFF }
    let final := Session.run [7, 8, 9] seed
      [.sent { flags := 0x11, seqNumber := 0 } ⟨1, 2⟩,
        .sent { flags := 0x10, seqNumber := 0xFFFFFFFF } ⟨0, 1⟩, .consume 2]
    (final.consumed ++ final.stream.peek) <+: [7, 8, 9] :=
  (reassembly_delivers_covered_part 0xFFFFFFFF [7, 8, 9] (by decide)
    { flags := 0x10, seqNumber := 0xFFFFFFFF } (by decide) (by decide) (by decide) (by decide)
    rfl _ (by
      intro call member
      simp only [List.mem_cons, List.not_mem_nil, or_false] at member
      rcases member with rfl | rfl | rfl
      · simp only [Call.Carries]
        decide
      · simp only [Call.Carries]
        decide
      · trivial)).1

end PcapAnalyzer.Reassembly
