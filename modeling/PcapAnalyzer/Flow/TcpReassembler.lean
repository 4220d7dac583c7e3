import PcapAnalyzer.Library.BinarySearch
import PcapAnalyzer.Library.SerialNumber
import PcapAnalyzer.Protocols.Transport

/-!
# The TCP reassembler

One direction of a connection: the twelve-state machine driven by the segments
sent (`onSent`) and received (`onReceived`), the assembled stream with its read
position, and the out-of-order buffer. Sequence numbers are 32-bit words and are
compared through their signed difference, `int32` being the
`static_cast<int32_t>` of the source. Capacity management
of the buffers has no observable effect and is left out.
-/

namespace PcapAnalyzer

open SerialNumber (int32)

set_option autoImplicit false

inductive TcpState where
  | unknown
  | closed
  | listen
  | synSent
  | synReceived
  | established
  | finWait1
  | finWait2
  | closeWait
  | closing
  | lastAck
  | timeWait
  deriving DecidableEq, Repr

structure Segment where
  seq : UInt32 := 0
  data : List UInt8 := []
  deriving DecidableEq, Repr

structure TcpReassembler where
  state : TcpState := .unknown
  nextSeq : UInt32 := 0
  oooBytes : Nat := 0
  outOfOrder : List Segment := []
  assembled : List UInt8 := []
  finSeen : Bool := false
  finSeq : UInt32 := 0
  seeded : Bool := false
  keepPayload : Bool := true
  readPos : Nat := 0
  deriving DecidableEq, Repr

namespace TcpReassembler

def maxOooBytes : Nat := 1048576
def minCompactBytes : Nat := 4096

def available (stream : TcpReassembler) : Nat := stream.assembled.length - stream.readPos

def peek (stream : TcpReassembler) : List UInt8 := stream.assembled.drop stream.readPos

def consume (stream : TcpReassembler) (n : Nat) : TcpReassembler :=
  let readPos := stream.readPos + min n stream.available
  if readPos > minCompactBytes ∧ readPos > stream.assembled.length / 2 then
    { stream with assembled := stream.assembled.drop readPos, readPos := 0 }
  else { stream with readPos := readPos }

def hasReadableData (stream : TcpReassembler) : Bool :=
  stream.state = .established || stream.state = .finWait1 || stream.state = .finWait2

/-- The loop of `drain` over the front of the out-of-order buffer. -/
def drainFrom : List Segment → TcpReassembler → TcpReassembler
  | [], stream => { stream with outOfOrder := [] }
  | segment :: rest, stream =>
      let delta := segment.seq - stream.nextSeq
      if int32 delta > 0 then { stream with outOfOrder := segment :: rest } else
      let covered := (0 - delta).toNat
      let stream := if covered < segment.data.length then
          { stream with
            assembled := stream.assembled ++ segment.data.drop covered
            nextSeq := stream.nextSeq + UInt32.ofNat (segment.data.length - covered) }
        else stream
      drainFrom rest { stream with oooBytes := stream.oooBytes - segment.data.length }

def drain (stream : TcpReassembler) : TcpReassembler := drainFrom stream.outOfOrder stream

/-- `keep_payload = false`: only the sequence number is tracked. -/
def ingestUnkept (stream : TcpReassembler) (seq : UInt32) (span : List UInt8) : TcpReassembler :=
  let size := UInt32.ofNat span.length
  if seq = stream.nextSeq then { stream with nextSeq := stream.nextSeq + size }
  else if int32 (seq - stream.nextSeq) < 0 then
    let overlap := stream.nextSeq - seq
    if overlap < size then { stream with nextSeq := stream.nextSeq + (size - overlap) }
    else stream
  else stream

/-- The comparison that `std::lower_bound` is given. -/
def below (base seq : UInt32) (segment : Segment) : Bool := segment.seq - base < seq - base

/-- `std::lower_bound` finds a place in the buffer by halving; the segment replaces a shorter
one that it finds with the same sequence number or is inserted there, unless the cap refuses
it. -/
def bufferAhead (stream : TcpReassembler) (seq : UInt32) (span : List UInt8) : TcpReassembler :=
  let base := stream.nextSeq
  let it := BinarySearch.lowerBound (below base seq) stream.outOfOrder
  let before := stream.outOfOrder.take it
  let insert := fun (after : List Segment) =>
    if stream.oooBytes + span.length ≤ maxOooBytes then
      { stream with
        outOfOrder := before ++ { seq := seq, data := span } :: after
        oooBytes := stream.oooBytes + span.length }
    else stream
  match stream.outOfOrder.drop it with
  | [] => insert []
  | it :: rest =>
      if it.seq = seq then
        if span.length > it.data.length ∧
            stream.oooBytes + span.length - it.data.length ≤ maxOooBytes then
          { stream with
            outOfOrder := before ++ { it with data := span } :: rest
            oooBytes := stream.oooBytes + (span.length - it.data.length) }
        else stream
      else insert (it :: rest)

def ingest (stream : TcpReassembler) (seq : UInt32) (span : List UInt8) : TcpReassembler :=
  if !stream.keepPayload then stream.ingestUnkept seq span else
  let size := UInt32.ofNat span.length
  if seq = stream.nextSeq then
    drain { stream with
      assembled := stream.assembled ++ span
      nextSeq := stream.nextSeq + size }
  else if int32 (seq - stream.nextSeq) > 0 then stream.bufferAhead seq span
  else
    let overlap := stream.nextSeq - seq
    if overlap < size then
      drain { stream with
        assembled := stream.assembled ++ span.drop overlap.toNat
        nextSeq := stream.nextSeq + (size - overlap) }
    else stream

def onData (stream : TcpReassembler) (header : Tcp.Header) (span : List UInt8) : TcpReassembler :=
  let stream := stream.ingest header.seqNumber span
  let stream := if header.fin then
      { stream with
        finSeen := true
        finSeq := header.seqNumber + UInt32.ofNat span.length }
    else stream
  if stream.finSeen ∧ int32 (stream.nextSeq - stream.finSeq) ≥ 0 then
    { stream with
      nextSeq := stream.nextSeq + 1
      finSeen := false
      state := if stream.state = .closeWait then .lastAck else .finWait1 }
  else stream

def onSent (stream : TcpReassembler) (header : Tcp.Header) (span : List UInt8) : TcpReassembler :=
  if header.rst then { stream with state := .closed } else
  if !stream.seeded then
    if header.syn then
      ingest { stream with
        nextSeq := header.seqNumber + 1
        state := if header.ack then .synReceived else .synSent
        seeded := true } (header.seqNumber + 1) span
    else if header.ack then
      onData { stream with
        nextSeq := header.seqNumber
        seeded := true
        state := if stream.state ≠ .closeWait then .established else stream.state } header span
    else stream
  else
    match stream.state with
    | .unknown | .closed | .listen => stream
    | .synSent =>
        if header.ack && !header.syn then
          onData { stream with state := .established } header span
        else stream
    | .synReceived => stream
    | .established | .closeWait => stream.onData header span
    | .finWait1 | .finWait2 | .closing | .lastAck | .timeWait => stream

/-- The peer acknowledged everything up to `next_seq`. -/
def acknowledged (stream : TcpReassembler) (header : Tcp.Header) : Bool :=
  header.ack && int32 (header.ackNumber - stream.nextSeq) ≥ 0

def onReceived (stream : TcpReassembler) (header : Tcp.Header) : TcpReassembler :=
  if header.rst then { stream with state := .closed } else
  match stream.state with
  | .unknown | .closed | .listen =>
      if header.syn && !header.ack then { stream with state := .listen }
      else if header.ack && !header.syn then
        { stream with state := if header.fin then .closeWait else .established }
      else stream
  | .synSent =>
      if header.syn && !header.ack then { stream with state := .synReceived } else stream
  | .synReceived =>
      if header.ack && !header.syn then
        { stream with state := if header.fin then .closeWait else .established }
      else stream
  | .established => if header.fin then { stream with state := .closeWait } else stream
  | .finWait1 =>
      if header.fin && stream.acknowledged header then { stream with state := .timeWait }
      else if header.fin then { stream with state := .closing }
      else if stream.acknowledged header then { stream with state := .finWait2 }
      else stream
  | .finWait2 => if header.fin then { stream with state := .timeWait } else stream
  | .closing => if stream.acknowledged header then { stream with state := .timeWait } else stream
  | .lastAck => if stream.acknowledged header then { stream with state := .closed } else stream
  | .timeWait | .closeWait => stream

/-- What taking in a payload never changes: everything but the bytes held and the
sequence number reached. -/
structure SameControl (before after : TcpReassembler) : Prop where
  state : after.state = before.state
  finSeen : after.finSeen = before.finSeen
  finSeq : after.finSeq = before.finSeq
  seeded : after.seeded = before.seeded
  keepPayload : after.keepPayload = before.keepPayload
  readPos : after.readPos = before.readPos

theorem SameControl.refl (stream : TcpReassembler) : SameControl stream stream :=
  ⟨rfl, rfl, rfl, rfl, rfl, rfl⟩

theorem drain_from_control (segments : List Segment) (before stream : TcpReassembler)
    (same : SameControl before stream) : SameControl before (drainFrom segments stream) := by
  induction segments generalizing stream with
  | nil => exact ⟨same.1, same.2, same.3, same.4, same.5, same.6⟩
  | cons segment rest ih =>
      simp only [drainFrom]
      split_ifs
      · exact ⟨same.1, same.2, same.3, same.4, same.5, same.6⟩
      · exact ih _ ⟨same.1, same.2, same.3, same.4, same.5, same.6⟩
      · exact ih _ ⟨same.1, same.2, same.3, same.4, same.5, same.6⟩

/-- What becomes of a segment that lies ahead: it is left out, it is put in, or it stands in
for a shorter one with its sequence number. -/
inductive Buffers (stream : TcpReassembler) (seq : UInt32) (span : List UInt8) :
    TcpReassembler → Prop where
  | leftOut : Buffers stream seq span stream
  | putIn {before after : List Segment} (split : stream.outOfOrder = before ++ after)
      (room : stream.oooBytes + span.length ≤ maxOooBytes) :
      Buffers stream seq span { stream with
        outOfOrder := before ++ { seq := seq, data := span } :: after
        oooBytes := stream.oooBytes + span.length }
  | replaced {before rest : List Segment} {it : Segment}
      (split : stream.outOfOrder = before ++ it :: rest) (same : it.seq = seq)
      (longer : span.length > it.data.length)
      (room : stream.oooBytes + span.length - it.data.length ≤ maxOooBytes) :
      Buffers stream seq span { stream with
        outOfOrder := before ++ { it with data := span } :: rest
        oooBytes := stream.oooBytes + (span.length - it.data.length) }

theorem buffer_ahead_buffers (stream : TcpReassembler) (seq : UInt32) (span : List UInt8) :
    Buffers stream seq span (stream.bufferAhead seq span) := by
  simp only [bufferAhead]
  generalize BinarySearch.lowerBound (below stream.nextSeq seq) stream.outOfOrder = it
  have split := (List.take_append_drop it stream.outOfOrder).symm
  cases tail : stream.outOfOrder.drop it with
  | nil =>
      rw [tail] at split
      by_cases room : stream.oooBytes + span.length ≤ maxOooBytes
      · simp only [if_pos room]
        exact .putIn split room
      · simp only [if_neg room]
        exact .leftOut
  | cons it rest =>
      rw [tail] at split
      by_cases same : it.seq = seq
      · simp only [if_pos same]
        by_cases longer : span.length > it.data.length ∧
            stream.oooBytes + span.length - it.data.length ≤ maxOooBytes
        · rw [if_pos longer]
          exact .replaced split same longer.1 longer.2
        · rw [if_neg longer]
          exact .leftOut
      · simp only [if_neg same]
        by_cases room : stream.oooBytes + span.length ≤ maxOooBytes
        · rw [if_pos room]
          exact .putIn split room
        · rw [if_neg room]
          exact .leftOut

theorem buffer_ahead_control (stream : TcpReassembler) (seq : UInt32) (span : List UInt8) :
    SameControl stream (stream.bufferAhead seq span) := by
  have buffers := buffer_ahead_buffers stream seq span
  generalize stream.bufferAhead seq span = buffered at buffers ⊢
  cases buffers with
  | leftOut => exact .refl stream
  | putIn => exact ⟨rfl, rfl, rfl, rfl, rfl, rfl⟩
  | replaced => exact ⟨rfl, rfl, rfl, rfl, rfl, rfl⟩

theorem ingest_control (stream : TcpReassembler) (seq : UInt32) (span : List UInt8) :
    SameControl stream (stream.ingest seq span) := by
  simp only [ingest, ingestUnkept, drain]
  split_ifs
  all_goals first
    | exact ⟨rfl, rfl, rfl, rfl, rfl, rfl⟩
    | exact drain_from_control _ _ _ ⟨rfl, rfl, rfl, rfl, rfl, rfl⟩
    | exact buffer_ahead_control stream seq span

/-- Consuming only moves bytes and the read position. -/
theorem consume_frame (stream : TcpReassembler) (n : Nat) :
    ∃ assembled readPos,
      stream.consume n = { stream with assembled := assembled, readPos := readPos } := by
  by_cases compacts : stream.readPos + min n stream.available > minCompactBytes ∧
      stream.readPos + min n stream.available > stream.assembled.length / 2
  · exact ⟨_, _, by rw [consume, if_pos compacts]⟩
  · exact ⟨stream.assembled, _, by rw [consume, if_neg compacts]⟩

theorem consume_length_bound (stream : TcpReassembler) (n : Nat)
    (readable : stream.readPos ≤ stream.assembled.length) :
    (stream.consume n).readPos ≤ (stream.consume n).assembled.length := by
  unfold consume available
  by_cases compacts : stream.readPos + min n (stream.assembled.length - stream.readPos) >
      minCompactBytes ∧ stream.readPos + min n (stream.assembled.length - stream.readPos) >
        stream.assembled.length / 2
  · simp [compacts]
  · simp only [compacts, if_false]
    omega

/-- Compaction included, consuming drops bytes from the front of `peek`. -/
theorem consume_peek (stream : TcpReassembler) (n : Nat)
    (readable : stream.readPos ≤ stream.assembled.length) :
    (stream.consume n).peek = stream.peek.drop n := by
  have clipped : stream.peek.drop n =
      stream.assembled.drop (stream.readPos + min n stream.available) := by
    simp only [peek, List.drop_drop, available]
    rcases Nat.le_total n (stream.assembled.length - stream.readPos) with short | long
    · rw [Nat.min_eq_left short]
    · rw [Nat.min_eq_right long, List.drop_eq_nil_of_le (by omega),
        List.drop_eq_nil_of_le (by omega)]
  rw [clipped]
  simp only [consume]
  split_ifs <;> simp [peek]

theorem available_eq_peek (stream : TcpReassembler) : stream.available = stream.peek.length := by
  simp [available, peek]

end TcpReassembler

end PcapAnalyzer
