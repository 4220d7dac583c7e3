import Mathlib.Data.List.Induction
import Mathlib.Tactic.SplitIfs
import PcapAnalyzer.Flow.TcpReassembler

/-!
# Runs of a reassembler

A reassembler is driven by the segments its side sends and receives and by the reads of
the application decoder. What a sent segment can do is said once, in `on_sent_cases`, and
the FIN that `onData` processes is what the closing states are about.
-/

namespace PcapAnalyzer.TcpReassembler

open SerialNumber (int32)

set_option autoImplicit false

/-- A call on a reassembler. -/
inductive Event where
  | sent (header : Tcp.Header) (span : List UInt8)
  | received (header : Tcp.Header)
  | consume (n : Nat)

def step (stream : TcpReassembler) : Event → TcpReassembler
  | .sent header span => stream.onSent header span
  | .received header => stream.onReceived header
  | .consume n => stream.consume n

def run (stream : TcpReassembler) (events : List Event) : TcpReassembler :=
  events.foldl step stream

/-- A fresh reassembler, as `FlowTable` sets one up. -/
def fresh (keepPayload : Bool) : TcpReassembler := { keepPayload := keepPayload }

section Run

variable (stream : TcpReassembler) (events : List Event) (event : Event)

@[simp] theorem run_nil : stream.run [] = stream := rfl

@[simp] theorem run_cons : stream.run (event :: events) = (stream.step event).run events := rfl

@[simp] theorem run_append_one : stream.run (events ++ [event]) = (stream.run events).step event :=
  List.foldl_append

/-- What holds of the start and is kept by every call holds after every run; it may speak of
the calls so far. -/
theorem run_history (stream : TcpReassembler) (holds : List Event → TcpReassembler → Prop)
    (start : holds [] stream)
    (kept : ∀ events event, holds events (stream.run events) →
      holds (events ++ [event]) ((stream.run events).step event))
    (events : List Event) : holds events (stream.run events) := by
  induction events using List.reverseRecOn with
  | nil => exact start
  | append_singleton events event ih =>
      rw [run_append_one]
      exact kept events event ih

end Run

section Sent

variable (stream : TcpReassembler) (header : Tcp.Header) (span : List UInt8)

/-- The stream `onSent` passes on to `onData`, if it takes the segment in that way. -/
def dataStart : Option TcpReassembler :=
  if header.rst then none
  else if !stream.seeded then
    if header.syn then none
    else if header.ack then
      some { stream with
        nextSeq := header.seqNumber
        seeded := true
        state := if stream.state ≠ .closeWait then .established else stream.state }
    else none
  else
    match stream.state with
    | .synSent =>
        if header.ack && !header.syn then some { stream with state := .established } else none
    | .established | .closeWait => some stream
    | _ => none

/-- The stream seeded by a SYN. -/
def seed : TcpReassembler :=
  { stream with
    nextSeq := header.seqNumber + 1
    state := if header.ack then .synReceived else .synSent
    seeded := true }

/-- `onData` before it asks whether a FIN is due. -/
def marked : TcpReassembler :=
  let stream := stream.ingest header.seqNumber span
  if header.fin then
    { stream with
      finSeen := true
      finSeq := header.seqNumber + UInt32.ofNat span.length }
  else stream

/-- A FIN has been seen and `next_seq` has reached it. -/
def FinDue (stream : TcpReassembler) : Prop :=
  stream.finSeen = true ∧ int32 (stream.nextSeq - stream.finSeq) ≥ 0

instance (stream : TcpReassembler) : Decidable stream.FinDue :=
  inferInstanceAs (Decidable (_ ∧ _))

/-- The stream once a FIN that is due has been processed. -/
def finish : TcpReassembler :=
  { stream with
    nextSeq := stream.nextSeq + 1
    finSeen := false
    state := if stream.state = .closeWait then .lastAck else .finWait1 }

theorem on_data_eq : stream.onData header span =
    if (stream.marked header span).FinDue then (stream.marked header span).finish
    else stream.marked header span := by
  unfold onData marked FinDue finish
  cases fin : header.fin <;> simp only [Bool.false_eq_true, if_false, if_true]

/-- Everything a sent segment can do: close by RST, seed by SYN, be taken in, or nothing. -/
theorem on_sent_cases :
    (header.rst = true ∧ stream.onSent header span = { stream with state := .closed }) ∨
    (header.rst = false ∧ stream.seeded = false ∧ header.syn = true ∧
      stream.onSent header span = (stream.seed header).ingest (header.seqNumber + 1) span) ∨
    (∃ start, stream.dataStart header = some start ∧
      stream.onSent header span = start.onData header span) ∨
    (header.rst = false ∧ stream.dataStart header = none ∧ stream.onSent header span = stream) := by
  unfold onSent dataStart seed
  cases rst : header.rst with
  | true => simp
  | false =>
      cases seeded : stream.seeded with
      | false => cases syn : header.syn <;> cases ack : header.ack <;> simp
      | true =>
          cases state : stream.state
          case synSent => cases syn : header.syn <;> cases ack : header.ack <;> simp
          all_goals simp

/-- The stream `onData` works on differs from the stream by the handshake alone. -/
theorem data_start_frame {start : TcpReassembler} (taken : stream.dataStart header = some start) :
    header.rst = false ∧ start.seeded = true ∧
      (start.state = .established ∨ start.state = .closeWait ∧ stream.state = .closeWait) ∧
      (start = { stream with state := start.state } ∧ stream.seeded = true ∨
        start = { stream with
          nextSeq := header.seqNumber, seeded := true, state := start.state } ∧
          stream.seeded = false) := by
  unfold dataStart at taken
  cases rst : header.rst with
  | true => simp [rst] at taken
  | false =>
      cases seeded : stream.seeded with
      | false =>
          simp only [rst, seeded, Bool.false_eq_true, if_false, Bool.not_false, if_true] at taken
          split_ifs at taken with syn ack waits
          · cases taken
            simp
          · cases taken
            rw [not_not] at waits
            simp [waits]
      | true =>
          simp only [rst, seeded, Bool.false_eq_true, if_false, Bool.not_true] at taken
          split at taken
          · split_ifs at taken
            cases taken
            simp
          · next state =>
              cases taken
              exact ⟨rfl, seeded, Or.inl state, Or.inl ⟨by rw [← seeded], rfl⟩⟩
          · next state =>
              cases taken
              exact ⟨rfl, seeded, Or.inr ⟨state, state⟩, Or.inl ⟨by rw [← seeded], rfl⟩⟩
          · cases taken

/-- `dataStart` tells when `onSent` calls `onData`. -/
theorem on_sent_take {start : TcpReassembler} (taken : stream.dataStart header = some start) :
    stream.onSent header span = start.onData header span := by
  have plain := (data_start_frame stream header taken).1
  rcases on_sent_cases stream header span with
    ⟨rst, -⟩ | ⟨-, unseeded, syn, -⟩ | ⟨other, found, sent⟩ | ⟨-, none, -⟩
  · rw [plain] at rst
    cases rst
  · simp [dataStart, plain, unseeded, syn] at taken
  · rw [taken, Option.some.injEq] at found
    rw [sent, found]
  · rw [taken] at none
    cases none

/-- A segment that is not taken in and does not seed the stream changes nothing. -/
theorem on_sent_ignored (rst : header.rst = false) (none : stream.dataStart header = none)
    (notSeeding : ¬ (stream.seeded = false ∧ header.syn = true)) :
    stream.onSent header span = stream := by
  rcases on_sent_cases stream header span with
    ⟨closes, -⟩ | ⟨-, unseeded, syn, -⟩ | ⟨start, taken, -⟩ | ⟨-, -, same⟩
  · rw [rst] at closes
    cases closes
  · exact absurd ⟨unseeded, syn⟩ notSeeding
  · rw [none] at taken
    cases taken
  · exact same

theorem marked_control :
    (stream.marked header span).state = stream.state ∧
      (stream.marked header span).seeded = stream.seeded ∧
      (stream.marked header span).keepPayload = stream.keepPayload ∧
      (stream.marked header span).readPos = stream.readPos := by
  have taken := ingest_control stream header.seqNumber span
  unfold marked
  simp only
  split_ifs
  · exact ⟨taken.state, taken.seeded, taken.keepPayload, taken.readPos⟩
  · exact ⟨taken.state, taken.seeded, taken.keepPayload, taken.readPos⟩

end Sent

/-- A received segment moves the state alone. -/
theorem on_received_frame (stream : TcpReassembler) (header : Tcp.Header) :
    ∃ state, stream.onReceived header = { stream with state := state } := by
  have unchanged : ∃ state, stream = { stream with state := state } := ⟨stream.state, rfl⟩
  unfold onReceived
  by_cases rst : header.rst = true
  · exact ⟨.closed, by simp [rst]⟩
  simp only [rst, Bool.false_eq_true, if_false]
  split
  case h_11 | h_12 => exact unchanged
  all_goals split_ifs
  all_goals first | exact unchanged | exact ⟨_, rfl⟩

theorem on_data_seeded (stream : TcpReassembler) (header : Tcp.Header) (span : List UInt8) :
    (stream.onData header span).seeded = stream.seeded := by
  have control := (marked_control stream header span).2.1
  rw [on_data_eq]
  split_ifs
  · exact control
  · exact control

/-- Before its side has sent anything a stream holds nothing. -/
theorem run_unseeded (keepPayload : Bool) (events : List Event) :
    ((fresh keepPayload).run events).seeded = false →
      ∃ state, (fresh keepPayload).run events = { fresh keepPayload with state := state } := by
  refine run_history (fresh keepPayload) (fun _ stream => stream.seeded = false →
    ∃ state, stream = { fresh keepPayload with state := state }) (fun _ => ⟨.unknown, rfl⟩) ?_ events
  intro events event before unseeded
  cases event with
  | sent header span =>
      rcases on_sent_cases ((fresh keepPayload).run events) header span with
        ⟨-, closed⟩ | ⟨-, -, -, seeded⟩ | ⟨start, taken, sent⟩ | ⟨-, -, ignored⟩
      · rw [step, closed] at unseeded ⊢
        obtain ⟨_, same⟩ := before unseeded
        exact ⟨.closed, by rw [same]⟩
      · rw [step, seeded, (ingest_control _ _ _).seeded] at unseeded
        cases unseeded
      · rw [step, sent, on_data_seeded, (data_start_frame _ _ taken).2.1] at unseeded
        cases unseeded
      · rw [step, ignored] at unseeded ⊢
        exact before unseeded
  | received header =>
      obtain ⟨state, moved⟩ := on_received_frame ((fresh keepPayload).run events) header
      rw [step, moved] at unseeded ⊢
      obtain ⟨_, same⟩ := before unseeded
      exact ⟨state, by rw [same]⟩
  | consume n =>
      have known : ((fresh keepPayload).run events).seeded = false := by
        obtain ⟨assembled, readPos, read⟩ := consume_frame ((fresh keepPayload).run events) n
        rwa [step, read] at unseeded
      obtain ⟨state, same⟩ := before known
      exact ⟨state, by rw [same]; simp [step, consume, available, fresh]⟩

/-- The FIN a sent segment makes the stream process has the given sequence position. -/
def ProcessesFin (stream : TcpReassembler) (header : Tcp.Header) (span : List UInt8)
    (finSeq : UInt32) : Prop :=
  ∃ start, stream.dataStart header = some start ∧ (start.marked header span).FinDue ∧
    (start.marked header span).finSeq = finSeq

/-- The calls up to a segment that made the stream process a FIN. -/
structure OwnFin (stream : TcpReassembler) (events reached : List Event) (finSeq : UInt32) :
    Prop where
  earlier : reached <+: events
  processed : ∃ before header span, reached = before ++ [.sent header span] ∧
    (stream.run before).ProcessesFin header span finSeq

theorem OwnFin.append {stream : TcpReassembler} {events reached : List Event} {finSeq : UInt32}
    (own : OwnFin stream events reached finSeq) (more : List Event) :
    OwnFin stream (events ++ more) reached finSeq :=
  ⟨own.earlier.trans (List.prefix_append _ _), own.processed⟩

end PcapAnalyzer.TcpReassembler
