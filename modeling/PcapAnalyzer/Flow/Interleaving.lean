import PcapAnalyzer.Flow.Closing

/-!
# Reassembly and the other direction

What is received moves the state alone, and the state decides whether a sent segment is
taken in. Once the handshake is over and until the own FIN is processed every segment is
taken in, whatever is received; the handshake states and a closed connection that is taken
up again are the exceptions.
-/

namespace PcapAnalyzer.TcpReassembler

open SerialNumber

set_option autoImplicit false

def withState (stream : TcpReassembler) (state : TcpState) : TcpReassembler :=
  { stream with state := state }

section State

variable (stream : TcpReassembler) (state : TcpState)

theorem drain_from_with_state (segments : List Segment) :
    drainFrom segments (stream.withState state) = (drainFrom segments stream).withState state := by
  induction segments generalizing stream with
  | nil => rfl
  | cons segment rest ih =>
      have same : (stream.withState state).nextSeq = stream.nextSeq := rfl
      simp only [drainFrom, same]
      split_ifs with ahead longer
      · rfl
      · exact ih { stream with
          assembled := stream.assembled ++
            segment.data.drop (0 - (segment.seq - stream.nextSeq)).toNat
          nextSeq := stream.nextSeq + UInt32.ofNat
            (segment.data.length - (0 - (segment.seq - stream.nextSeq)).toNat)
          oooBytes := stream.oooBytes - segment.data.length }
      · exact ih { stream with oooBytes := stream.oooBytes - segment.data.length }

theorem buffer_ahead_with_state (seq : UInt32) (span : List UInt8) :
    (stream.withState state).bufferAhead seq span = (stream.bufferAhead seq span).withState state := by
  have sameSeq : (stream.withState state).nextSeq = stream.nextSeq := rfl
  have sameSegments : (stream.withState state).outOfOrder = stream.outOfOrder := rfl
  have sameBytes : (stream.withState state).oooBytes = stream.oooBytes := rfl
  simp only [bufferAhead, sameSeq, sameSegments, sameBytes]
  cases stream.outOfOrder.drop
      (BinarySearch.lowerBound (below stream.nextSeq seq) stream.outOfOrder) with
  | nil =>
      simp only
      split_ifs <;> rfl
  | cons it rest =>
      simp only
      split_ifs <;> rfl

/-- Taking in bytes does not depend on the state. -/
theorem ingest_with_state (seq : UInt32) (span : List UInt8) :
    (stream.withState state).ingest seq span = (stream.ingest seq span).withState state := by
  have sameSeq : (stream.withState state).nextSeq = stream.nextSeq := rfl
  have sameKeep : (stream.withState state).keepPayload = stream.keepPayload := rfl
  unfold ingest
  simp only [sameKeep, sameSeq]
  split_ifs with unkept here ahead overlaps
  · simp only [ingestUnkept, sameSeq]
    split_ifs <;> rfl
  · exact drain_from_with_state { stream with
      assembled := stream.assembled ++ span
      nextSeq := stream.nextSeq + UInt32.ofNat span.length } state _
  · exact buffer_ahead_with_state stream state seq span
  · exact drain_from_with_state { stream with
      assembled := stream.assembled ++ span.drop (stream.nextSeq - seq).toNat
      nextSeq := stream.nextSeq + (UInt32.ofNat span.length - (stream.nextSeq - seq)) } state _
  · rfl

theorem marked_with_state (header : Tcp.Header) (span : List UInt8) :
    (stream.withState state).marked header span = (stream.marked header span).withState state := by
  unfold marked
  rw [ingest_with_state]
  simp only
  split_ifs <;> rfl

end State

/-- The first buffered segment lies ahead of `next_seq`. -/
def HeadAhead (stream : TcpReassembler) : Prop :=
  ∀ segment ∈ stream.outOfOrder.head?, int32 (segment.seq - stream.nextSeq) > 0

section Head

variable {stream : TcpReassembler}

theorem drain_from_head_ahead (segments : List Segment) (stream : TcpReassembler) :
    HeadAhead (drainFrom segments stream) := by
  induction segments generalizing stream with
  | nil => simp [HeadAhead, drainFrom]
  | cons segment rest ih =>
      simp only [drainFrom]
      split_ifs with ahead
      · simpa [HeadAhead] using ahead
      · exact ih _
      · exact ih _

theorem drain_head_ahead (ahead : HeadAhead stream) : stream.drain = stream := by
  unfold drain
  cases segments : stream.outOfOrder with
  | nil =>
      rw [drainFrom, ← segments]
  | cons segment rest =>
      have first : int32 (segment.seq - stream.nextSeq) > 0 :=
        ahead segment (by simp [segments])
      rw [drainFrom, if_pos first, ← segments]

theorem buffer_ahead_head_ahead (ahead : HeadAhead stream) {seq : UInt32} (span : List UInt8)
    (after : int32 (seq - stream.nextSeq) > 0) : HeadAhead (stream.bufferAhead seq span) := by
  have buffers := buffer_ahead_buffers stream seq span
  generalize stream.bufferAhead seq span = buffered at buffers ⊢
  cases buffers with
  | leftOut => exact ahead
  | @putIn before rest split room =>
      unfold HeadAhead at ahead
      cases before with
      | nil => simpa [HeadAhead] using after
      | cons first others => simpa [HeadAhead, split] using ahead
  | @replaced before rest it split same longer room =>
      unfold HeadAhead at ahead
      cases before with
      | nil => simpa [HeadAhead, same] using after
      | cons first others => simpa [HeadAhead, split] using ahead

theorem ingest_head_ahead (ahead : HeadAhead stream) (keeps : stream.keepPayload = true)
    (seq : UInt32) (span : List UInt8) : HeadAhead (stream.ingest seq span) := by
  unfold ingest
  rw [if_neg (by simp [keeps])]
  simp only
  split_ifs with here after overlaps
  · exact drain_from_head_ahead _ _
  · exact buffer_ahead_head_ahead ahead span after
  · exact drain_from_head_ahead _ _
  · exact ahead

end Head

/-- The segment brings nothing: it is empty, carries no FIN and does not lie ahead. -/
def Stale (stream : TcpReassembler) (header : Tcp.Header) (span : List UInt8) : Prop :=
  span = [] ∧ header.fin = false ∧ int32 (header.seqNumber - stream.nextSeq) ≤ 0

theorem on_data_stale {stream : TcpReassembler} (ahead : HeadAhead stream)
    (keeps : stream.keepPayload = true) (waits : ¬ stream.FinDue) {header : Tcp.Header}
    {span : List UInt8} (stale : stream.Stale header span) :
    stream.onData header span = stream := by
  obtain ⟨rfl, noFin, behind⟩ := stale
  have taken : stream.ingest header.seqNumber [] = stream := by
    unfold ingest
    rw [if_neg (by simp [keeps])]
    simp only [List.append_nil, List.length_nil, List.drop_nil]
    split_ifs with here after overlaps
    · simpa using drain_head_ahead ahead
    · omega
    · simp at overlaps
    · rfl
  have marks : stream.marked header [] = stream := by
    unfold marked
    simp only [taken, noFin, Bool.false_eq_true, if_false]
  rw [on_data_eq, marks, if_neg waits]

/-- The segments a run sends. -/
def sentOf (events : List Event) : List (Tcp.Header × List UInt8) :=
  events.filterMap fun
    | .sent header span => some (header, span)
    | .received _ => none
    | .consume _ => none

/-- A handshake that counts as acknowledged. -/
def granted (stream : TcpReassembler) : TcpReassembler :=
  if stream.state = .synSent ∨ stream.state = .synReceived then stream.withState .established
  else stream

def intake (stream : TcpReassembler) (segment : Tcp.Header × List UInt8) : TcpReassembler :=
  (stream.onSent segment.1 segment.2).granted

/-- The sent segments alone, with the handshake taken for granted. -/
def intakeAll (sent : List (Tcp.Header × List UInt8)) : TcpReassembler :=
  sent.foldl intake (fresh true)

def OwnFinProcessed (events : List Event) : Prop :=
  ∃ reached finSeq, OwnFin (fresh true) events reached finSeq

/-- The states of a connection that is open on this side. -/
def OpenState (state : TcpState) : Prop :=
  state = .synSent ∨ state = .synReceived ∨ state = .established ∨ state = .closeWait

/-- A run and the intake of what it sends, before the first segment, while the connection is
open, and once the own FIN is processed. -/
inductive Follows (finished : Prop) (stream reference : TcpReassembler) : Prop
  | unseeded (state : TcpState) (same : stream = (fresh true).withState state)
      (reference_eq : reference = fresh true)
  | opened (reference_eq : reference = stream.withState .established)
      (state : OpenState stream.state) (seeded : stream.seeded = true) (head : HeadAhead stream)
      (keeps : stream.keepPayload = true) (waits : ¬ stream.FinDue)
  | closed (finished : finished) (nextSeq : stream.nextSeq = reference.nextSeq)
      (assembled : stream.assembled = reference.assembled) (seeded : stream.seeded = true)
      (state : stream.state ≠ .synSent ∧ stream.state ≠ .synReceived)
      (referenceSeeded : reference.seeded = true) (referenceState : reference.state = .finWait1)

/-- No state drops a segment that brings something before the own FIN is processed, and none
takes one in after it. -/
structure Heard (stream : TcpReassembler) (finished : Prop) (header : Tcp.Header)
    (span : List UInt8) : Prop where
  handshake : ¬ stream.Stale header span → stream.state ≠ .synReceived ∧
    (stream.state = .synSent → header.ack = true ∧ header.syn = false)
  closed : finished → stream.state ≠ .established ∧ stream.state ≠ .closeWait

section Step

variable {finished finished' : Prop} {stream reference : TcpReassembler} {header : Tcp.Header}
  {span : List UInt8}

theorem granted_of_state {stream : TcpReassembler}
    (state : stream.state = .established ∨ stream.state = .finWait1) : stream.granted = stream := by
  unfold granted
  rcases state with state | state <;> simp [state]

/-- A segment that is taken in by an open connection. -/
theorem Follows.take {start : TcpReassembler}
    (state : start.state = .established ∨ start.state = .closeWait)
    (seeded : start.seeded = true) (head : HeadAhead start) (keeps : start.keepPayload = true)
    (processed : (start.marked header span).FinDue → finished') :
    Follows finished' (start.onData header span)
      ((start.withState .established).onData header span).granted := by
  have control := marked_control start header span
  have taken := ingest_head_ahead head keeps header.seqNumber span
  have marks := marked_with_state start .established header span
  have sameDue : ((start.marked header span).withState .established).FinDue ↔
      (start.marked header span).FinDue := Iff.rfl
  rw [on_data_eq, on_data_eq, marks]
  by_cases due : (start.marked header span).FinDue
  · rw [if_pos due, if_pos (sameDue.mpr due), granted_of_state (by simp [finish, withState])]
    refine .closed (processed due) rfl rfl (control.2.1.trans seeded) ?_
      (control.2.1.trans seeded) (by simp [finish, withState])
    simp only [finish]
    split_ifs <;> simp
  · rw [if_neg due, if_neg (fun other => due (sameDue.mp other)),
      granted_of_state (by simp [withState])]
    refine .opened rfl ?_ (control.2.1.trans seeded) ?_ (control.2.2.1.trans keeps) due
    · rw [control.1]
      exact Or.inr (Or.inr state)
    · unfold marked
      simp only
      split_ifs
      · exact taken
      · exact taken

/-- A stale segment leaves an open connection as it is, taken in or not. -/
theorem Follows.ignore (head : HeadAhead stream) (keeps : stream.keepPayload = true)
    (waits : ¬ stream.FinDue) (state : OpenState stream.state) (seeded : stream.seeded = true)
    (stale : stream.Stale header span) :
    Follows finished' stream ((stream.withState .established).onData header span).granted := by
  have head' : HeadAhead (stream.withState .established) := head
  rw [on_data_stale head' keeps waits stale, granted_of_state (by simp [withState])]
  exact .opened rfl state seeded head keeps waits

theorem on_sent_established (seeded : stream.seeded = true) (rst : header.rst = false) :
    (stream.withState .established).onSent header span =
      (stream.withState .established).onData header span := by
  simp [onSent, withState, seeded, rst]

theorem Follows.first (state : TcpState) (rst : header.rst = false)
    (processed : ∀ finSeq,
      ((fresh true).withState state).ProcessesFin header span finSeq → finished') :
    Follows finished' (((fresh true).withState state).onSent header span)
      (intake (fresh true) (header, span)) := by
  by_cases syn : header.syn = true
  · have seeds : ∀ state, ((fresh true).withState state).onSent header span =
        ((fresh true).seed header).ingest (header.seqNumber + 1) span := by
      intro state
      simp [onSent, fresh, withState, rst, syn, seed]
    have control := ingest_control ((fresh true).seed header) (header.seqNumber + 1) span
    have handshake : (((fresh true).seed header).ingest (header.seqNumber + 1) span).state =
        .synSent ∨ (((fresh true).seed header).ingest (header.seqNumber + 1) span).state =
          .synReceived := by
      rw [control.state]
      simp only [seed]
      split_ifs
      · exact Or.inr rfl
      · exact Or.inl rfl
    have reference : intake (fresh true) (header, span) =
        (((fresh true).seed header).ingest (header.seqNumber + 1) span).withState .established := by
      rw [intake, show fresh true = (fresh true).withState .unknown from rfl, seeds, granted,
        if_pos handshake]
      rfl
    rw [seeds, reference]
    refine .opened rfl (handshake.elim Or.inl fun received => Or.inr (Or.inl received))
      (control.seeded.trans rfl) ?_ (control.keepPayload.trans rfl) ?_
    · exact ingest_head_ahead (by simp [HeadAhead, seed, fresh]) rfl _ _
    · intro due
      have seen := control.finSeen.symm.trans due.1
      simp [seed, fresh] at seen
  by_cases ack : header.ack = true
  · let start : TcpReassembler := { fresh true with
      nextSeq := header.seqNumber
      seeded := true
      state := if state ≠ .closeWait then .established else state }
    have taken : ((fresh true).withState state).dataStart header = some start := by
      by_cases waits : state = .closeWait <;>
        simp [dataStart, fresh, withState, rst, syn, ack, start, waits]
    have reference : intake (fresh true) (header, span) =
        ((start.withState .established).onData header span).granted := by
      simp [intake, onSent, fresh, withState, rst, syn, ack, start]
    rw [on_sent_take _ _ _ taken, reference]
    refine .take ?_ rfl (by simp [HeadAhead, start, fresh]) rfl
      (fun due => processed _ ⟨start, taken, due, rfl⟩)
    simp only [start]
    split_ifs with waits
    · exact Or.inl rfl
    · exact Or.inr (not_not.mp waits)
  · refine .unseeded state ?_ ?_
    · simp [onSent, fresh, withState, rst, syn, ack]
    · simp [intake, onSent, fresh, rst, syn, ack, granted]

/-- One sent segment. -/
theorem Follows.sent (follows : Follows finished stream reference) (rst : header.rst = false)
    (heard : Heard stream finished header span) (later : finished → finished')
    (processed : ∀ finSeq, stream.ProcessesFin header span finSeq → finished') :
    Follows finished' (stream.onSent header span) (intake reference (header, span)) := by
  cases follows with
  | unseeded state same reference_eq =>
      subst same reference_eq
      exact .first state rst processed
  | opened reference_eq state seeded head keeps waits =>
      subst reference_eq
      rw [intake, on_sent_established seeded rst]
      have stale : stream.dataStart header = none → stream.Stale header span := by
        intro none
        by_contra brings
        obtain ⟨notReceived, acks⟩ := heard.handshake brings
        rcases state with sent | received | known | known
        · obtain ⟨ack, syn⟩ := acks sent
          simp [dataStart, rst, seeded, sent, ack, syn] at none
        · exact notReceived received
        · simp [dataStart, rst, seeded, known] at none
        · simp [dataStart, rst, seeded, known] at none
      cases taken : stream.dataStart header with
      | none =>
          rw [on_sent_ignored stream header span rst taken (by simp [seeded])]
          exact .ignore head keeps waits state seeded (stale taken)
      | some start =>
          obtain ⟨-, startSeeded, open_, ⟨frame, -⟩ | ⟨-, unseeded⟩⟩ :=
            data_start_frame stream header taken
          · have same : stream.withState .established = start.withState .established := by
              rw [frame]
              rfl
            rw [on_sent_take _ _ _ taken, same]
            refine .take (open_.imp_right And.left) startSeeded ?_ ?_
              (fun due => processed _ ⟨start, taken, due, rfl⟩)
            · rw [frame]
              exact head
            · rw [frame]
              exact keeps
          · rw [seeded] at unseeded
            cases unseeded
  | closed done nextSeq assembled seeded state referenceSeeded referenceState =>
      obtain ⟨notEstablished, notCloseWait⟩ := heard.closed done
      have ignored : stream.onSent header span = stream := by
        obtain ⟨notSent, notReceived⟩ := state
        simp only [onSent, rst, seeded, Bool.false_eq_true, if_false, Bool.not_true]
        split <;> first | rfl | contradiction
      have referenceIgnored : intake reference (header, span) = reference := by
        have sent : reference.onSent header span = reference := by
          simp [onSent, rst, referenceSeeded, referenceState]
        rw [intake, sent, granted_of_state (Or.inr referenceState)]
      rw [ignored, referenceIgnored]
      exact .closed (later done) nextSeq assembled seeded state referenceSeeded referenceState

/-- What is received leaves the intake alone. -/
theorem Follows.received (follows : Follows finished stream reference) (rst : header.rst = false)
    (later : finished → finished') : Follows finished' (stream.onReceived header) reference := by
  obtain ⟨state', moved⟩ := on_received_frame stream header
  cases follows with
  | unseeded state same reference_eq =>
      refine .unseeded state' ?_ reference_eq
      rw [moved, same]
      rfl
  | opened reference_eq state seeded head keeps waits =>
      have stays : OpenState (stream.onReceived header).state := by
        unfold onReceived
        rcases state with known | known | known | known <;>
          simp only [rst, known, Bool.false_eq_true, if_false]
        all_goals (try split_ifs) <;> simp_all [OpenState]
      rw [moved] at stays ⊢
      exact .opened reference_eq stays seeded head keeps waits
  | closed done nextSeq assembled seeded state referenceSeeded referenceState =>
      have stays : (stream.onReceived header).state ≠ .synSent ∧
          (stream.onReceived header).state ≠ .synReceived := by
        obtain ⟨notSent, notReceived⟩ := state
        unfold onReceived
        simp only [rst, Bool.false_eq_true, if_false]
        cases known : stream.state <;> simp only [known] at notSent notReceived ⊢
        all_goals (try split_ifs) <;> simp_all
      rw [moved] at stays ⊢
      exact .closed (later done) nextSeq assembled seeded stays referenceSeeded referenceState

end Step

/-- A segment without RST. -/
def Event.Lasting : Event → Prop
  | .sent header _ => header.rst = false
  | .received header => header.rst = false
  | .consume _ => False

instance : DecidablePred Event.Lasting
  | .sent header _ => inferInstanceAs (Decidable (header.rst = false))
  | .received header => inferInstanceAs (Decidable (header.rst = false))
  | .consume _ => inferInstanceAs (Decidable False)

/-- Every segment of a run is sent in a state that neither drops what it brings nor takes it in
after the own FIN. -/
def AllHeard (events : List Event) : Prop :=
  ∀ before header span, before ++ [.sent header span] <+: events →
    Heard ((fresh true).run before) (OwnFinProcessed before) header span

theorem run_follows (events : List Event) (lasting : ∀ event ∈ events, event.Lasting)
    (heard : AllHeard events) :
    Follows (OwnFinProcessed events) ((fresh true).run events) (intakeAll (sentOf events)) := by
  induction events using List.reverseRecOn with
  | nil => exact .unseeded .unknown rfl rfl
  | append_singleton events event ih =>
      have earlier := ih (fun other member => lasting other (by simp [member]))
        (fun before header span inside =>
          heard before header span (inside.trans (List.prefix_append _ _)))
      have last := lasting event (by simp)
      have later : OwnFinProcessed events → OwnFinProcessed (events ++ [event]) := by
        rintro ⟨reached, finSeq, own⟩
        exact ⟨reached, finSeq, own.append _⟩
      rw [run_append_one]
      cases event with
      | sent header span =>
          have sent : sentOf (events ++ [.sent header span]) = sentOf events ++ [(header, span)] := by
            simp [sentOf]
          rw [sent, intakeAll, List.foldl_append]
          exact earlier.sent last (heard events header span List.prefix_rfl) later
            fun finSeq due => ⟨_, finSeq, List.prefix_rfl, events, header, span, rfl, due⟩
      | received header =>
          have sent : sentOf (events ++ [.received header]) = sentOf events := by simp [sentOf]
          rw [sent]
          exact earlier.received last later
      | consume n => exact absurd last id

theorem Follows.agrees {finished : Prop} {stream reference : TcpReassembler}
    (follows : Follows finished stream reference) :
    stream.assembled = reference.assembled ∧ stream.nextSeq = reference.nextSeq := by
  cases follows with
  | unseeded state same reference_eq =>
      rw [same, reference_eq]
      exact ⟨rfl, rfl⟩
  | opened reference_eq =>
      rw [reference_eq]
      exact ⟨rfl, rfl⟩
  | closed finished nextSeq assembled => exact ⟨assembled, nextSeq⟩

/-- Two interleavings of the same sent segments deliver the same bytes and reach the same
sequence number, if in both every segment is sent in a state that takes it in. -/
theorem reassembly_ignores_other_direction (left right : List Event)
    (leftLasting : ∀ event ∈ left, event.Lasting) (rightLasting : ∀ event ∈ right, event.Lasting)
    (same : sentOf left = sentOf right) (leftHeard : AllHeard left) (rightHeard : AllHeard right) :
    ((fresh true).run left).assembled = ((fresh true).run right).assembled ∧
      ((fresh true).run left).nextSeq = ((fresh true).run right).nextSeq := by
  have leftAgrees := (run_follows left leftLasting leftHeard).agrees
  have rightAgrees := (run_follows right rightLasting rightHeard).agrees
  rw [← same] at rightAgrees
  exact ⟨leftAgrees.1.trans rightAgrees.1.symm, leftAgrees.2.trans rightAgrees.2.symm⟩

section Heard

theorem all_heard_nil : AllHeard [] := by
  intro before header span inside
  simp at inside

variable {events : List Event}

theorem AllHeard.sent (heard : AllHeard events) {header : Tcp.Header} {span : List UInt8}
    (last : Heard ((fresh true).run events) (OwnFinProcessed events) header span) :
    AllHeard (events ++ [.sent header span]) := by
  intro before other otherSpan inside
  rcases List.prefix_concat_iff.mp inside with whole | earlier
  · obtain ⟨rfl, same⟩ := List.append_inj' whole rfl
    simp only [List.cons.injEq, Event.sent.injEq, and_true] at same
    rw [same.1, same.2]
    exact last
  · exact heard before other otherSpan earlier

theorem AllHeard.received (heard : AllHeard events) (header : Tcp.Header) :
    AllHeard (events ++ [.received header]) := by
  intro before other span inside
  rcases List.prefix_concat_iff.mp inside with whole | earlier
  · obtain ⟨-, same⟩ := List.append_inj' whole rfl
    simp at same
  · exact heard before other span earlier

/-- Without a FIN only the handshake can drop a segment. -/
theorem heard_without_fin {header : Tcp.Header} {span : List UInt8}
    (noFin : ∀ other otherSpan, Event.sent other otherSpan ∈ events → other.fin = false)
    (known : ((fresh true).run events).state ≠ .synReceived ∧
      (((fresh true).run events).state = .synSent → header.ack = true ∧ header.syn = false)) :
    Heard ((fresh true).run events) (OwnFinProcessed events) header span := by
  refine ⟨fun _ => known, ?_⟩
  rintro ⟨reached, finSeq, own⟩
  obtain ⟨other, otherSpan, member, fin, -⟩ := own.sent
  rw [noFin other otherSpan (own.earlier.subset member)] at fin
  cases fin

end Heard

def synAckHeader : Tcp.Header := { flags := 0x12 }

def dataHeader (seq : UInt32) : Tcp.Header := { seqNumber := seq, flags := 0x18 }

/-- A side picked up in the middle of its stream, alone and with an ACK in between. -/
theorem reassembly_ignores_other_direction_midstream :
    ((fresh true).run [.sent (dataHeader 1) [7], .sent (dataHeader 2) [8]]).assembled =
      ((fresh true).run [.sent (dataHeader 1) [7], .received (dataHeader 9),
        .sent (dataHeader 2) [8]]).assembled := by
  have noFin : ∀ seq, (dataHeader seq).fin = false := by
    intro seq
    exact (show decide ((0x18 : UInt8) &&& 0x01 ≠ 0) = false by decide)
  have first : AllHeard [.sent (dataHeader 1) [7]] :=
    all_heard_nil.sent (heard_without_fin (by simp) (by decide))
  have alone : AllHeard [.sent (dataHeader 1) [7], .sent (dataHeader 2) [8]] :=
    first.sent (heard_without_fin (by simp [noFin]) (by decide))
  have heard : AllHeard [.sent (dataHeader 1) [7], .received (dataHeader 9),
      .sent (dataHeader 2) [8]] :=
    (first.received (dataHeader 9)).sent
      (heard_without_fin (by simp [noFin]) (by decide))
  exact (reassembly_ignores_other_direction _ _ (by decide) (by decide) (by rfl) alone heard).1

/-- A server's segments with and without the ACK that ends the handshake. -/
theorem server_data_is_lost_without_handshake_ack :
    let heard : List Event :=
      [.sent synAckHeader [], .received (dataHeader 9), .sent (dataHeader 1) [7]]
    let alone : List Event := [.sent synAckHeader [], .sent (dataHeader 1) [7]]
    sentOf heard = sentOf alone ∧
      ((fresh true).run heard).assembled = [7] ∧ ((fresh true).run heard).nextSeq = 2 ∧
      ((fresh true).run alone).assembled = [] ∧ ((fresh true).run alone).nextSeq = 1 := by
  decide

end PcapAnalyzer.TcpReassembler
