import PcapAnalyzer.Analysis.NamesByAddress
import PcapAnalyzer.Decode.StreamFeed
import PcapAnalyzer.Library.Framing

/-!
# DNS messages on a stream

A poll reads the complete length-delimited messages off the front of the stream and does
with each of them what it does with a datagram. Where the stream is cut does not matter.
-/

namespace PcapAnalyzer

open Framing (Divides)
open AppDecoder (datagramMessage)

set_option autoImplicit false

namespace Dns

def declaredLength (input : List UInt8) : Nat :=
  ((byteAt input 0).toNat <<< 8) ||| (byteAt input 1).toNat

/-- The complete message at the front of a stream. -/
def front : Framing.Front UInt8 (List UInt8) := fun input =>
  if input.length < 2 ∨ input.length < 2 + declaredLength input then none
  else some (slice input 2 (declaredLength input), input.drop (2 + declaredLength input))

/-- A message as it is sent over TCP. -/
def framed (message : List UInt8) : List UInt8 :=
  wire16 (UInt16.ofNat message.length) ++ message

theorem declared_length_append (input more : List UInt8) (long : 2 ≤ input.length) :
    declaredLength (input ++ more) = declaredLength input := by
  simp only [declaredLength]
  rw [byte_at_append_left _ _ _ (by omega), byte_at_append_left _ _ _ (by omega)]

theorem declared_length_framed (message rest : List UInt8) (small : message.length < 65536) :
    declaredLength (framed message ++ rest) = message.length := by
  have joined := or_of_disjoint (message.length % 256) (message.length / 256) 8
    (Nat.mod_lt _ (by decide))
  norm_num at joined
  simp only [declaredLength, framed, wire16, List.cons_append, byte_at_cons_zero,
    byte_at_cons_succ, UInt8.toNat_ofNat', UInt16.toNat_ofNat', Nat.shiftLeft_eq]
  norm_num
  rw [Nat.mod_eq_of_lt small, Nat.or_comm,
    Nat.mod_eq_of_lt (by omega : message.length / 256 < 256), joined]
  omega

theorem front_stable : Framing.Stable front where
  more := by
    intro input frame rest complete more
    unfold front at complete ⊢
    split_ifs at complete with incomplete
    obtain ⟨rfl, rfl⟩ := Prod.mk.inj (Option.some.inj complete)
    have long : 2 ≤ input.length ∧ 2 + declaredLength input ≤ input.length := by omega
    rw [declared_length_append _ _ long.1,
      if_neg (by rw [List.length_append]; omega), slice, slice,
      List.drop_append_of_le_length long.1, List.drop_append_of_le_length long.2,
      List.take_append_of_le_length (by rw [List.length_drop]; omega)]
  shorter := by
    intro input frame rest complete
    unfold front at complete
    split_ifs at complete with incomplete
    obtain ⟨rfl, rfl⟩ := Prod.mk.inj (Option.some.inj complete)
    rw [List.length_drop]
    omega

theorem front_framed (message rest : List UInt8) (small : message.length < 65536) :
    front (framed message ++ rest) = some (message, rest) := by
  have declared := declared_length_framed message rest small
  have size : (framed message).length = 2 + message.length := by
    rw [framed, List.length_append, wire16_length]
  have payload : slice (framed message ++ rest) 2 message.length = message := by
    rw [framed, List.append_assoc, slice_append_right _ _ 2 _ (wire16_length _).le]
    exact slice_append_left message rest _ rfl
  rw [front, declared, if_neg (by rw [List.length_append]; omega), payload, ← size,
    List.drop_left]

/-- A proper beginning of a framed message is not complete. -/
theorem front_beginning {message start : List UInt8} (small : message.length < 65536)
    (beginning : start <+: framed message) (proper : start ≠ framed message) :
    front start = none := by
  obtain ⟨missing, whole⟩ := beginning
  have size : (framed message).length = 2 + message.length := by
    rw [framed, List.length_append, wire16_length]
  have shorter : start.length < 2 + message.length := by
    rw [← size, ← whole, List.length_append]
    have present : missing ≠ [] := by
      rintro rfl
      exact proper (by rw [← whole, List.append_nil])
    have positive := List.length_pos_of_ne_nil present
    omega
  unfold front
  by_cases long : 2 ≤ start.length
  · have declared := declared_length_framed message [] small
    rw [List.append_nil, ← whole, declared_length_append _ _ long] at declared
    rw [if_pos (by omega)]
  · rw [if_pos (by omega)]

theorem framed_divides (messages : List (List UInt8)) {rest : List UInt8}
    (small : ∀ message ∈ messages, message.length < 65536) (incomplete : front rest = none) :
    Divides front ((messages.map framed).flatten ++ rest) messages rest := by
  induction messages with
  | nil => exact .stop incomplete
  | cons message messages ih =>
      rw [List.map_cons, List.flatten_cons, List.append_assoc]
      exact .next (front_framed message _ (small message List.mem_cons_self))
        (ih fun other member => small other (List.mem_cons_of_mem _ member))

end Dns

/-- The messages of a list that `dns::parse` accepts, as it reads them. -/
def acceptedDns (messages : List (List UInt8)) : List Dns.Header :=
  messages.filterMap fun message =>
    match Dns.parse message .big with
    | .ok (header, _) => some header
    | .error _ => none

def rejectedDns (messages : List (List UInt8)) : List (List UInt8) :=
  messages.filter fun message =>
    match Dns.parse message .big with
    | .ok _ => false
    | .error _ => true

/-- The messages of a list, one after the other. -/
def receiveDns (messages : List (List UInt8)) (applications : Applications) (table : DnsTable) :
    Applications × DnsTable :=
  messages.foldl (fun state message => datagramMessage message state.1 state.2)
    (applications, table)

theorem receive_dns (messages : List (List UInt8)) (applications : Applications)
    (table : DnsTable) :
    receiveDns messages applications table =
      ({ applications with
          dnsMessages := applications.dnsMessages ++ acceptedDns messages
          decodeFailures := applications.decodeFailures + (rejectedDns messages).length },
        (acceptedDns messages).foldl DnsTable.record table) := by
  induction messages generalizing applications table with
  | nil => simp [receiveDns, acceptedDns, rejectedDns]
  | cons message messages ih =>
      have step : receiveDns (message :: messages) applications table =
          receiveDns messages (datagramMessage message applications table).1
            (datagramMessage message applications table).2 := rfl
      rw [step, ih]
      cases parsed : Dns.parse message .big with
      | error err =>
          simp [datagramMessage, acceptedDns, rejectedDns, parsed]
          omega
      | ok result =>
          simp [datagramMessage, acceptedDns, rejectedDns, parsed]

theorem dns_turn_front (poll : DnsPoll) :
    dnsTurn poll =
      match Dns.front poll.stream.peek with
      | none => .leave poll
      | some (message, _) =>
          .again {
            stream := poll.stream.consume (2 + Dns.declaredLength poll.stream.peek)
            applications := (datagramMessage message poll.applications poll.dnsTable).1
            dnsTable := (datagramMessage message poll.applications poll.dnsTable).2 } := by
  unfold dnsTurn Dns.front
  rw [TcpReassembler.available_eq_peek]
  by_cases short : poll.stream.peek.length < 2
  · simp [short]
  · by_cases cut : poll.stream.peek.length < 2 + Dns.declaredLength poll.stream.peek
    · have cutToo := cut
      simp only [Dns.declaredLength] at cutToo
      simp [short, cut, cutToo]
    · have cutToo := cut
      simp only [Dns.declaredLength] at cutToo
      simp only [short, cutToo, if_false, or_self, datagramMessage, Dns.declaredLength]
      cases Dns.parse _ .big with
      | error err => rfl
      | ok result => rfl

theorem dns_turn_decreasing :
    MeasuredLoop.Decreasing dnsTurn fun poll => poll.stream.available := by
  intro poll next pass
  rw [dns_turn_front] at pass
  cases front : Dns.front poll.stream.peek with
  | none => simp [front] at pass
  | some found =>
      have shorter := Dns.front_stable.shorter front
      rw [front] at pass
      cases pass
      simp only [TcpReassembler.consume_available]
      rw [TcpReassembler.available_eq_peek]
      omega

/-- A poll of a DNS stream receives the complete messages it holds and leaves the rest. -/
theorem dns_loop_divides {input rest : List UInt8} {messages : List (List UInt8)}
    (divides : Divides Dns.front input messages rest) (poll : DnsPoll)
    (holds : poll.stream.peek = input)
    (inside : poll.stream.readPos ≤ poll.stream.assembled.length) :
    (dnsLoop poll).stream.peek = rest ∧
      ((dnsLoop poll).applications, (dnsLoop poll).dnsTable) =
        receiveDns messages poll.applications poll.dnsTable := by
  unfold dnsLoop
  induction divides generalizing poll with
  | stop incomplete =>
      have pass : dnsTurn poll = .leave poll := by rw [dns_turn_front, holds, incomplete]
      rw [MeasuredLoop.run_leave dns_turn_decreasing (Nat.lt_succ_self _) pass]
      exact ⟨holds, rfl⟩
  | @next input after rest message messages complete others ih =>
      have pass := dns_turn_front poll
      rw [holds, complete] at pass
      simp only at pass
      rw [MeasuredLoop.run_again dns_turn_decreasing (Nat.lt_succ_self _) pass]
      refine ih _ ?_ (TcpReassembler.consume_length_bound _ _ inside)
      simp only
      rw [TcpReassembler.consume_peek _ _ inside, holds]
      unfold Dns.front at complete
      split_ifs at complete
      exact (Prod.mk.inj (Option.some.inj complete)).2

/-- The polls after each piece of a stream receive the messages of the whole stream. -/
theorem fed_receives {key : FlowKey} (dns : key.isDns = true) {pieces : List (List UInt8)}
    {poll last : StreamPoll} (fed : Fed key pieces poll last)
    (incomplete : Dns.front poll.stream.peek = none) {messages : List (List UInt8)}
    {rest : List UInt8}
    (divides : Divides Dns.front (poll.stream.peek ++ pieces.flatten) messages rest) :
    last.stream.peek = rest ∧ last.peer = poll.peer ∧
      (last.applications, last.dnsTable) =
        receiveDns messages poll.applications poll.dnsTable := by
  induction fed generalizing messages with
  | nil poll =>
      rw [List.flatten_nil, List.append_nil] at divides
      obtain ⟨rfl, rfl⟩ := divides.unique (.stop incomplete)
      exact ⟨rfl, rfl, rfl⟩
  | @cons piece pieces poll last stream appends _ ih =>
      obtain ⟨first, between, now⟩ := Framing.divides_exists Dns.front_stable stream.peek
      have loop := dns_loop_divides now
        { stream := stream, applications := poll.applications, dnsTable := poll.dnsTable } rfl
        appends.inside
      have polled : pollStream key { poll with stream := stream } =
          { stream := (dnsLoop { stream := stream, applications := poll.applications,
                                 dnsTable := poll.dnsTable }).stream
            applications := (receiveDns first poll.applications poll.dnsTable).1
            peer := poll.peer
            dnsTable := (receiveDns first poll.applications poll.dnsTable).2 } := by
        rw [← loop.2]
        simp only [pollStream, appends.readable, dns, Bool.not_true, Bool.false_eq_true, if_false,
          if_true]
      obtain ⟨second, tail, later⟩ :=
        Framing.divides_exists Dns.front_stable (between ++ pieces.flatten)
      have whole := now.append Dns.front_stable later
      rw [appends.peek, List.append_assoc] at whole
      rw [List.flatten_cons] at divides
      obtain ⟨rfl, rfl⟩ := divides.unique whole
      rw [polled] at ih
      simp only [loop.1] at ih
      have rest := ih now.incomplete later
      refine ⟨rest.1, rest.2.1, rest.2.2.trans ?_⟩
      simp only [receiveDns, List.foldl_append]

/-- Length-delimited messages, however the stream is cut: exactly the accepted ones are
recorded, in order, the others are counted, and what follows the last complete message
stays on the stream. The table tells what the accepted ones say besides what it told. -/
theorem dns_over_tcp_is_framed_exactly {key : FlowKey} (dns : key.isDns = true)
    {messages : List (List UInt8)} (small : ∀ message ∈ messages, message.length < 65536)
    {missing start : List UInt8} (smallMissing : missing.length < 65536)
    (beginning : start <+: Dns.framed missing) (proper : start ≠ Dns.framed missing)
    {pieces : List (List UInt8)}
    (cut : pieces.flatten = (messages.map Dns.framed).flatten ++ start)
    {poll last : StreamPoll} (fed : Fed key pieces poll last) (drained : poll.stream.peek = []) :
    last.applications = { poll.applications with
        dnsMessages := poll.applications.dnsMessages ++ acceptedDns messages
        decodeFailures := poll.applications.decodeFailures + (rejectedDns messages).length } ∧
      last.dnsTable = (acceptedDns messages).foldl DnsTable.record poll.dnsTable ∧
      (∀ past, poll.dnsTable.Tells past → last.dnsTable.Tells (past ++ acceptedDns messages)) ∧
      last.stream.peek = start ∧ last.peer = poll.peer := by
  have divides := Dns.framed_divides messages small
    (Dns.front_beginning smallMissing beginning proper)
  have received := fed_receives dns fed (by rw [drained]; rfl)
    (by rw [drained, List.nil_append, cut]; exact divides)
  rw [receive_dns, Prod.mk.injEq] at received
  obtain ⟨unread, peer, applications, table⟩ := received
  refine ⟨applications, table, ?_, unread, peer⟩
  intro past tells
  rw [table]
  exact tells.record_all (acceptedDns messages)

def dnsStream : StreamPoll :=
  { stream := { state := .established }, applications := {}, peer := {}, dnsTable := {} }

/-- A response that gives 10.0.0.2 the name `a`. -/
def namingMessage : List UInt8 :=
  [0, 7, 0x80, 0, 0, 0, 0, 1, 0, 0, 0, 0, 1, 97, 0, 0, 1, 0, 1, 0, 0, 0, 60, 0, 4, 10, 0, 0, 2]

/-- The response, an empty and a malformed message and half a length, cut inside the lengths. -/
def dnsPieces : List (List UInt8) :=
  [[0], 29 :: namingMessage.take 4, namingMessage.drop 4, [0, 0, 0, 3, 1, 2], [3, 0], []]

theorem dns_over_tcp_is_framed_exactly_pieces :
    let last := feedAll { dstPort := 53 } dnsStream dnsPieces
    last.applications.dnsMessages.map Dns.Header.answers =
        [[{ name := text ['a'], type := 1, rclass := 1, ttl := 60, rdata := [10, 0, 0, 2] }]] ∧
      last.applications.decodeFailures = 2 ∧
      last.dnsTable.domainsFor (Address.copy [10, 0, 0, 2]) true = some [text ['a']] ∧
      last.dnsTable.domainsFor (Address.copy [10, 0, 0, 1]) true = none ∧
      last.stream.peek = [0] := by
  intro last
  obtain ⟨applications, -, told, unread, -⟩ := dns_over_tcp_is_framed_exactly (by decide)
    (show ∀ message ∈ [namingMessage, [], [1, 2, 3]], message.length < 65536 by decide)
    (show ([] : List UInt8).length < 65536 by decide) (show [0] <+: Dns.framed [] by decide)
    (by decide) (show dnsPieces.flatten = _ by decide)
    (feed_all_fed { dstPort := 53 } dnsStream dnsPieces ⟨rfl, rfl, by decide, by decide⟩) rfl
  have names := (told [] DnsTable.empty_tells).names
  refine ⟨?_, ?_, (names true [10, 0, 0, 2] rfl).trans ?_, (names true [10, 0, 0, 1] rfl).trans ?_,
    unread⟩
  · rw [show last.applications = _ from applications]
    decide +kernel
  · rw [show last.applications = _ from applications]
    decide +kernel
  · decide +kernel
  · decide +kernel

end PcapAnalyzer
