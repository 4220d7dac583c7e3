import PcapAnalyzer.Protocols.DnsName

/-!
# The counts of a DNS message

`parse` compares the counts of the header with the size of the message before it makes room
for the records. The comparison refuses nothing: whatever an item is, it takes at least the
octets it was counted with, so a message that parses has them all.
-/

namespace PcapAnalyzer.Dns

set_option autoImplicit false

/-- `parse` without the comparison of the counts. -/
def parseUnchecked (span : List UInt8) (endian : Endian) :
    Except ParseError (Header × List UInt8) := do
  if span.length < headerLen then .error .unexpectedEof else
  let header := loadHeader span endian
  let record := fun offset => parseResourceRecord span offset endian
  let (questions, offset) ← parseItems (fun offset => parseQuestion span offset endian)
    header.qdcount.toNat headerLen
  let (answers, offset) ← parseItems record header.ancount.toNat offset
  let (authority, offset) ← parseItems record header.nscount.toNat offset
  let (additional, offset) ← parseItems record header.arcount.toNat offset
  .ok ({ header with
    questions := questions
    answers := answers
    authority := authority
    additional := additional }, span.drop offset)

/-- The octets the counts of a header ask for at least. -/
def minBytes (header : Header) : Nat :=
  header.qdcount.toNat * (1 + questionHeaderLen) +
    (header.ancount.toNat + header.nscount.toNat + header.arcount.toNat) * (1 + resourceHeaderLen)

/-- `min_bytes` in the machine words of the source. -/
def minBytesWord (header : Header) : UInt64 :=
  header.qdcount.toUInt64 * UInt64.ofNat (1 + questionHeaderLen) +
    (header.ancount.toUInt64 + header.nscount.toUInt64 + header.arcount.toUInt64) *
      UInt64.ofNat (1 + resourceHeaderLen)

/-- Every item that is accepted takes `least` octets or more, all of them in the message. -/
def Takes {Item : Type} (base : List UInt8)
    (parseItem : Nat → Except ParseError (Item × Nat)) (least : Nat) : Prop :=
  ∀ offset item next, parseItem offset = .ok (item, next) →
    offset + least ≤ next ∧ next ≤ base.length

section Items

variable {base : List UInt8}

theorem parse_name_takes (base : List UInt8) : Takes base (parseName base) 1 := by
  intro offset name stop accepted
  obtain ⟨labels, jumps, spells, -⟩ := parse_name_accepts accepted
  obtain ⟨-, further, inside⟩ := spells.ends_at
  exact ⟨further, inside⟩

theorem parse_question_takes (base : List UInt8) (endian : Endian) :
    Takes base (fun offset => parseQuestion base offset endian) (1 + questionHeaderLen) := by
  intro offset question stop accepted
  obtain ⟨⟨name, next⟩, named, rest⟩ := bind_ok accepted
  have further := (parse_name_takes base offset name next named).1
  by_cases short : base.length - next < questionHeaderLen
  · simp only [short, if_true] at rest
    cases rest
  · simp only [short, if_false] at rest
    cases rest
    simp only [questionHeaderLen] at short ⊢
    omega

theorem parse_resource_record_takes (base : List UInt8) (endian : Endian) :
    Takes base (fun offset => parseResourceRecord base offset endian)
      (1 + resourceHeaderLen) := by
  intro offset record stop accepted
  obtain ⟨⟨name, next⟩, named, rest⟩ := bind_ok accepted
  have further := (parse_name_takes base offset name next named).1
  by_cases short : base.length - next < resourceHeaderLen
  · simp only [short, if_true] at rest
    cases rest
  by_cases cut : base.length - (next + resourceHeaderLen) <
      (toHost16 (load16 base (next + 8)) endian).toNat
  · simp only [short, cut, if_true, if_false] at rest
    cases rest
  · simp only [short, cut, if_false] at rest
    cases rest
    simp only [resourceHeaderLen] at short cut ⊢
    omega

/-- A loop over `count` items takes `count` times as much. -/
theorem parse_items_take {Item : Type} {parseItem : Nat → Except ParseError (Item × Nat)}
    {least : Nat} (takes : Takes base parseItem least) {count offset last : Nat}
    {items : List Item} (inside : offset ≤ base.length)
    (accepted : parseItems parseItem count offset = .ok (items, last)) :
    offset + count * least ≤ last ∧ last ≤ base.length := by
  induction count generalizing offset items with
  | zero =>
      cases accepted
      exact ⟨by omega, inside⟩
  | succ count ih =>
      obtain ⟨⟨item, next⟩, first, rest⟩ := bind_ok accepted
      obtain ⟨⟨later, stop⟩, parsed, joined⟩ := bind_ok rest
      cases joined
      obtain ⟨further, within⟩ := takes offset item next first
      obtain ⟨reached, ended⟩ := ih within parsed
      refine ⟨?_, ended⟩
      rw [Nat.succ_mul]
      omega

end Items

section Counts

/-- A message that parses has the octets its counts ask for. -/
theorem parse_unchecked_min_bytes {span : List UInt8} {endian : Endian}
    {result : Header × List UInt8} (accepted : parseUnchecked span endian = .ok result) :
    minBytes (loadHeader span endian) ≤ span.length - headerLen := by
  unfold parseUnchecked at accepted
  by_cases short : span.length < headerLen
  · simp only [short, if_true] at accepted
    cases accepted
  simp only [short, if_false] at accepted
  have question := parse_question_takes span endian
  have record := parse_resource_record_takes span endian
  obtain ⟨⟨questions, first⟩, asked, rest⟩ := bind_ok accepted
  obtain ⟨⟨answers, second⟩, answered, rest⟩ := bind_ok rest
  obtain ⟨⟨authority, third⟩, referred, rest⟩ := bind_ok rest
  obtain ⟨⟨additional, fourth⟩, added, rest⟩ := bind_ok rest
  obtain ⟨fromFirst, inside⟩ := parse_items_take question (Nat.le_of_not_lt short) asked
  obtain ⟨fromSecond, inside⟩ := parse_items_take record inside answered
  obtain ⟨fromThird, inside⟩ := parse_items_take record inside referred
  obtain ⟨fromFourth, inside⟩ := parse_items_take record inside added
  rw [minBytes, Nat.add_mul, Nat.add_mul]
  omega

/-- The comparison comes first, and nothing else is different. -/
theorem parse_counts_checked (span : List UInt8) (endian : Endian) :
    parse span endian =
      if headerLen ≤ span.length ∧ span.length - headerLen < minBytes (loadHeader span endian) then
        .error .unexpectedEof
      else parseUnchecked span endian := by
  unfold parse parseUnchecked
  by_cases short : span.length < headerLen
  · have absent : ¬ headerLen ≤ span.length := by omega
    simp only [short, absent, false_and, if_true, if_false]
  · have present : headerLen ≤ span.length := by omega
    simp only [short, present, true_and, if_false]
    rfl

theorem min_bytes_word_to_nat (header : Header) :
    (minBytesWord header).toNat = minBytes header ∧ minBytes header < 2 ^ 32 := by
  have questions := header.qdcount.toNat_lt
  have answers := header.ancount.toNat_lt
  have authority := header.nscount.toNat_lt
  have additional := header.arcount.toNat_lt
  simp only [minBytesWord, minBytes, UInt64.toNat_add, UInt64.toNat_mul, UInt16.toNat_toUInt64,
    UInt64.toNat_ofNat', questionHeaderLen, resourceHeaderLen]
  omega

/-- The comparison of the counts refuses exactly nothing that the parser would accept without
it, and its arithmetic stays exact in a word of 32 bits already. -/
theorem count_check_exact :
    (∀ (span : List UInt8) (endian : Endian) (result : Header × List UInt8),
      parse span endian = .ok result ↔ parseUnchecked span endian = .ok result) ∧
    ∀ header : Header, (minBytesWord header).toNat = minBytes header ∧
      minBytes header < 2 ^ 32 := by
  refine ⟨?_, min_bytes_word_to_nat⟩
  intro span endian result
  rw [parse_counts_checked]
  by_cases missing : headerLen ≤ span.length ∧
      span.length - headerLen < minBytes (loadHeader span endian)
  · rw [if_pos missing]
    constructor
    · intro accepted
      cases accepted
    · intro accepted
      have enough := parse_unchecked_min_bytes accepted
      omega
  · rw [if_neg missing]

end Counts

end PcapAnalyzer.Dns
