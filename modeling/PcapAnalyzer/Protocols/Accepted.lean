import PcapAnalyzer.Protocols.Link
import PcapAnalyzer.Protocols.Transport

/-!
# What the header parsers accept

For every parser the inputs it accepts, and what it returns for them: the copied header
with its fields swapped, and the bytes behind it. The statements are about network byte
order, the only one packets are decoded with.
-/

namespace PcapAnalyzer

set_option autoImplicit false

/-- A parser goes through exactly when `accepts` holds, and then leaves this. -/
structure Reads {Header : Type} (accepts : Prop) (header : Header) (rest : List UInt8)
    (parsed : Parsed Header) : Prop where
  accepted : accepts → parsed = ⟨.none, header, rest⟩
  refused : ¬ accepts → parsed.err ≠ .none

namespace Reads

variable {Header : Type} {accepts : Prop} {header : Header} {rest : List UInt8}
  {parsed : Parsed Header}

theorem err_iff (reads : Reads accepts header rest parsed) : parsed.err = .none ↔ accepts := by
  constructor
  · intro passed
    by_contra refused
    exact reads.refused refused passed
  · intro accepted
    rw [reads.accepted accepted]

theorem eq (reads : Reads accepts header rest parsed) (passed : parsed.err = .none) :
    parsed = ⟨.none, header, rest⟩ :=
  reads.accepted (reads.err_iff.mp passed)

theorem of_iff {accepts' : Prop} (reads : Reads accepts header rest parsed)
    (same : accepts ↔ accepts') : Reads accepts' header rest parsed :=
  ⟨fun accepted => reads.accepted (same.mpr accepted),
    fun refused => reads.refused fun accepted => refused (same.mp accepted)⟩

theorem done : Reads True header rest ⟨.none, header, rest⟩ :=
  ⟨fun _ => rfl, fun refused => absurd trivial refused⟩

/-- A check in front of a parser. -/
theorem guard {check : Prop} [Decidable check] {err : ParseError} {before : Header}
    {span : List UInt8} (failure : err ≠ .none) (reads : Reads accepts header rest parsed) :
    Reads (¬ check ∧ accepts) header rest (if check then ⟨err, before, span⟩ else parsed) := by
  by_cases failed : check
  · rw [if_pos failed]
    exact ⟨fun accepted => absurd failed accepted.1, fun _ => failure⟩
  · rw [if_neg failed]
    exact reads.of_iff ⟨fun accepted => ⟨failed, accepted⟩, And.right⟩

end Reads

theorem verified_iff {verify valid : Bool} :
    ¬ (verify && !valid) = true ↔ (verify = true → valid = true) := by
  cases verify <;> cases valid <;> decide

namespace Ethernet

def Header.toHost (header : Header) : Header :=
  { header with ethertype := toHost16 header.ethertype .big }

theorem parse_reads (span : List UInt8) (header : Header) :
    Reads (headerLen ≤ span.length) (Header.ofWire span).toHost (span.drop headerLen)
      (parse span header .big) := by
  unfold parse
  refine (Reads.guard (by decide) .done).of_iff ?_
  simp

end Ethernet

namespace Vlan

def Header.toHost (header : Header) : Header :=
  { header with
    tci := toHost16 header.tci .big
    ethertype := toHost16 header.ethertype .big }

structure Accepts (span : List UInt8) : Prop where
  fits : headerLen ≤ span.length
  notReserved : (Header.ofWire span).toHost.vid ≠ vidReserved

theorem parse_reads (span : List UInt8) (header : Header) :
    Reads (Accepts span) (Header.ofWire span).toHost (span.drop headerLen)
      (parse span header .big) := by
  unfold parse
  refine (Reads.guard (by decide) (.guard (by decide) .done)).of_iff ?_
  constructor
  · rintro ⟨fits, notReserved, -⟩
    exact ⟨Nat.le_of_not_lt fits, notReserved⟩
  · rintro ⟨fits, notReserved⟩
    exact ⟨Nat.not_lt.mpr fits, notReserved, trivial⟩

end Vlan

namespace Arp

def Header.toHost (header : Header) : Header :=
  { header with
    htype := toHost16 header.htype .big
    ptype := toHost16 header.ptype .big
    oper := toHost16 header.oper .big }

/-- The addresses behind the fixed part, as long as its lengths say. -/
def Header.withAddresses (header : Header) (span : List UInt8) : Header :=
  { header with
    sha := slice span minHeaderLen header.hlen.toNat
    spa := slice span (minHeaderLen + header.hlen.toNat) header.plen.toNat
    tha := slice span (minHeaderLen + (header.hlen.toNat + header.plen.toNat)) header.hlen.toNat
    tpa := slice span (minHeaderLen + (2 * header.hlen.toNat + header.plen.toNat))
      header.plen.toNat }

def headerLen (span : List UInt8) : Nat :=
  minHeaderLen + 2 * (byteAt span 4).toNat + 2 * (byteAt span 5).toNat

structure Accepts (span : List UInt8) : Prop where
  fixed : minHeaderLen ≤ span.length
  sized : ¬ (byteAt span 4 = 0 ∨ byteAt span 5 = 0)
  fits : headerLen span ≤ span.length

theorem parse_reads (span : List UInt8) (header : Header) :
    Reads (Accepts span) ((Header.ofWire span header).toHost.withAddresses span)
      (span.drop (headerLen span)) (parse span header .big) := by
  unfold parse
  refine (Reads.guard (by decide) (.guard (by decide) (.guard (by decide) .done))).of_iff ?_
  constructor
  · rintro ⟨fixed, sized, fits, -⟩
    exact ⟨Nat.le_of_not_lt fixed, sized, Nat.le_of_not_lt fits⟩
  · rintro ⟨fixed, sized, fits⟩
    exact ⟨Nat.not_lt.mpr fixed, sized, Nat.not_lt.mpr fits, trivial⟩

end Arp

namespace Ip.V4

def Header.toHost (header : Header) : Header :=
  { header with
    totalLength := toHost16 header.totalLength .big
    identification := toHost16 header.identification .big
    flagsFragment := toHost16 header.flagsFragment .big
    checksum := toHost16 header.checksum .big
    srcIp := toHost32 header.srcIp .big
    dstIp := toHost32 header.dstIp .big }

/-- The header at the front of a datagram. -/
def headerOf (span : List UInt8) : Header := (Header.ofWire span).toHost

/-- What the header leaves of the datagram, without what stands behind the datagram. -/
def payloadOf (span : List UInt8) : List UInt8 :=
  slice span (headerOf span).headerLength
    ((headerOf span).totalLength.toNat - (headerOf span).headerLength)

structure Accepts (span : List UInt8) (verify : Bool) : Prop where
  fixed : minHeaderLen ≤ span.length
  words : ¬ ((headerOf span).headerLength < minHeaderLen ∨
    (headerOf span).headerLength > maxHeaderLen)
  options : (headerOf span).headerLength ≤ span.length
  version : (headerOf span).version = supportedVersion
  verified : verify = true → verifyChecksum (span.take (headerOf span).headerLength) 0 = true
  total : (headerOf span).headerLength ≤ (headerOf span).totalLength.toNat
  inside : (headerOf span).totalLength.toNat ≤ span.length

theorem parse_reads (span : List UInt8) (header : Header) (verify : Bool) :
    Reads (Accepts span verify) (headerOf span) (payloadOf span)
      (parse span header .big verify) := by
  unfold parse
  refine (Reads.guard (by decide) (.guard (by decide) (.guard (by decide) (.guard (by decide)
    (.guard (by decide) (.guard (by decide) (.guard (by decide) .done))))))).of_iff ?_
  constructor
  · rintro ⟨fixed, words, options, version, checked, total, inside, -⟩
    exact ⟨Nat.le_of_not_lt fixed, words, Nat.le_of_not_lt options, not_not.mp version,
      verified_iff.mp checked, Nat.le_of_not_lt total, Nat.le_of_not_lt inside⟩
  · rintro ⟨fixed, words, options, version, verified, total, inside⟩
    exact ⟨Nat.not_lt.mpr fixed, words, Nat.not_lt.mpr options, not_not.mpr version,
      verified_iff.mpr verified, Nat.not_lt.mpr total, Nat.not_lt.mpr inside, trivial⟩

end Ip.V4

namespace Ip.V6

def Header.toHost (header : Header) : Header :=
  { header with
    versionTcFl := toHost32 header.versionTcFl .big
    payloadLength := toHost16 header.payloadLength .big }

def headerOf (span : List UInt8) : Header := (Header.ofWire span).toHost

/-- What the payload length takes of the bytes behind the fixed header. -/
def payloadOf (span : List UInt8) : List UInt8 :=
  (span.drop headerLen).take (headerOf span).payloadLength.toNat

structure Accepts (span : List UInt8) : Prop where
  fixed : headerLen ≤ span.length
  version : (headerOf span).version = supportedVersion
  inside : (headerOf span).payloadLength.toNat ≤ (span.drop headerLen).length

theorem parse_reads (span : List UInt8) (header : Header) :
    Reads (Accepts span) (headerOf span) (payloadOf span) (parse span header .big) := by
  unfold parse
  refine (Reads.guard (by decide) (.guard (by decide) (.guard (by decide) .done))).of_iff ?_
  constructor
  · rintro ⟨fixed, version, inside, -⟩
    exact ⟨Nat.le_of_not_lt fixed, not_not.mp version, Nat.le_of_not_lt inside⟩
  · rintro ⟨fixed, version, inside⟩
    exact ⟨Nat.not_lt.mpr fixed, not_not.mpr version, Nat.not_lt.mpr inside, trivial⟩

namespace Ext

/-- The size of the extension header at the front of a span. -/
def sizeOf (span : List UInt8) (type : UInt8) : Nat := wireLength type (byteAt span 1)

/-- A routing header that names the address the packet is finally for. -/
def Addressed (span : List UInt8) (type : UInt8) : Prop :=
  type = protocolIpv6Route ∧
    (byteAt span 2 = routingType0 ∨ byteAt span 2 = routingType2 ∨
      byteAt span 2 = routingTypeSrh) ∧ byteAt span 3 ≠ 0

instance (span : List UInt8) (type : UInt8) : Decidable (Addressed span type) :=
  inferInstanceAs (Decidable (_ ∧ _ ∧ _))

/-- What every extension header has. -/
def commonOf (span : List UInt8) (type : UInt8) : Header :=
  { type := type, nextHeader := byteAt span 0, length := UInt16.ofNat (sizeOf span type) }

def headerOf (span : List UInt8) (type : UInt8) : Header :=
  let header := commonOf span type
  if type = protocolIpv6Route then
    let header := { header with routingType := byteAt span 2, segmentsLeft := byteAt span 3 }
    if Addressed span type then
      { header with
        finalDst := slice span (finalDstOffset (byteAt span 2) (byteAt span 1)) 16
        hasFinalDst := true }
    else header
  else if type = protocolIpv6Frag then
    let offsetFlags := toHost16 (load16 span 2) .big
    { header with
      fragmentOffset := offsetFlags >>> 3
      moreFragments := offsetFlags &&& 0x1 ≠ 0
      identification := toHost32 (load32 span 4) .big }
  else if type = protocolAh then { header with spi := toHost32 (load32 span 4) .big }
  else header

structure Accepts (span : List UInt8) (type : UInt8) : Prop where
  fixed : minHeaderLen ≤ span.length
  ah : ¬ (type = protocolAh ∧ sizeOf span type < ahMinLen)
  fits : sizeOf span type ≤ span.length
  addresses : Addressed span type → ¬ (byteAt span 1 < 2 ∨ byteAt span 1 % 2 ≠ 0)

/-- The parser goes through exactly when `Accepts` holds. -/
theorem parse_reads (span : List UInt8) (type : UInt8) :
    (Accepts span type →
      parse span type .big = .ok (headerOf span type, span.drop (sizeOf span type))) ∧
    (¬ Accepts span type → ∃ err, parse span type .big = .error err ∧ err ≠ .none) := by
  unfold parse
  by_cases short : span.length < minHeaderLen
  · rw [if_pos short]
    exact ⟨fun accepts => absurd accepts.fixed (Nat.not_le.mpr short),
      fun _ => ⟨_, rfl, by decide⟩⟩
  rw [if_neg short]
  by_cases ah : type = protocolAh ∧ sizeOf span type < ahMinLen
  · simp only [sizeOf] at ah
    simp only [if_pos ah]
    exact ⟨fun accepts => absurd ah accepts.ah, fun _ => ⟨_, rfl, by decide⟩⟩
  by_cases cut : span.length < sizeOf span type
  · simp only [sizeOf] at ah cut
    simp only [if_neg ah, if_pos cut]
    exact ⟨fun accepts => absurd accepts.fits (Nat.not_le.mpr cut),
      fun _ => ⟨_, rfl, by decide⟩⟩
  have sized : Accepts span type ↔
      (Addressed span type → ¬ (byteAt span 1 < 2 ∨ byteAt span 1 % 2 ≠ 0)) :=
    ⟨Accepts.addresses, fun addresses =>
      ⟨Nat.le_of_not_lt short, ah, Nat.le_of_not_lt cut, addresses⟩⟩
  simp only [sizeOf] at ah cut
  simp only [if_neg ah, if_neg cut]
  by_cases route : type = protocolIpv6Route
  swap
  · have plain : ¬ Addressed span type := fun addressed => route addressed.1
    refine ⟨fun _ => ?_, fun refused => absurd (sized.mpr fun addressed =>
      absurd addressed plain) refused⟩
    simp only [if_neg route, headerOf, commonOf, sizeOf]
    split_ifs <;> rfl
  simp only [if_pos route]
  have skips : ¬ Addressed span type ↔ ¬ (byteAt span 2 = routingType0 ∨
      byteAt span 2 = routingType2 ∨ byteAt span 2 = routingTypeSrh) ∨ byteAt span 3 = 0 := by
    simp only [Addressed, route, true_and, ne_eq, not_and_or, not_not]
  by_cases addressed : Addressed span type
  swap
  · refine ⟨fun _ => ?_, fun refused => absurd (sized.mpr fun named =>
      absurd named addressed) refused⟩
    simp only [if_pos (skips.mp addressed), headerOf, commonOf, sizeOf, if_pos route,
      if_neg addressed]
  simp only [if_neg (fun skipped => skips.mpr skipped addressed)]
  by_cases odd : byteAt span 1 < 2 ∨ byteAt span 1 % 2 ≠ 0
  · simp only [if_pos odd]
    exact ⟨fun accepts => absurd odd (accepts.addresses addressed),
      fun _ => ⟨_, rfl, by decide⟩⟩
  · refine ⟨fun _ => ?_, fun refused => absurd (sized.mpr fun _ => odd) refused⟩
    simp only [if_neg odd, headerOf, commonOf, sizeOf, if_pos route, if_pos addressed]

end Ext

end Ip.V6

namespace Tcp

/-- The checksum is not among them. -/
def Header.toHost (header : Header) : Header :=
  { header with
    srcPort := toHost16 header.srcPort .big
    dstPort := toHost16 header.dstPort .big
    seqNumber := toHost32 header.seqNumber .big
    ackNumber := toHost32 header.ackNumber .big
    windowSize := toHost16 header.windowSize .big
    urgentPointer := toHost16 header.urgentPointer .big }

def headerOf (span : List UInt8) : Header := (Header.ofWire span).toHost

structure Accepts (span : List UInt8) (length : Nat) (pseudoHeaderSum : UInt64) (verify : Bool) :
    Prop where
  fixed : minHeaderLen ≤ span.length
  words : ¬ ((headerOf span).headerLength < minHeaderLen ∨
    (headerOf span).headerLength > maxHeaderLen ∨
    length < (headerOf span).headerLength ∨ span.length < length)
  options : (headerOf span).headerLength ≤ span.length
  verified : verify = true → verifyChecksum (span.take length) pseudoHeaderSum = true

theorem parse_reads (span : List UInt8) (header : Header) (length : Nat)
    (pseudoHeaderSum : UInt64) (verify : Bool) :
    Reads (Accepts span length pseudoHeaderSum verify) (headerOf span)
      (span.drop (headerOf span).headerLength)
      (parse span header length pseudoHeaderSum .big verify) := by
  unfold parse
  refine (Reads.guard (by decide) (.guard (by decide) (.guard (by decide) (.guard (by decide)
    .done)))).of_iff ?_
  constructor
  · rintro ⟨fixed, words, options, checked, -⟩
    exact ⟨Nat.le_of_not_lt fixed, words, Nat.le_of_not_lt options, verified_iff.mp checked⟩
  · rintro ⟨fixed, words, options, verified⟩
    exact ⟨Nat.not_lt.mpr fixed, words, Nat.not_lt.mpr options, verified_iff.mpr verified, trivial⟩

end Tcp

namespace Udp

def Header.toHost (header : Header) : Header :=
  { header with
    srcPort := toHost16 header.srcPort .big
    dstPort := toHost16 header.dstPort .big
    length := toHost16 header.length .big
    checksum := toHost16 header.checksum .big }

def headerOf (span : List UInt8) : Header := (Header.ofWire span).toHost

/-- The payload of the datagram, without what stands behind it. -/
def payloadOf (span : List UInt8) : List UInt8 :=
  slice span headerLen ((headerOf span).length.toNat - headerLen)

/-- A checksum of zero is not verified where it may stand for an absent one. -/
structure Accepts (span : List UInt8) (pseudoHeaderSum : UInt64)
    (acceptZeroChecksum verify : Bool) : Prop where
  fixed : headerLen ≤ span.length
  length : ¬ ((headerOf span).length.toNat < headerLen ∨
    span.length < (headerOf span).length.toNat)
  verified : (verify && ((Header.ofWire span).checksum ≠ 0 || !acceptZeroChecksum)) = true →
    verifyChecksum (span.take (headerOf span).length.toNat) pseudoHeaderSum = true

theorem parse_reads (span : List UInt8) (header : Header) (pseudoHeaderSum : UInt64)
    (acceptZeroChecksum verify : Bool) :
    Reads (Accepts span pseudoHeaderSum acceptZeroChecksum verify) (headerOf span)
      (payloadOf span) (parse span header pseudoHeaderSum .big acceptZeroChecksum verify) := by
  unfold parse
  refine (Reads.guard (by decide) (.guard (by decide) (.guard (by decide) .done))).of_iff ?_
  constructor
  · rintro ⟨fixed, length, checked, -⟩
    exact ⟨Nat.le_of_not_lt fixed, length, verified_iff.mp checked⟩
  · rintro ⟨fixed, length, verified⟩
    exact ⟨Nat.not_lt.mpr fixed, length, verified_iff.mpr verified, trivial⟩

end Udp

namespace Icmp

/-- Only the member of the union that the type selects is swapped. -/
def Header.toHost (header : Header) : Header :=
  let header :=
    if header.type = typeRedirect then { header with gateway := toHost32 header.gateway .big }
    else if isEcho header.type then
      { header with
        echoId := toHost16 header.echoId .big
        echoSeq := toHost16 header.echoSeq .big }
    else header
  { header with checksum := toHost16 header.checksum .big }

structure Accepts (span : List UInt8) (verify : Bool) : Prop where
  fixed : headerLen ≤ span.length
  code : ¬ (Header.ofWire span).code > maxCode (Header.ofWire span).type
  verified : verify = true → verifyChecksum span 0 = true

theorem parse_reads (span : List UInt8) (header : Header) (verify : Bool) :
    Reads (Accepts span verify) (Header.ofWire span).toHost (span.drop headerLen)
      (parse span header .big verify) := by
  unfold parse
  refine (Reads.guard (by decide) (.guard (by decide) (.guard (by decide) .done))).of_iff ?_
  constructor
  · rintro ⟨fixed, code, checked, -⟩
    exact ⟨Nat.le_of_not_lt fixed, code, verified_iff.mp checked⟩
  · rintro ⟨fixed, code, verified⟩
    exact ⟨Nat.not_lt.mpr fixed, code, verified_iff.mpr verified, trivial⟩

end Icmp

namespace Icmpv6

def Header.toHost (header : Header) : Header :=
  let header := { header with checksum := toHost16 header.checksum .big }
  if header.type = typePacketTooBig then { header with mtu := toHost32 header.mtu .big }
  else if header.type = typeParamProblem then
    { header with pointer := toHost32 header.pointer .big }
  else if isEcho header.type then
    { header with
      echoId := toHost16 header.echoId .big
      echoSeq := toHost16 header.echoSeq .big }
  else header

structure Accepts (span : List UInt8) (ipHeader : Ip.V6.Header) (verify : Bool) : Prop where
  fixed : headerLen ≤ span.length
  length : ipHeader.payloadLength.toNat ≤ span.length
  code : ¬ (Header.ofWire span).code > maxCode (Header.ofWire span).type
  mtu : ¬ ((Header.ofWire span).toHost.type = typePacketTooBig ∧
    (Header.ofWire span).toHost.mtu < minMtu)
  verified : verify = true → verifyChecksum (span.take ipHeader.payloadLength.toNat)
    (Ip.V6.computePseudoHeaderSum ipHeader) = true

theorem parse_reads (span : List UInt8) (header : Header) (ipHeader : Ip.V6.Header)
    (verify : Bool) :
    Reads (Accepts span ipHeader verify) (Header.ofWire span).toHost (span.drop headerLen)
      (parse span header ipHeader .big verify) := by
  unfold parse
  refine (Reads.guard (by decide) (.guard (by decide) (.guard (by decide) (.guard (by decide)
    (.guard (by decide) .done))))).of_iff ?_
  constructor
  · rintro ⟨fixed, length, code, mtu, checked, -⟩
    exact ⟨Nat.le_of_not_lt fixed, Nat.le_of_not_lt length, code, mtu, verified_iff.mp checked⟩
  · rintro ⟨fixed, length, code, mtu, verified⟩
    exact ⟨Nat.not_lt.mpr fixed, Nat.not_lt.mpr length, code, mtu, verified_iff.mpr verified,
      trivial⟩

end Icmpv6

end PcapAnalyzer
