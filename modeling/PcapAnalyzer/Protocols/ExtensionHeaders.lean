import PcapAnalyzer.Decode.RoundTrip
import PcapAnalyzer.Protocols.Accepted

/-!
# Extension headers on the wire

The extension headers a sender writes, each with the length in its own unit, and the segment
routing headers whose segments are followed by TLVs.
-/

namespace PcapAnalyzer.Ip.V6.Ext

set_option autoImplicit false

/-- The headers whose data the parser does not look into. -/
def uninspected : List UInt8 :=
  [protocolHopopt, protocolIpv6Opts, protocolMobility, protocolHip, protocolShim6]

/-- The routing types that name the addresses of a path. -/
def addressedTypes : List UInt8 := [routingType0, routingType2, routingTypeSrh]

/-- A well-formed extension header, without the number of the header behind it. Only a
fragment header of a whole packet is one. -/
inductive Extension where
  | options (type : UInt8) (kind : type ∈ uninspected) (words : Nat) (few : words < 256)
      (data : List UInt8) (sized : data.length = 6 + 8 * words)
  | unaddressed (routingType segmentsLeft : UInt8)
      (ended : routingType ∉ addressedTypes ∨ segmentsLeft = 0) (words : Nat)
      (few : words < 256) (data : List UInt8) (sized : data.length = 4 + 8 * words)
  | addressed (routingType segmentsLeft : UInt8) (known : routingType ∈ addressedTypes)
      (left : segmentsLeft ≠ 0) (reserved : Bytes 4) (addresses : List (Bytes 16))
      (nonempty : addresses ≠ []) (few : addresses.length < 128)
  | fragment (reserved : UInt8) (offsetFlags : UInt16) (atomic : offsetFlags &&& 0xFFF9 = 0)
      (identification : UInt32)
  | ah (reserved : Bytes 2) (spi : UInt32) (words : Nat) (atLeast : 1 ≤ words) (few : words < 256)
      (data : List UInt8) (sized : data.length = 4 * words)

namespace Extension

def type : Extension → UInt8
  | .options type .. => type
  | .unaddressed .. => protocolIpv6Route
  | .addressed .. => protocolIpv6Route
  | .fragment .. => protocolIpv6Frag
  | .ah .. => protocolAh

/-- The second octet, which is a length but in a fragment header. -/
def hdrExtLen : Extension → UInt8
  | .options _ _ words .. => UInt8.ofNat words
  | .unaddressed _ _ _ words .. => UInt8.ofNat words
  | .addressed _ _ _ _ _ addresses .. => UInt8.ofNat (2 * addresses.length)
  | .fragment reserved .. => reserved
  | .ah _ _ words .. => UInt8.ofNat words

/-- What stands behind the first two octets. -/
def body : Extension → List UInt8
  | .options _ _ _ _ data _ => data
  | .unaddressed routingType segmentsLeft _ _ _ data _ => routingType :: segmentsLeft :: data
  | .addressed routingType segmentsLeft _ _ reserved addresses _ _ =>
      routingType :: segmentsLeft :: (reserved.val ++ addresses.flatMap Subtype.val)
  | .fragment _ offsetFlags _ identification => wire16 offsetFlags ++ wire32 identification
  | .ah reserved spi _ _ _ data _ => reserved.val ++ wire32 spi ++ data

def encode (ext : Extension) (nextHeader : UInt8) : List UInt8 :=
  nextHeader :: ext.hdrExtLen :: ext.body

/-- Where a routing header finally leads to: the last address, or the first one of a segment
list, which is written in reverse. -/
def finalDst : Extension → Option (List UInt8)
  | .addressed routingType _ _ _ _ addresses .. =>
      if routingType = routingTypeSrh then addresses.head?.map Subtype.val
      else addresses.getLast?.map Subtype.val
  | _ => none

/-- The header as the decoder lists it. -/
def header (ext : Extension) (nextHeader : UInt8) : Header :=
  let common : Header :=
    { type := ext.type
      nextHeader := nextHeader
      length := UInt16.ofNat (ext.encode nextHeader).length }
  match ext with
  | .options .. => common
  | .unaddressed routingType segmentsLeft .. =>
      { common with routingType := routingType, segmentsLeft := segmentsLeft }
  | .addressed routingType segmentsLeft .. =>
      { common with
        routingType := routingType
        segmentsLeft := segmentsLeft
        hasFinalDst := true
        finalDst := ext.finalDst.getD [] }
  | .fragment _ _ _ identification => { common with identification := identification }
  | .ah _ spi .. => { common with spi := spi }

theorem uninspected_kind : ∀ type ∈ uninspected, isExtension type = true ∧
    type ≠ protocolIpv6Route ∧ type ≠ protocolIpv6Frag ∧ type ≠ protocolAh := by
  rw [← List.forall_iff_forall_mem]
  decide

theorem extension_type (ext : Extension) : isExtension ext.type = true := by
  cases ext with
  | options type kind words few data sized => exact (uninspected_kind type kind).1
  | unaddressed => rfl
  | addressed => rfl
  | fragment => rfl
  | ah => rfl

theorem addresses_length (addresses : List (Bytes 16)) :
    (addresses.flatMap Subtype.val).length = 16 * addresses.length := by
  induction addresses with
  | nil => rfl
  | cons address addresses ih =>
      rw [List.flatMap_cons, List.length_append, address.property, ih, List.length_cons]
      omega

/-- The address at an index is cut out of the list. -/
theorem slice_address (addresses : List (Bytes 16)) (rest : List UInt8) (index : Nat)
    {address : Bytes 16} (found : addresses[index]? = some address) :
    slice (addresses.flatMap Subtype.val ++ rest) (16 * index) 16 = address.val := by
  induction addresses generalizing index with
  | nil => cases found
  | cons first addresses ih =>
      rw [List.flatMap_cons, List.append_assoc]
      cases index with
      | zero =>
          rw [List.getElem?_cons_zero, Option.some.injEq] at found
          rw [← found]
          exact slice_append_left _ _ _ first.property
      | succ index =>
          rw [slice_append_right _ _ _ _ (by rw [first.property]; omega), first.property,
            show 16 * (index + 1) - 16 = 16 * index by omega]
          exact ih index found

theorem wire_length_route (len : UInt8) :
    wireLength protocolIpv6Route len = (len.toNat + 1) * 8 := rfl

theorem wire_length_ah (len : UInt8) : wireLength protocolAh len = (len.toNat + 2) * 4 := rfl

/-- The length field of the header, in octets. -/
theorem encode_length (ext : Extension) (nextHeader : UInt8) :
    (ext.encode nextHeader).length = wireLength ext.type ext.hdrExtLen ∧
      minHeaderLen ≤ (ext.encode nextHeader).length := by
  have counted : ∀ count < 256, (UInt8.ofNat count).toNat = count :=
    fun count small => UInt8.toNat_ofNat_of_lt' small
  simp only [encode, List.length_cons, minHeaderLen]
  cases ext with
  | options type kind words few data sized =>
      obtain ⟨-, route, frag, ah⟩ := uninspected_kind type kind
      simp only [Extension.type, wireLength, if_neg frag, if_neg ah, hdrExtLen, counted words few,
        body, sized, minHeaderLen]
      omega
  | unaddressed routingType segmentsLeft ended words few data sized =>
      have length : wireLength protocolIpv6Route (UInt8.ofNat words) = (words + 1) * 8 := by
        rw [wire_length_route, counted words few]
      simp only [Extension.type, hdrExtLen, length, body, List.length_cons, sized]
      omega
  | addressed routingType segmentsLeft known left reserved addresses nonempty few =>
      have length : wireLength protocolIpv6Route (UInt8.ofNat (2 * addresses.length)) =
          (2 * addresses.length + 1) * 8 := by
        rw [wire_length_route, counted (2 * addresses.length) (by omega)]
      simp only [Extension.type, hdrExtLen, length, body, List.length_cons, List.length_append,
        reserved.property, addresses_length]
      omega
  | fragment reserved offsetFlags atomic identification =>
      exact ⟨rfl, by simp [body]⟩
  | ah reserved spi words atLeast few data sized =>
      have length : wireLength protocolAh (UInt8.ofNat words) = (words + 2) * 4 := by
        rw [wire_length_ah, counted words few]
      simp only [Extension.type, hdrExtLen, length, body, List.length_append, reserved.property,
        wire32_length, sized]
      omega

/-- A fragment header of a whole packet has neither an offset nor a flag. -/
theorem atomic_fields {offsetFlags : UInt16} (atomic : offsetFlags &&& 0xFFF9 = 0) :
    offsetFlags >>> 3 = 0 ∧ offsetFlags &&& 0x1 = 0 := by
  have reserved : offsetFlags = offsetFlags &&& 6 := by
    have covered : (0xFFF9 : UInt16) ||| 6 = -1 := by decide
    calc offsetFlags = offsetFlags &&& ((0xFFF9 : UInt16) ||| 6) := by
          rw [covered, UInt16.and_neg_one]
      _ = (offsetFlags &&& 0xFFF9) ||| (offsetFlags &&& 6) :=
          UInt16.toBitVec_inj.mp BitVec.and_or_distrib_left
      _ = offsetFlags &&& 6 := by rw [atomic, UInt16.zero_or]
  have low : (6 : UInt16) &&& 0x1 = 0 := by decide
  have high : (6 : UInt16) >>> 3 = 0 := by decide
  constructor
  · rw [reserved, UInt16.shiftRight_and, high, UInt16.and_zero]
  · rw [reserved, UInt16.and_assoc, low, UInt16.and_zero]

/-- What the parser looks at once it knows the length. -/
structure Shown (span : List UInt8) (type : UInt8) (read : Header) : Prop where
  ah : ¬ (type = protocolAh ∧ sizeOf span type < ahMinLen)
  addresses : Addressed span type → ¬ (byteAt span 1 < 2 ∨ byteAt span 1 % 2 ≠ 0)
  header : headerOf span type = read

theorem uninspected_shown {type : UInt8} (kind : type ∈ uninspected) (span : List UInt8) :
    Shown span type (commonOf span type) := by
  obtain ⟨-, route, frag, ah⟩ := uninspected_kind type kind
  refine ⟨fun short => ah short.1, fun addressed => absurd addressed.1 route, ?_⟩
  simp only [headerOf, if_neg route, if_neg frag, if_neg ah]

theorem unaddressed_shown (span : List UInt8) (ended : byteAt span 2 ∉ addressedTypes ∨
    byteAt span 3 = 0) : Shown span protocolIpv6Route
      { commonOf span protocolIpv6Route with
        routingType := byteAt span 2
        segmentsLeft := byteAt span 3 } := by
  have skipped : ¬ Addressed span protocolIpv6Route := by
    rintro ⟨-, known, left⟩
    rcases ended with other | zero
    · exact other (by simpa [addressedTypes] using known)
    · exact left zero
  refine ⟨fun short => absurd short.1 (by decide), fun addressed => absurd addressed skipped, ?_⟩
  simp only [headerOf, if_true, if_neg skipped]

theorem addressed_shown (span : List UInt8) {address : List UInt8}
    (known : byteAt span 2 ∈ addressedTypes)
    (left : byteAt span 3 ≠ 0) (whole : ¬ (byteAt span 1 < 2 ∨ byteAt span 1 % 2 ≠ 0))
    (named : slice span (finalDstOffset (byteAt span 2) (byteAt span 1)) 16 = address) :
    Shown span protocolIpv6Route
      { commonOf span protocolIpv6Route with
        routingType := byteAt span 2
        segmentsLeft := byteAt span 3
        finalDst := address
        hasFinalDst := true } := by
  have addressed : Addressed span protocolIpv6Route :=
    ⟨rfl, by simpa [addressedTypes] using known, left⟩
  refine ⟨fun short => absurd short.1 (by decide), fun _ => whole, ?_⟩
  simp only [headerOf, if_true, if_pos addressed, named]

theorem fragment_shown (span : List UInt8)
    (atomic : toHost16 (load16 span 2) .big &&& 0xFFF9 = 0) :
    Shown span protocolIpv6Frag
      { commonOf span protocolIpv6Frag with identification := toHost32 (load32 span 4) .big } := by
  have other : ¬ protocolIpv6Frag = protocolIpv6Route := by decide
  obtain ⟨offset, flag⟩ := atomic_fields atomic
  refine ⟨fun short => absurd short.1 (by decide), fun addressed =>
    absurd addressed.1 other, ?_⟩
  simp only [headerOf, if_neg other, if_true, offset, flag, ne_eq, not_true_eq_false, decide_false,
    commonOf]

theorem ah_shown (span : List UInt8) (long : ahMinLen ≤ sizeOf span protocolAh) :
    Shown span protocolAh
      { commonOf span protocolAh with spi := toHost32 (load32 span 4) .big } := by
  have route : ¬ protocolAh = protocolIpv6Route := by decide
  have frag : ¬ protocolAh = protocolIpv6Frag := by decide
  refine ⟨fun short => absurd short.2 (Nat.not_lt.mpr long), fun addressed =>
    absurd addressed.1 route, ?_⟩
  simp only [headerOf, if_neg route, if_neg frag, if_true]

theorem segment_count {count : Nat} (few : count < 128) :
    (UInt8.ofNat (2 * count)).toNat = 2 * count :=
  UInt8.toNat_ofNat_of_lt' (show 2 * count < 256 by omega)

theorem whole_addresses {count : Nat} (few : count < 128) (some : 1 ≤ count) :
    ¬ (UInt8.ofNat (2 * count) < 2 ∨ UInt8.ofNat (2 * count) % 2 ≠ 0) := by
  have counted := segment_count few
  rw [UInt8.lt_iff_toNat_lt, ne_eq, ← UInt8.toNat_inj, UInt8.toNat_mod, counted]
  simp only [UInt8.reduceToNat, UInt8.toNat_zero]
  omega

/-- The address at the offset the parser computes. -/
theorem final_dst_cut {front : List UInt8} (rest : List UInt8) (routingType : UInt8)
    {addresses : List (Bytes 16)} (behind : front.length = routingAddressOffset)
    (nonempty : addresses ≠ []) (few : addresses.length < 128) :
    slice (front ++ (addresses.flatMap Subtype.val ++ rest))
        (finalDstOffset routingType (UInt8.ofNat (2 * addresses.length))) 16 =
      (if routingType = routingTypeSrh then addresses.head?.map Subtype.val
        else addresses.getLast?.map Subtype.val).getD [] := by
  have positive := List.length_pos_iff.mpr nonempty
  simp only [routingAddressOffset] at behind
  unfold finalDstOffset
  by_cases srh : routingType = routingTypeSrh
  · obtain ⟨first, others, rfl⟩ := List.exists_cons_of_ne_nil nonempty
    have cut := slice_address (first :: others) rest 0 rfl
    rw [if_pos srh, if_neg (not_not.mpr srh), routingAddressOffset,
      slice_append_right _ _ _ _ behind.le, behind]
    exact cut
  · have last : addresses[addresses.length - 1]? = some (addresses.getLast nonempty) := by
      rw [← List.getLast?_eq_getElem?, List.getLast?_eq_some_getLast nonempty]
    have cut := slice_address addresses rest _ last
    rw [if_neg srh, if_pos srh, segment_count few, routingAddressOffset,
      slice_append_right _ _ _ _ (by omega), behind, List.getLast?_eq_some_getLast nonempty,
      show 8 + 16 * (2 * addresses.length / 2 - 1) - 8 = 16 * (addresses.length - 1) by omega]
    exact cut

theorem extension_shown (ext : Extension) (nextHeader : UInt8) (rest : List UInt8) :
    Shown (ext.encode nextHeader ++ rest) ext.type (ext.header nextHeader) := by
  have first : byteAt (ext.encode nextHeader ++ rest) 0 = nextHeader := by
    simp [encode]
  have second : byteAt (ext.encode nextHeader ++ rest) 1 = ext.hdrExtLen := by
    simp [encode]
  have common : commonOf (ext.encode nextHeader ++ rest) ext.type =
      { type := ext.type
        nextHeader := nextHeader
        length := UInt16.ofNat (ext.encode nextHeader).length } := by
    rw [commonOf, sizeOf, first, second, (encode_length ext nextHeader).1]
  cases ext with
  | options type kind words few data sized =>
      have shown := uninspected_shown kind (encode (.options type kind words few data sized)
        nextHeader ++ rest)
      rw [Extension.type] at common
      rw [common] at shown
      exact shown
  | unaddressed routingType segmentsLeft ended words few data sized =>
      generalize cut : encode (.unaddressed routingType segmentsLeft ended words few data sized)
        nextHeader ++ rest = span at common ⊢
      have third : byteAt span 2 = routingType := by
        simp [← cut, encode, body]
      have fourth : byteAt span 3 = segmentsLeft := by
        simp [← cut, encode, body]
      have shown := unaddressed_shown span (by rw [third, fourth]; exact ended)
      rw [Extension.type] at common
      rw [common, third, fourth] at shown
      exact shown
  | addressed routingType segmentsLeft known left reserved addresses nonempty few =>
      have cut : encode (.addressed routingType segmentsLeft known left reserved addresses nonempty
          few) nextHeader ++ rest = ([nextHeader, UInt8.ofNat (2 * addresses.length), routingType,
            segmentsLeft] ++ reserved.val) ++ (addresses.flatMap Subtype.val ++ rest) := by
        simp [encode, body, hdrExtLen]
      have front : ([nextHeader, UInt8.ofNat (2 * addresses.length), routingType,
          segmentsLeft] ++ reserved.val).length = routingAddressOffset := by
        rw [List.length_append, reserved.property]
        rfl
      have named := final_dst_cut rest routingType front nonempty few
      rw [← cut] at named
      generalize encode (.addressed routingType segmentsLeft known left reserved addresses nonempty
        few) nextHeader ++ rest = span at common cut second named ⊢
      have third : byteAt span 2 = routingType := by
        simp [cut]
      have fourth : byteAt span 3 = segmentsLeft := by
        simp [cut]
      simp only [hdrExtLen] at second
      rw [← third, ← second] at named
      have shown := addressed_shown span (by rw [third]; exact known) (by rw [fourth]; exact left)
        (by rw [second]; exact whole_addresses few (List.length_pos_iff.mpr nonempty)) named
      rw [Extension.type] at common
      rw [common, third, fourth] at shown
      exact shown
  | fragment reserved offsetFlags atomic identification =>
      generalize cut : encode (.fragment reserved offsetFlags atomic identification)
        nextHeader ++ rest = span at common ⊢
      have flags : toHost16 (load16 span 2) .big = offsetFlags := by
        rw [← cut]
        exact to_host16_wire offsetFlags (wire32 identification ++ rest)
      have number : toHost32 (load32 span 4) .big = identification := by
        rw [← cut]
        exact to_host32_wire identification rest
      have shown := fragment_shown span (by rw [flags]; exact atomic)
      rw [Extension.type] at common
      rw [common, number] at shown
      exact shown
  | ah reserved spi words atLeast few data sized =>
      have long := (encode_length (.ah reserved spi words atLeast few data sized) nextHeader).1
      generalize cut : encode (.ah reserved spi words atLeast few data sized)
        nextHeader ++ rest = span at common second ⊢
      have size : ahMinLen ≤ sizeOf span protocolAh := by
        rw [sizeOf, second, hdrExtLen, wire_length_ah, UInt8.toNat_ofNat_of_lt' few]
        simp only [ahMinLen]
        omega
      have number : toHost32 (load32 span 4) .big = spi := by
        obtain ⟨bytes, two⟩ := reserved
        obtain ⟨high, low, rfl⟩ := List.length_eq_two.mp two
        rw [← cut]
        have spelled : encode (.ah ⟨[high, low], two⟩ spi words atLeast few data sized)
            nextHeader ++ rest =
              [nextHeader, UInt8.ofNat words, high, low] ++ (wire32 spi ++ (data ++ rest)) := by
          simp [encode, body, hdrExtLen]
        rw [spelled]
        exact to_host32_wire spi (data ++ rest)
      have shown := ah_shown span size
      rw [Extension.type] at common
      rw [common, number] at shown
      exact shown

/-- The parser reads back every header and leaves what stands behind it. -/
theorem parse_encode (ext : Extension) (nextHeader : UInt8) (rest : List UInt8) :
    parse (ext.encode nextHeader ++ rest) ext.type .big = .ok (ext.header nextHeader, rest) := by
  obtain ⟨length, least⟩ := encode_length ext nextHeader
  have shown := extension_shown ext nextHeader rest
  have size : sizeOf (ext.encode nextHeader ++ rest) ext.type =
      (ext.encode nextHeader).length := by
    rw [sizeOf, length]
    simp [encode]
  have fits : (ext.encode nextHeader).length ≤ (ext.encode nextHeader ++ rest).length := by
    rw [List.length_append]
    omega
  have read := (parse_reads (ext.encode nextHeader ++ rest) ext.type).1
    ⟨least.trans fits, shown.ah, size.le.trans fits, shown.addresses⟩
  rw [size, List.drop_left, shown.header] at read
  exact read

end Extension

/-- A segment routing header: the segments in reverse, so that the last one to be visited
comes first, and TLVs behind them. -/
structure SegmentRouting where
  nextHeader : UInt8
  segmentsLeft : UInt8
  active : segmentsLeft ≠ 0
  flags : UInt8
  tag : UInt16
  destination : Bytes 16
  others : List (Bytes 16)
  tlvs : List UInt8
  aligned : tlvs.length % 8 = 0
  fits : 2 * (others.length + 1) + tlvs.length / 8 ≤ 255

namespace SegmentRouting

variable (routing : SegmentRouting) (rest : List UInt8)

def hdrExtLen : Nat := 2 * (routing.others.length + 1) + routing.tlvs.length / 8

/-- The fields in front of the segments. -/
def front : List UInt8 :=
  [routing.nextHeader, UInt8.ofNat routing.hdrExtLen, routingTypeSrh, routing.segmentsLeft,
    UInt8.ofNat routing.others.length, routing.flags] ++ wire16 routing.tag

def encode : List UInt8 :=
  routing.front ++ (routing.destination.val ++ routing.others.flatMap Subtype.val) ++ routing.tlvs

/-- The header is consumed as a whole, and the checksum of the upper layer is computed with
the destination it names. -/
structure Understood : Prop where
  parsed : ∃ header, parse (routing.encode ++ rest) protocolIpv6Route .big = .ok (header, rest) ∧
    header.hasFinalDst = true ∧ header.finalDst = routing.destination.val ∧
    ∀ fixed before upperLen,
      (pseudoHeader fixed (before ++ [header]) upperLen).dstIp = routing.destination.val
  consumed : routing.encode.length = 8 * (routing.hdrExtLen + 1)

theorem hdr_ext_len_to_nat : (UInt8.ofNat routing.hdrExtLen).toNat = routing.hdrExtLen := by
  have fits := routing.fits
  exact UInt8.toNat_ofNat_of_lt' (show routing.hdrExtLen < 256 by unfold hdrExtLen; omega)

theorem front_length : routing.front.length = 8 := rfl

theorem encode_length : routing.encode.length = 8 * (routing.hdrExtLen + 1) := by
  have aligned := routing.aligned
  simp only [encode, List.length_append, front_length, routing.destination.property,
    Extension.addresses_length, hdrExtLen]
  omega

theorem size_of_encode :
    sizeOf (routing.encode ++ rest) protocolIpv6Route = routing.encode.length := by
  have second : byteAt (routing.encode ++ rest) 1 = UInt8.ofNat routing.hdrExtLen := rfl
  rw [sizeOf, second, Extension.wire_length_route, hdr_ext_len_to_nat, encode_length]
  omega

theorem encode_addressed : Addressed (routing.encode ++ rest) protocolIpv6Route :=
  ⟨rfl, .inr (.inr rfl), routing.active⟩

/-- The parser wants the octets behind the fixed part to be whole addresses. -/
theorem accepts_iff : Accepts (routing.encode ++ rest) protocolIpv6Route ↔
    routing.tlvs.length % 16 = 0 := by
  have length := encode_length routing
  have size := size_of_encode routing rest
  have aligned := routing.aligned
  have second : byteAt (routing.encode ++ rest) 1 = UInt8.ofNat routing.hdrExtLen := rfl
  have even : (byteAt (routing.encode ++ rest) 1 < 2 ∨
      byteAt (routing.encode ++ rest) 1 % 2 ≠ 0) ↔ routing.hdrExtLen % 2 ≠ 0 := by
    rw [second, UInt8.lt_iff_toNat_lt, ne_eq, ← UInt8.toNat_inj, UInt8.toNat_mod,
      hdr_ext_len_to_nat]
    simp only [UInt8.reduceToNat, UInt8.toNat_zero, hdrExtLen]
    omega
  have padded : routing.hdrExtLen % 2 ≠ 0 ↔ routing.tlvs.length % 16 ≠ 0 := by
    unfold hdrExtLen
    omega
  constructor
  · intro accepts
    by_contra odd
    exact accepts.addresses (encode_addressed routing rest) (even.mpr (padded.mpr odd))
  · intro whole
    have fits : routing.encode.length ≤ (routing.encode ++ rest).length := by
      rw [List.length_append]
      omega
    refine ⟨?_, fun short => absurd short.1 (by decide), size.le.trans fits, ?_⟩
    · simp only [minHeaderLen]
      omega
    · intro _ odd
      exact padded.mp (even.mp odd) whole

theorem header_named : (headerOf (routing.encode ++ rest) protocolIpv6Route).hasFinalDst = true ∧
    (headerOf (routing.encode ++ rest) protocolIpv6Route).finalDst =
      routing.destination.val := by
  have offset : finalDstOffset (byteAt (routing.encode ++ rest) 2)
      (byteAt (routing.encode ++ rest) 1) = 8 := rfl
  have cut : slice (routing.encode ++ rest) 8 16 = routing.destination.val := by
    have spelled : routing.encode ++ rest = routing.front ++ (routing.destination.val ++
        (routing.others.flatMap Subtype.val ++ (routing.tlvs ++ rest))) := by
      simp only [encode, List.append_assoc]
    rw [spelled, slice_append_right _ _ _ _ (front_length routing).le, front_length]
    exact slice_append_left _ _ _ routing.destination.property
  unfold headerOf
  rw [if_pos rfl, if_pos (encode_addressed routing rest), offset, cut]
  exact ⟨rfl, rfl⟩

/-- The last header that names a destination decides. -/
theorem pseudo_header_last (fixed : V6.Header) (before : List Header) {header : Header}
    (upperLen : Nat) (named : header.hasFinalDst = true) :
    (pseudoHeader fixed (before ++ [header]) upperLen).dstIp = header.finalDst := by
  unfold pseudoHeader
  rw [List.foldl_append, List.foldl_cons, List.foldl_nil, if_pos named]

/-- A segment routing header is understood exactly when its TLVs fill whole addresses. -/
theorem understood_iff : routing.Understood rest ↔ routing.tlvs.length % 16 = 0 := by
  rw [← accepts_iff routing rest]
  obtain ⟨read, unread⟩ := parse_reads (routing.encode ++ rest) protocolIpv6Route
  constructor
  · rintro ⟨⟨header, parsed, -⟩, -⟩
    by_contra refused
    obtain ⟨err, failed, -⟩ := unread refused
    rw [failed] at parsed
    cases parsed
  · intro accepts
    obtain ⟨has, named⟩ := header_named routing rest
    have parsed := read accepts
    rw [size_of_encode, List.drop_left] at parsed
    refine ⟨⟨_, parsed, has, named, ?_⟩, encode_length routing⟩
    intro fixed before upperLen
    rw [pseudo_header_last fixed before upperLen has]
    exact named

/-- One segment, and a padding TLV of eight octets. -/
def padded : SegmentRouting where
  nextHeader := protocolUdp
  segmentsLeft := 1
  active := by decide
  flags := 0
  tag := 0
  destination := ⟨List.replicate 16 5, rfl⟩
  others := []
  tlvs := [4, 6, 0, 0, 0, 0, 0, 0]
  aligned := rfl
  fits := by decide

theorem padded_is_refused :
    ¬ ∀ (routing : SegmentRouting) (rest : List UInt8), routing.Understood rest := by
  intro all
  obtain ⟨⟨header, parsed, -⟩, -⟩ := all padded []
  have refused : parse (padded.encode ++ []) protocolIpv6Route .big = .error .malformedHeader := by
    rfl
  rw [refused] at parsed
  cases parsed

end SegmentRouting

end PcapAnalyzer.Ip.V6.Ext
