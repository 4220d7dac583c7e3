import PcapAnalyzer.Protocols.CheckedParsers

/-!
# The checked parsers do not fail

Each checked parser goes through on every window and leaves what the plain one leaves, the span
being shown by a part of the window.
-/

namespace PcapAnalyzer.Checked

open CheckedMemory
open Window (Within)

set_option autoImplicit false

variable {frame : List UInt8} {Header : Type}

/-- The checked parser goes through with the result of the plain one. -/
def Agrees (window : Window frame) (checked : Option (Windowed frame Header))
    (plain : Parsed Header) : Prop :=
  ∃ left : Window frame, checked = some ⟨plain.err, plain.header, left⟩ ∧
    left.contents = plain.span ∧ left.Within window

namespace Agrees

variable {window : Window frame} {plain : Parsed Header}

theorem stop (err : ParseError) (header : Header) :
    Agrees window (some ⟨err, header, window⟩) ⟨err, header, window.contents⟩ :=
  ⟨window, rfl, rfl, .refl window⟩

theorem guard {c : Prop} [Decidable c] {err : ParseError} {header : Header}
    {checked : Option (Windowed frame Header)} (passes : ¬ c → Agrees window checked plain) :
    Agrees window (if c then some ⟨err, header, window⟩ else checked)
      (if c then ⟨err, header, window.contents⟩ else plain) := by
  by_cases refused : c
  · rw [if_pos refused, if_pos refused]
    exact stop err header
  · rw [if_neg refused, if_neg refused]
    exact passes refused

theorem copied {offset count : Nat} {next : List UInt8 → Option (Windowed frame Header)}
    (fits : offset + count ≤ window.size)
    (agrees : Agrees window (next (slice window.contents offset count)) plain) :
    Agrees window (window.copy offset count >>= next) plain := by
  rw [copy_slice window fits, Option.bind_eq_bind, Option.bind_some]
  exact agrees

theorem subtracted {whole part : Nat} {next : Nat → Option (Windowed frame Header)}
    (fits : part ≤ whole) (agrees : Agrees window (next (whole - part)) plain) :
    Agrees window (difference whole part >>= next) plain := by
  rw [difference_eq fits, Option.bind_eq_bind, Option.bind_some]
  exact agrees

theorem checksummed {made : Bool} {len : Nat} {sum : UInt64}
    {next : Bool → Option (Windowed frame Header)} (fits : made = true → len ≤ window.size)
    (agrees : Agrees window
      (next (made && !PcapAnalyzer.verifyChecksum (window.contents.take len) sum)) plain) :
    Agrees window (checksumFails made window len sum >>= next) plain := by
  cases made with
  | false => exact agrees
  | true =>
      rw [checksumFails, if_pos rfl, verify_checksum_eq window (fits rfl), Option.map_some,
        Option.bind_eq_bind, Option.bind_some]
      exact agrees

theorem rest {offset : Nat} (header : Header) (fits : offset ≤ window.size) :
    Agrees window (do some ⟨.none, header, ← window.rest offset⟩)
      ⟨.none, header, window.contents.drop offset⟩ := by
  obtain ⟨left, found, contents, start, size⟩ := window.rest_eq fits
  refine ⟨left, ?_, contents, ?_⟩
  · rw [found, Option.bind_eq_bind, Option.bind_some]
  · constructor
    · omega
    · omega

theorem part {offset count : Nat} (header : Header) (fits : offset + count ≤ window.size) :
    Agrees window (do some ⟨.none, header, ← window.part offset count⟩)
      ⟨.none, header, slice window.contents offset count⟩ := by
  obtain ⟨left, found, contents, start, size⟩ := window.part_eq fits
  refine ⟨left, ?_, contents, ?_⟩
  · rw [found, Option.bind_eq_bind, Option.bind_some]
  · constructor
    · omega
    · omega

/-- The span is narrowed before the parser goes on. -/
theorem narrowed {offset : Nat} {next : Window frame → Option (Windowed frame Header)}
    {plain : List UInt8 → Parsed Header} (fits : offset ≤ window.size)
    (agrees : ∀ left : Window frame, Agrees left (next left) (plain left.contents)) :
    Agrees window (window.rest offset >>= next) (plain (window.contents.drop offset)) := by
  obtain ⟨left, found, contents, start, size⟩ := window.rest_eq fits
  obtain ⟨last, passed, shown, within⟩ := agrees left
  rw [contents] at passed shown
  refine ⟨last, ?_, shown, within.trans ⟨by omega, by omega⟩⟩
  rw [found, Option.bind_eq_bind, Option.bind_some]
  exact passed

end Agrees

section Front

variable (span : List UInt8)

/-- What is loaded from a copy of the front of a span is loaded from the span. -/
theorem byte_at_front {count i : Nat} (inside : i < count) :
    byteAt (slice span 0 count) i = byteAt span i := by
  rw [byte_at_slice span inside, Nat.zero_add]

theorem load16_front {count i : Nat} (inside : i + 2 ≤ count) :
    load16 (slice span 0 count) i = load16 span i := by
  unfold load16
  rw [byte_at_front span (by omega), byte_at_front span (by omega)]

theorem load32_front {count i : Nat} (inside : i + 4 ≤ count) :
    PcapAnalyzer.load32 (slice span 0 count) i = PcapAnalyzer.load32 span i := by
  rw [load32_slice span inside, Nat.zero_add]

theorem slice_front {size offset count : Nat} (inside : offset + count ≤ size) :
    slice (slice span 0 size) offset count = slice span offset count := by
  rw [slice, slice, slice, List.drop_zero, List.drop_take, List.take_take,
    Nat.min_eq_left (by omega)]

end Front

section Link

variable (window : Window frame)

theorem ethernet_agrees (header : PcapAnalyzer.Ethernet.Header) :
    Agrees window (Ethernet.parse window header .big)
      (PcapAnalyzer.Ethernet.parse window.contents header .big) := by
  unfold Ethernet.parse PcapAnalyzer.Ethernet.parse
  rw [window.contents_length]
  refine .guard fun long => ?_
  simp only [PcapAnalyzer.Ethernet.headerLen] at long ⊢
  refine .copied (by omega) ?_
  have front : PcapAnalyzer.Ethernet.Header.ofWire (slice window.contents 0 14) =
      PcapAnalyzer.Ethernet.Header.ofWire window.contents := by
    simp (disch := omega) only [PcapAnalyzer.Ethernet.Header.ofWire, load16_front, slice_front]
  rw [front]
  exact .rest _ (by omega)

theorem vlan_agrees (header : PcapAnalyzer.Vlan.Header) :
    Agrees window (Vlan.parse window header .big)
      (PcapAnalyzer.Vlan.parse window.contents header .big) := by
  unfold Vlan.parse PcapAnalyzer.Vlan.parse
  rw [window.contents_length]
  refine .guard fun long => ?_
  simp only [PcapAnalyzer.Vlan.headerLen] at long ⊢
  refine .copied (by omega) ?_
  have front : PcapAnalyzer.Vlan.Header.ofWire (slice window.contents 0 4) =
      PcapAnalyzer.Vlan.Header.ofWire window.contents := by
    simp (disch := omega) only [PcapAnalyzer.Vlan.Header.ofWire, load16_front]
  rw [front]
  exact .guard fun _ => .rest _ (by omega)

theorem arp_agrees (header : PcapAnalyzer.Arp.Header) :
    Agrees window (Arp.parse window header .big)
      (PcapAnalyzer.Arp.parse window.contents header .big) := by
  unfold Arp.parse PcapAnalyzer.Arp.parse
  rw [window.contents_length]
  refine .guard fun long => ?_
  simp only [PcapAnalyzer.Arp.minHeaderLen] at long ⊢
  refine .copied (by omega) ?_
  have front : PcapAnalyzer.Arp.Header.ofWire (slice window.contents 0 8) header =
      PcapAnalyzer.Arp.Header.ofWire window.contents header := by
    simp (disch := omega) only [PcapAnalyzer.Arp.Header.ofWire, load16_front, byte_at_front]
  rw [front]
  refine .guard fun _ => .guard fun longer => ?_
  refine .copied (by omega) (.copied (by omega) (.copied (by omega) (.copied (by omega) ?_)))
  exact .rest _ (by omega)

end Link

section Network

variable (window : Window frame)

theorem v4_agrees (header : Ip.V4.Header) (verify : Bool) :
    Agrees window (V4.parse window header .big verify)
      (Ip.V4.parse window.contents header .big verify) := by
  unfold V4.parse Ip.V4.parse
  rw [window.contents_length]
  refine .guard fun long => ?_
  simp only [Ip.V4.minHeaderLen] at long ⊢
  refine .copied (by omega) ?_
  have front : Ip.V4.Header.ofWire (slice window.contents 0 20) =
      Ip.V4.Header.ofWire window.contents := by
    simp (disch := omega) only [Ip.V4.Header.ofWire, load32_front, load16_front, byte_at_front]
  rw [front]
  refine .guard fun _ => .guard fun longer => .guard fun _ => ?_
  refine .checksummed (fun _ => by omega) (.guard fun _ => .guard fun covers => .guard fun fits => ?_)
  exact .subtracted (by omega) (.part _ (by omega))

theorem v6_agrees (header : Ip.V6.Header) :
    Agrees window (V6.parse window header .big)
      (Ip.V6.parse window.contents header .big) := by
  unfold V6.parse Ip.V6.parse
  rw [window.contents_length]
  refine .guard fun long => ?_
  simp only [Ip.V6.headerLen] at long ⊢
  refine .copied (by omega) ?_
  have front : Ip.V6.Header.ofWire (slice window.contents 0 40) =
      Ip.V6.Header.ofWire window.contents := by
    simp (disch := omega) only [Ip.V6.Header.ofWire, load32_front, load16_front, byte_at_front,
      slice_front]
  rw [front]
  refine .guard fun _ => ?_
  refine @Agrees.narrowed frame _ window 40 _ (fun span =>
    if _ > span.length then ⟨.unexpectedEof, _, span⟩ else ⟨.none, _, span.take _⟩)
    (by omega) fun left => ?_
  simp only [left.contents_length]
  exact .guard fun fits => .part _ (by omega)

/-- Where the payload of an accepted packet lies. -/
theorem v4_leaves (header : Ip.V4.Header) (verify : Bool) :
    Leaves (fun windowed => windowed.err = .none →
      windowed.window.start = window.start + windowed.header.headerLength ∧
        windowed.window.start + windowed.window.size =
          window.start + windowed.header.totalLength.toNat)
      (V4.parse window header .big verify) := by
  unfold V4.parse
  refine .branch (fun _ => .value nofun) fun _ => .bind fun wire _ => ?_
  refine .branch (fun _ => .value nofun) fun _ => .branch (fun _ => .value nofun) fun _ => ?_
  refine .branch (fun _ => .value nofun) fun _ => .bind fun fails _ => ?_
  refine .branch (fun _ => .value nofun) fun _ => .branch (fun _ => .value nofun) fun covers => ?_
  refine .branch (fun _ => .value nofun) fun _ => .bind fun payloadLength subtracted => ?_
  refine .bind fun left found => .value fun _ => ?_
  obtain ⟨start, size⟩ := window.part_leaves _ _ left found
  rw [difference_eq (Nat.not_lt.mp covers), Option.some.injEq] at subtracted
  refine ⟨start, ?_⟩
  rw [start, size, ← subtracted, Nat.add_assoc, Nat.add_sub_cancel' (Nat.not_lt.mp covers)]

theorem v6_leaves (header : Ip.V6.Header) :
    Leaves (fun windowed => windowed.err = .none →
      windowed.window.start = window.start + Ip.V6.headerLen ∧
        windowed.window.start + windowed.window.size =
          window.start + Ip.V6.headerLen + windowed.header.payloadLength.toNat)
      (V6.parse window header .big) := by
  unfold V6.parse
  refine .branch (fun _ => .value nofun) fun _ => .bind fun wire _ => ?_
  refine .branch (fun _ => .value nofun) fun _ => .bind fun behind dropped => ?_
  refine .branch (fun _ => .value nofun) fun _ => .bind fun left found => .value fun _ => ?_
  obtain ⟨start, size⟩ := behind.part_leaves _ _ left found
  have behindHeader := window.rest_leaves _ behind dropped
  simp only [start, size, behindHeader, Nat.add_zero, and_self]

end Network

section Extension

variable {window : Window frame} {plain : Except ParseError (Header × List UInt8)}

/-- The result of the extension-header parser, and what the window it leaves shows. -/
inductive Shows (window : Window frame) : Except ParseError (Header × Window frame) →
    Except ParseError (Header × List UInt8) → Prop where
  | refused (err : ParseError) : Shows window (.error err) (.error err)
  | taken (header : Header) (left : Window frame) (within : left.Within window) :
      Shows window (.ok (header, left)) (.ok (header, left.contents))

def ExtAgrees (window : Window frame)
    (checked : Option (Except ParseError (Header × Window frame)))
    (plain : Except ParseError (Header × List UInt8)) : Prop :=
  ∃ result, checked = some result ∧ Shows window result plain

namespace ExtAgrees

theorem guard {c : Prop} [Decidable c] {err : ParseError}
    {checked : Option (Except ParseError (Header × Window frame))}
    (passes : ¬ c → ExtAgrees window checked plain) :
    ExtAgrees window (if c then some (.error err) else checked)
      (if c then .error err else plain) := by
  by_cases refused : c
  · rw [if_pos refused, if_pos refused]
    exact ⟨_, rfl, .refused err⟩
  · rw [if_neg refused, if_neg refused]
    exact passes refused

theorem branch {c : Prop} [Decidable c]
    {first second : Option (Except ParseError (Header × Window frame))}
    {plain₂ : Except ParseError (Header × List UInt8)} (left : c → ExtAgrees window first plain)
    (right : ¬ c → ExtAgrees window second plain₂) :
    ExtAgrees window (if c then first else second) (if c then plain else plain₂) := by
  by_cases holds : c
  · rw [if_pos holds, if_pos holds]
    exact left holds
  · rw [if_neg holds, if_neg holds]
    exact right holds

theorem copied {offset count : Nat}
    {next : List UInt8 → Option (Except ParseError (Header × Window frame))}
    (fits : offset + count ≤ window.size)
    (agrees : ExtAgrees window (next (slice window.contents offset count)) plain) :
    ExtAgrees window (window.copy offset count >>= next) plain := by
  rw [copy_slice window fits, Option.bind_eq_bind, Option.bind_some]
  exact agrees

theorem rest {offset : Nat} (header : Header) (fits : offset ≤ window.size) :
    ExtAgrees window (do some (.ok (header, ← window.rest offset)))
      (.ok (header, window.contents.drop offset)) := by
  obtain ⟨left, found, contents, start, size⟩ := window.rest_eq fits
  refine ⟨.ok (header, left), ?_, ?_⟩
  · rw [found, Option.bind_eq_bind, Option.bind_some]
  · rw [← contents]
    exact .taken header left ⟨by omega, by omega⟩

end ExtAgrees

/-- The final address lies inside of a routing header that holds whole addresses. -/
theorem final_dst_offset_eq (routingType hdrExtLen : UInt8)
    (whole : ¬ (hdrExtLen < 2 ∨ hdrExtLen % 2 ≠ 0)) :
    Ext.finalDstOffset routingType hdrExtLen =
        some (Ip.V6.Ext.finalDstOffset routingType hdrExtLen) ∧
      Ip.V6.Ext.finalDstOffset routingType hdrExtLen + 16 ≤
        Ip.V6.Ext.wireLength Ip.protocolIpv6Route hdrExtLen := by
  have atLeast : 2 ≤ hdrExtLen.toNat := by
    have large := not_or.mp whole
    rw [UInt8.not_lt, UInt8.le_iff_toNat_le] at large
    exact large.1
  have length : Ip.V6.Ext.wireLength Ip.protocolIpv6Route hdrExtLen =
    (hdrExtLen.toNat + 1) * 8 := rfl
  unfold Ext.finalDstOffset Ip.V6.Ext.finalDstOffset
  rw [length]
  by_cases reversed : routingType ≠ Ip.V6.Ext.routingTypeSrh
  · rw [if_pos reversed, if_pos reversed, difference_eq (by omega)]
    refine ⟨rfl, ?_⟩
    simp only [Ip.V6.Ext.routingAddressOffset]
    omega
  · rw [if_neg reversed, if_neg reversed]
    refine ⟨rfl, ?_⟩
    simp only [Ip.V6.Ext.routingAddressOffset]
    omega

theorem ext_agrees (window : Window frame) (type : UInt8) :
    ExtAgrees window (Ext.parse window type .big)
      (Ip.V6.Ext.parse window.contents type .big) := by
  unfold Ext.parse Ip.V6.Ext.parse
  rw [window.contents_length]
  refine .guard fun long => ?_
  simp only [Ip.V6.Ext.minHeaderLen] at long ⊢
  refine .copied (by omega) ?_
  simp (disch := omega) only [byte_at_front, load16_front, load32_front]
  refine .guard fun _ => .guard fun fits => ?_
  have fits := Nat.not_lt.mp fits
  refine .branch (fun route => ?_) fun _ => ?_
  · refine .branch (fun _ => .rest _ fits) fun _ => .guard fun whole => ?_
    subst route
    obtain ⟨offset, inside⟩ := final_dst_offset_eq (byteAt window.contents 2)
      (byteAt window.contents 1) whole
    rw [offset, Option.bind_eq_bind, Option.bind_some]
    exact .copied (inside.trans fits) (.rest _ fits)
  · exact .branch (fun _ => .rest _ fits) fun _ =>
      .branch (fun _ => .rest _ fits) fun _ => .rest _ fits

end Extension

section Transport

variable (window : Window frame)

theorem tcp_agrees (header : PcapAnalyzer.Tcp.Header) (length : Nat) (sum : UInt64)
    (verify : Bool) :
    Agrees window (Tcp.parse window header length sum .big verify)
      (PcapAnalyzer.Tcp.parse window.contents header length sum .big verify) := by
  unfold Tcp.parse PcapAnalyzer.Tcp.parse
  rw [window.contents_length]
  refine .guard fun long => ?_
  simp only [PcapAnalyzer.Tcp.minHeaderLen] at long ⊢
  refine .copied (by omega) ?_
  have front : PcapAnalyzer.Tcp.Header.ofWire (slice window.contents 0 20) =
      PcapAnalyzer.Tcp.Header.ofWire window.contents := by
    simp (disch := omega) only [PcapAnalyzer.Tcp.Header.ofWire, load32_front, load16_front,
      byte_at_front]
  rw [front]
  refine .guard fun formed => .guard fun longer => ?_
  refine .checksummed (fun _ => by omega) (.guard fun _ => ?_)
  exact .rest _ (Nat.not_lt.mp longer)

theorem udp_agrees (header : PcapAnalyzer.Udp.Header) (sum : UInt64)
    (acceptZeroChecksum verify : Bool) :
    Agrees window (Udp.parse window header sum .big acceptZeroChecksum verify)
      (PcapAnalyzer.Udp.parse window.contents header sum .big acceptZeroChecksum verify) := by
  unfold Udp.parse PcapAnalyzer.Udp.parse
  rw [window.contents_length]
  refine .guard fun long => ?_
  simp only [PcapAnalyzer.Udp.headerLen] at long ⊢
  refine .copied (by omega) ?_
  have front : PcapAnalyzer.Udp.Header.ofWire (slice window.contents 0 8) =
      PcapAnalyzer.Udp.Header.ofWire window.contents := by
    simp (disch := omega) only [PcapAnalyzer.Udp.Header.ofWire, load16_front]
  rw [front]
  refine .guard fun formed => ?_
  refine .checksummed (fun _ => by omega) (.guard fun _ => ?_)
  exact .subtracted (by omega) (.part _ (by omega))

theorem icmp_agrees (header : PcapAnalyzer.Icmp.Header) (verify : Bool) :
    Agrees window (Icmp.parse window header .big verify)
      (PcapAnalyzer.Icmp.parse window.contents header .big verify) := by
  unfold Icmp.parse PcapAnalyzer.Icmp.parse
  rw [window.contents_length]
  refine .guard fun long => ?_
  simp only [PcapAnalyzer.Icmp.headerLen] at long ⊢
  refine .copied (by omega) ?_
  have front : PcapAnalyzer.Icmp.Header.ofWire (slice window.contents 0 8) =
      PcapAnalyzer.Icmp.Header.ofWire window.contents := by
    simp (disch := omega) only [PcapAnalyzer.Icmp.Header.ofWire, load32_front, load16_front,
      byte_at_front]
  have whole : window.contents.take window.size = window.contents :=
    List.take_of_length_le window.contents_length.le
  rw [front]
  refine .guard fun _ => .checksummed (fun _ => le_rfl) ?_
  rw [whole]
  exact .guard fun _ => .rest _ (by omega)

theorem icmpv6_agrees (header : PcapAnalyzer.Icmpv6.Header) (ipHeader : Ip.V6.Header)
    (verify : Bool) :
    Agrees window (Icmpv6.parse window header ipHeader .big verify)
      (PcapAnalyzer.Icmpv6.parse window.contents header ipHeader .big verify) := by
  unfold Icmpv6.parse PcapAnalyzer.Icmpv6.parse
  rw [window.contents_length]
  refine .guard fun long => ?_
  simp only [PcapAnalyzer.Icmpv6.headerLen] at long ⊢
  refine .copied (by omega) ?_
  have front : PcapAnalyzer.Icmpv6.Header.ofWire (slice window.contents 0 8) =
      PcapAnalyzer.Icmpv6.Header.ofWire window.contents := by
    simp (disch := omega) only [PcapAnalyzer.Icmpv6.Header.ofWire, load32_front, load16_front,
      byte_at_front]
  rw [front]
  refine .guard fun fits => .guard fun _ => .guard fun _ => ?_
  refine .checksummed (fun _ => by omega) (.guard fun _ => ?_)
  exact .rest _ (by omega)

end Transport

end PcapAnalyzer.Checked
