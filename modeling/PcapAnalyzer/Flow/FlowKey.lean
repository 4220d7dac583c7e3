import PcapAnalyzer.Decode.Packet

/-!
# Flow keys

The five-tuple of a flow. An address is always sixteen bytes, an IPv4 address
being padded with zeros, and a normalised key has its smaller endpoint first.
-/

namespace PcapAnalyzer

set_option autoImplicit false

/-- `uint8_t[16]`. -/
def Address : Type := { bytes : List UInt8 // bytes.length = 16 }

namespace Address

instance : DecidableEq Address :=
  inferInstanceAs (DecidableEq { bytes : List UInt8 // bytes.length = 16 })

def zero : Address := ⟨List.replicate 16 0, by simp⟩

/-- `memcpy(out, bytes, 16)`. -/
def copy (bytes : List UInt8) : Address :=
  ⟨(bytes ++ List.replicate 16 0).take 16, by simp⟩

/-- `for (i < 4) out[i] = (ip >> (24 - 8 * i)) & 0xFF`. -/
def copyV4 (ip : UInt32) (out : Address) : Address :=
  ⟨[((ip >>> 24) &&& (0xFF : UInt32)).toUInt8, ((ip >>> 16) &&& (0xFF : UInt32)).toUInt8,
    ((ip >>> 8) &&& (0xFF : UInt32)).toUInt8, (ip &&& (0xFF : UInt32)).toUInt8] ++
    out.val.drop 4, by simp [out.property]⟩

/-- `memcmp` over the sixteen bytes. -/
def memcmp (left right : Address) : Ordering := compare left.val right.val

def anyNonZero (ip : Address) : Bool := ip.val.any fun byte => byte ≠ 0

end Address

structure FlowKey where
  isIpv4 : Bool := false
  srcIp : Address := Address.zero
  dstIp : Address := Address.zero
  srcPort : UInt16 := 0
  dstPort : UInt16 := 0
  protocol : UInt8 := 0
  deriving DecidableEq

namespace FlowKey

/-- The packed struct in memory. -/
def bytes (key : FlowKey) : List UInt8 :=
  key.isIpv4.toUInt8 :: key.srcIp.val ++ key.dstIp.val ++
    [key.srcPort.toUInt8, (key.srcPort >>> 8).toUInt8,
      key.dstPort.toUInt8, (key.dstPort >>> 8).toUInt8, key.protocol]

/-- The endpoints are in the wrong order. -/
def reversed (key : FlowKey) : Bool :=
  key.srcIp.memcmp key.dstIp = .gt ||
    (key.srcIp.memcmp key.dstIp = .eq && key.srcPort > key.dstPort)

def swap (key : FlowKey) : FlowKey :=
  { key with
    srcIp := key.dstIp
    dstIp := key.srcIp
    srcPort := key.dstPort
    dstPort := key.srcPort }

/-- The returned flag tells whether the endpoints were exchanged. -/
def normalize (key : FlowKey) : Bool × FlowKey :=
  if key.reversed then (true, key.swap) else (false, key)

def isNonZero (key : FlowKey) : Bool :=
  key.protocol ≠ 0 || key.srcPort ≠ 0 || key.dstPort ≠ 0 ||
    key.srcIp.anyNonZero || key.dstIp.anyNonZero

/-- The key is a filter, in which a zero field matches everything. -/
def matchesPkt (key pkt : FlowKey) : Bool :=
  if key.protocol ≠ 0 ∧ key.protocol ≠ pkt.protocol then false else
  if key.srcPort ≠ 0 ∧ key.srcPort ≠ pkt.srcPort then false else
  if key.dstPort ≠ 0 ∧ key.dstPort ≠ pkt.dstPort then false else
  if key.srcIp.anyNonZero ∧ (key.isIpv4 ≠ pkt.isIpv4 ∨ key.srcIp ≠ pkt.srcIp) then false else
  if key.dstIp.anyNonZero ∧ (key.isIpv4 ≠ pkt.isIpv4 ∨ key.dstIp ≠ pkt.dstIp) then false else
  true

@[simp] theorem swap_swap (key : FlowKey) : key.swap.swap = key := rfl

/-- Exchanging endpoints that are in the wrong order puts them in the right one. -/
theorem swap_not_reversed (key : FlowKey) (reversed : key.reversed = true) :
    key.swap.reversed = false := by
  have mirrored : key.dstIp.memcmp key.srcIp = (key.srcIp.memcmp key.dstIp).swap :=
    Std.OrientedOrd.eq_swap
  simp only [FlowKey.reversed, swap, mirrored] at reversed ⊢
  cases order : key.srcIp.memcmp key.dstIp with
  | lt => simp [order] at reversed
  | gt => simp
  | eq =>
      simp only [order, reduceCtorEq, decide_false, Bool.false_or, decide_true,
        Bool.true_and, decide_eq_true_eq] at reversed
      have notGreater : ¬ key.dstPort > key.srcPort := UInt16.lt_asymm reversed
      simp [notGreater]

/-- Normalising once is enough. -/
theorem normalize_normalized (key : FlowKey) :
    key.normalize.2.normalize = (false, key.normalize.2) := by
  by_cases reversed : key.reversed = true
  · simp [normalize, reversed, swap_not_reversed key reversed]
  · simp [normalize, reversed]

end FlowKey

end PcapAnalyzer
