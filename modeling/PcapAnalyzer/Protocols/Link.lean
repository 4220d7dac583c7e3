import PcapAnalyzer.Util.Wire

/-!
# Link layer and ARP headers

`ethernet::parse`, `vlan::parse` and `arp::parse`. A fixed header is copied raw
(the `ofWire` functions) and its multi-byte fields are swapped afterwards, as the
source does.
-/

namespace PcapAnalyzer

set_option autoImplicit false

namespace Ethernet

def headerLen : Nat := 14

def ethertypeIpv4 : UInt16 := 0x0800
def ethertypeIpv6 : UInt16 := 0x86DD
def ethertypeArp : UInt16 := 0x0806
def ethertypeVlan : UInt16 := 0x8100
def ethertypeVlanQq : UInt16 := 0x88A8

structure Header where
  dstMac : List UInt8 := List.replicate 6 0
  srcMac : List UInt8 := List.replicate 6 0
  ethertype : UInt16 := 0
  deriving DecidableEq, Repr

def Header.ofWire (span : List UInt8) : Header where
  dstMac := slice span 0 6
  srcMac := slice span 6 6
  ethertype := load16 span 12

def parse (span : List UInt8) (header : Header) (endian : Endian) : Parsed Header :=
  if span.length < headerLen then ⟨.unexpectedEof, header, span⟩ else
  let header := Header.ofWire span
  let header := { header with ethertype := toHost16 header.ethertype endian }
  ⟨.none, header, span.drop headerLen⟩

end Ethernet

namespace Vlan

def headerLen : Nat := 4
def maxTags : Nat := 4
def vidReserved : UInt16 := 0x0FFF

structure Header where
  tci : UInt16 := 0
  ethertype : UInt16 := 0
  deriving DecidableEq, Repr

def Header.vid (header : Header) : UInt16 := header.tci &&& 0x0FFF

def Header.ofWire (span : List UInt8) : Header where
  tci := load16 span 0
  ethertype := load16 span 2

def parse (span : List UInt8) (header : Header) (endian : Endian) : Parsed Header :=
  if span.length < headerLen then ⟨.unexpectedEof, header, span⟩ else
  let header := Header.ofWire span
  let header := { header with
    tci := toHost16 header.tci endian
    ethertype := toHost16 header.ethertype endian }
  if header.vid = vidReserved then ⟨.invalidFieldValue, header, span⟩ else
  ⟨.none, header, span.drop headerLen⟩

end Vlan

namespace Arp

def minHeaderLen : Nat := 8

/-- The four address pointers of the source are the bytes they point at. -/
structure Header where
  htype : UInt16 := 0
  ptype : UInt16 := 0
  hlen : UInt8 := 0
  plen : UInt8 := 0
  oper : UInt16 := 0
  sha : List UInt8 := []
  spa : List UInt8 := []
  tha : List UInt8 := []
  tpa : List UInt8 := []
  deriving DecidableEq, Repr

/-- The `memcpy` fills the first eight bytes of the struct only. -/
def Header.ofWire (span : List UInt8) (header : Header) : Header :=
  { header with
    htype := load16 span 0
    ptype := load16 span 2
    hlen := byteAt span 4
    plen := byteAt span 5
    oper := load16 span 6 }

def parse (span : List UInt8) (header : Header) (endian : Endian) : Parsed Header :=
  if span.length < minHeaderLen then ⟨.unexpectedEof, header, span⟩ else
  let header := Header.ofWire span header
  let header := { header with
    htype := toHost16 header.htype endian
    ptype := toHost16 header.ptype endian
    oper := toHost16 header.oper endian }
  if header.hlen = 0 ∨ header.plen = 0 then ⟨.invalidFieldValue, header, span⟩ else
  let hlen := header.hlen.toNat
  let plen := header.plen.toNat
  let headerLen := minHeaderLen + 2 * hlen + 2 * plen
  if span.length < headerLen then ⟨.unexpectedEof, header, span⟩ else
  let header := { header with
    sha := slice span minHeaderLen hlen
    spa := slice span (minHeaderLen + hlen) plen
    tha := slice span (minHeaderLen + (hlen + plen)) hlen
    tpa := slice span (minHeaderLen + (2 * hlen + plen)) plen }
  ⟨.none, header, span.drop headerLen⟩

end Arp

end PcapAnalyzer
