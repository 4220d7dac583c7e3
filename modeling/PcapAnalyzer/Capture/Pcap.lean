import PcapAnalyzer.Decode.Packet

/-!
# Capture files

The file header, the record header in front of every captured packet, and the
`Capture` record the reader fills in for one packet after another.
-/

namespace PcapAnalyzer.Pcap

set_option autoImplicit false

def fileHeaderLen : Nat := 24
def packetHeaderLen : Nat := 16

def pcapMagicUsecBe : UInt32 := 0xd4c3b2a1
def pcapMagicUsecLe : UInt32 := 0xa1b2c3d4
def pcapMagicNsecBe : UInt32 := 0x4d3cb2a1
def pcapMagicNsecLe : UInt32 := 0xa1b23c4d

def supportedMajorVersion : UInt16 := 2
def supportedMinorVersion : UInt16 := 4

structure FileHeader where
  magicNumber : UInt32 := 0
  majorVersion : UInt16 := 0
  minorVersion : UInt16 := 0
  reserved1 : UInt32 := 0
  reserved2 : UInt32 := 0
  snaplen : UInt32 := 0
  linktype : UInt32 := 0
  deriving DecidableEq, Repr

structure PacketHeader where
  tsSec : UInt32 := 0
  tsUsec : UInt32 := 0
  inclLen : UInt32 := 0
  origLen : UInt32 := 0
  deriving DecidableEq, Repr

/-- The byte order a magic number announces, `none` for an unknown one. -/
def magicEndian (magic : UInt32) : Option Endian :=
  if magic = pcapMagicUsecBe then some .big
  else if magic = pcapMagicNsecBe then some .big
  else if magic = pcapMagicUsecLe then some .little
  else if magic = pcapMagicNsecLe then some .little
  else none

def loadFileHeader (span : List UInt8) : FileHeader :=
  { magicNumber := load32 span 0
    majorVersion := load16 span 4
    minorVersion := load16 span 6
    reserved1 := load32 span 8
    reserved2 := load32 span 12
    snaplen := load32 span 16
    linktype := load32 span 20 }

def FileHeader.toHost (header : FileHeader) (endian : Endian) : FileHeader :=
  { header with
    majorVersion := toHost16 header.majorVersion endian
    minorVersion := toHost16 header.minorVersion endian
    snaplen := toHost32 header.snaplen endian
    linktype := toHost32 header.linktype endian }

/-- `endian` is an in-out parameter too: it is set as soon as the magic number is known. -/
def parseFileHeader (span : List UInt8) (header : FileHeader) (endian : Endian) :
    Parsed FileHeader × Endian :=
  if span.length < fileHeaderLen then (⟨.unexpectedEof, header, span⟩, endian) else
  let loaded := loadFileHeader span
  match magicEndian loaded.magicNumber with
  | none => (⟨.invalidFieldValue, loaded, span⟩, endian)
  | some endian =>
      let header := loaded.toHost endian
      if header.majorVersion ≠ supportedMajorVersion ∨
          header.minorVersion ≠ supportedMinorVersion then
        (⟨.unsupportedVersion, header, span⟩, endian) else
      if header.snaplen = 0 then (⟨.invalidFieldValue, header, span⟩, endian) else
      if header.linktype &&& (0x0FFFFFFF : UInt32) ≠ Packet.linktypeEthernet then
        (⟨.unsupportedLinktype, header, span⟩, endian) else
      (⟨.none, header, span.drop fileHeaderLen⟩, endian)

def loadPacketHeader (span : List UInt8) (endian : Endian) : PacketHeader :=
  { tsSec := toHost32 (load32 span 0) endian
    tsUsec := toHost32 (load32 span 4) endian
    inclLen := toHost32 (load32 span 8) endian
    origLen := toHost32 (load32 span 12) endian }

def parsePacketHeader (span : List UInt8) (header : PacketHeader) (endian : Endian) :
    Parsed PacketHeader :=
  if span.length < packetHeaderLen then ⟨.unexpectedEof, header, span⟩ else
  let header := loadPacketHeader span endian
  if header.inclLen = 0 ∨ header.origLen = 0 then ⟨.invalidFieldValue, header, span⟩ else
  if header.inclLen > header.origLen then ⟨.malformedHeader, header, span⟩ else
  ⟨.none, header, span.drop packetHeaderLen⟩

structure Capture where
  tsUs : UInt64 := 0
  packetHeader : PacketHeader := {}
  pkt : Packet := {}

end PcapAnalyzer.Pcap
