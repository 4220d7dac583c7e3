import PcapAnalyzer.Capture.NoTrace

/-!
# Writing capture files

The file header and the records of a capture in either byte order and time resolution,
and what the reader's parsers find in them.
-/

namespace PcapAnalyzer

set_option autoImplicit false

/-- A 16-bit value as a host of that byte order stores it. -/
def store16 (x : UInt16) : Endian → List UInt8
  | .big => wire16 x
  | .little => (wire16 x).reverse

def store32 (x : UInt32) : Endian → List UInt8
  | .big => wire32 x
  | .little => (wire32 x).reverse

@[simp] theorem store16_length (x : UInt16) (endian : Endian) :
    (store16 x endian).length = 2 := by cases endian <;> rfl

@[simp] theorem store32_length (x : UInt32) (endian : Endian) :
    (store32 x endian).length = 4 := by cases endian <;> rfl

theorem load16_shift (before span : List UInt8) :
    load16 (before ++ span) before.length = load16 span 0 := by
  simp only [load16]
  rw [byte_at_append_right _ _ _ le_rfl, byte_at_append_right _ _ _ (Nat.le_add_right _ _),
    Nat.sub_self, Nat.add_sub_cancel_left, Nat.zero_add]

theorem load32_shift (before span : List UInt8) :
    load32 (before ++ span) before.length = load32 span 0 := by
  simp only [load32]
  rw [byte_at_append_right _ _ _ le_rfl, byte_at_append_right _ _ _ (Nat.le_add_right _ _),
    byte_at_append_right _ _ _ (Nat.le_add_right _ _),
    byte_at_append_right _ _ _ (Nat.le_add_right _ _),
    Nat.sub_self, Nat.add_sub_cancel_left, Nat.add_sub_cancel_left, Nat.add_sub_cancel_left,
    Nat.zero_add, Nat.zero_add, Nat.zero_add]

/-- A stored value is read back at its place, whatever stands around it. -/
theorem to_host16_store (before rest : List UInt8) (x : UInt16) (endian : Endian) (i : Nat)
    (place : before.length = i) :
    toHost16 (load16 (before ++ (store16 x endian ++ rest)) i) endian = x := by
  rw [← place, load16_shift]
  cases endian with
  | big => exact to_host16_wire x rest
  | little =>
      apply UInt16.toNat_inj.mp
      have bound := x.toNat_lt
      rw [toHost16, if_neg (by decide), load16_to_nat]
      simp only [store16, wire16, List.reverse_cons, List.reverse_nil, List.nil_append,
        List.cons_append, byte_at_cons_zero, byte_at_cons_succ, UInt8.toNat_ofNat']
      omega

theorem to_host32_store (before rest : List UInt8) (x : UInt32) (endian : Endian) (i : Nat)
    (place : before.length = i) :
    toHost32 (load32 (before ++ (store32 x endian ++ rest)) i) endian = x := by
  rw [← place, load32_shift]
  cases endian with
  | big => exact to_host32_wire x rest
  | little =>
      apply UInt32.toNat_inj.mp
      have bound := x.toNat_lt
      rw [toHost32, if_neg (by decide), load32_to_nat]
      simp only [store32, wire32, List.reverse_cons, List.reverse_nil, List.nil_append,
        List.cons_append, byte_at_cons_zero, byte_at_cons_succ, UInt8.toNat_ofNat']
      omega

namespace Pcap

/-- One of the four magic numbers, and the header fields the reader does not fix. -/
structure FileFormat where
  endian : Endian
  nanoseconds : Bool
  reserved1 : UInt32 := 0
  reserved2 : UInt32 := 0
  snaplen : UInt32
  snaplen_nonzero : snaplen ≠ 0

/-- A record to be written: a frame that is not empty and not longer than it was on the
wire. `tsSub` counts microseconds or nanoseconds. -/
structure Entry where
  tsSec : UInt32
  tsSub : UInt32
  origLen : UInt32
  frame : List UInt8
  nonempty : 1 ≤ frame.length
  captured : frame.length ≤ origLen.toNat

namespace FileFormat

/-- The magic number as its writer knows it: the same one in both byte orders. -/
def magicOf (nanoseconds : Bool) : UInt32 :=
  if nanoseconds then pcapMagicNsecLe else pcapMagicUsecLe

/-- The magic number as a little-endian load sees it. -/
def loadedMagic : Endian → Bool → UInt32
  | .big, false => pcapMagicUsecBe
  | .big, true => pcapMagicNsecBe
  | .little, false => pcapMagicUsecLe
  | .little, true => pcapMagicNsecLe

def magic (format : FileFormat) : UInt32 := magicOf format.nanoseconds

def encodeHeader (format : FileFormat) : List UInt8 :=
  store32 format.magic format.endian ++
    (store16 supportedMajorVersion format.endian ++
      (store16 supportedMinorVersion format.endian ++
        (store32 format.reserved1 format.endian ++
          (store32 format.reserved2 format.endian ++
            (store32 format.snaplen format.endian ++
              store32 Packet.linktypeEthernet format.endian)))))

def headerOf (entry : Entry) : PacketHeader :=
  { tsSec := entry.tsSec
    tsUsec := entry.tsSub
    inclLen := UInt32.ofNat entry.frame.length
    origLen := entry.origLen }

def encodePacketHeader (format : FileFormat) (header : PacketHeader) : List UInt8 :=
  store32 header.tsSec format.endian ++
    (store32 header.tsUsec format.endian ++
      (store32 header.inclLen format.endian ++ store32 header.origLen format.endian))

def encodeEntry (format : FileFormat) (entry : Entry) : List UInt8 :=
  format.encodePacketHeader (headerOf entry) ++ entry.frame

def encodeEntries (format : FileFormat) (entries : List Entry) : List UInt8 :=
  (entries.map format.encodeEntry).flatten

def encodeFile (format : FileFormat) (entries : List Entry) : List UInt8 :=
  format.encodeHeader ++ format.encodeEntries entries

/-- The time of a record in microseconds. -/
def tsUs (format : FileFormat) (entry : Entry) : Nat :=
  entry.tsSec.toNat * 1000000 +
    (if format.nanoseconds then entry.tsSub.toNat / 1000 else entry.tsSub.toNat)

/-- The frames of a capture with their times. -/
def frames (format : FileFormat) (entries : List Entry) : List (List UInt8 × Nat) :=
  entries.map fun entry => (entry.frame, format.tsUs entry)

/-- The record the reader finds for an entry. -/
def recordOf (format : FileFormat) (entry : Entry) : Record :=
  { raw := format.encodeEntry entry
    header := headerOf entry
    packet := entry.frame }

@[simp] theorem encode_header_length (format : FileFormat) :
    format.encodeHeader.length = fileHeaderLen := by
  simp [encodeHeader, fileHeaderLen]

@[simp] theorem encode_packet_header_length (format : FileFormat) (header : PacketHeader) :
    (format.encodePacketHeader header).length = packetHeaderLen := by
  simp [encodePacketHeader, packetHeaderLen]

theorem load_encoded_packet_header (format : FileFormat) (header : PacketHeader)
    (rest : List UInt8) :
    loadPacketHeader (format.encodePacketHeader header ++ rest) format.endian = header := by
  rcases header with ⟨tsSec, tsUsec, inclLen, origLen⟩
  have first := fun after => to_host32_store [] after tsSec format.endian 0 rfl
  have second := fun after => to_host32_store (store32 tsSec format.endian) after tsUsec
    format.endian 4 (by simp)
  have third := fun after => to_host32_store
    (store32 tsSec format.endian ++ store32 tsUsec format.endian) after inclLen
    format.endian 8 (by simp)
  have fourth := fun after => to_host32_store
    (store32 tsSec format.endian ++ (store32 tsUsec format.endian ++
      store32 inclLen format.endian)) after origLen format.endian 12 (by simp)
  simp only [List.append_assoc, List.nil_append] at first second third fourth
  simp only [loadPacketHeader, encodePacketHeader, List.append_assoc, first, second, third, fourth]

theorem load_magic_of (endian : Endian) (nanoseconds : Bool) :
    load32 (store32 (magicOf nanoseconds) endian) 0 = loadedMagic endian nanoseconds ∧
      magicEndian (loadedMagic endian nanoseconds) = some endian ∧
      ((loadedMagic endian nanoseconds = pcapMagicNsecLe ||
        loadedMagic endian nanoseconds = pcapMagicNsecBe) : Bool) = nanoseconds := by
  cases endian <;> cases nanoseconds <;> decide

theorem load_encoded_magic (format : FileFormat) (rest : List UInt8) :
    load32 (store32 format.magic format.endian ++ rest) 0 =
      loadedMagic format.endian format.nanoseconds := by
  rw [← (load_magic_of format.endian format.nanoseconds).1]
  exact load32_append_left _ _ _ (by simp)

theorem load_encoded_header (format : FileFormat) (rest : List UInt8) :
    let loaded := loadFileHeader (format.encodeHeader ++ rest)
    loaded.magicNumber = loadedMagic format.endian format.nanoseconds ∧
      toHost16 loaded.majorVersion format.endian = supportedMajorVersion ∧
      toHost16 loaded.minorVersion format.endian = supportedMinorVersion ∧
      toHost32 loaded.snaplen format.endian = format.snaplen ∧
      toHost32 loaded.linktype format.endian = Packet.linktypeEthernet := by
  have magic := load_encoded_magic format
  have major := fun after => to_host16_store (store32 format.magic format.endian) after
    supportedMajorVersion format.endian 4 (by simp)
  have minor := fun after => to_host16_store
    (store32 format.magic format.endian ++ store16 supportedMajorVersion format.endian) after
    supportedMinorVersion format.endian 6 (by simp)
  have snaplen := fun after => to_host32_store
    (store32 format.magic format.endian ++ (store16 supportedMajorVersion format.endian ++
      (store16 supportedMinorVersion format.endian ++ (store32 format.reserved1 format.endian ++
        store32 format.reserved2 format.endian)))) after format.snaplen format.endian 16 (by simp)
  have linktype := fun after => to_host32_store
    (store32 format.magic format.endian ++ (store16 supportedMajorVersion format.endian ++
      (store16 supportedMinorVersion format.endian ++ (store32 format.reserved1 format.endian ++
        (store32 format.reserved2 format.endian ++ store32 format.snaplen format.endian))))) after
    Packet.linktypeEthernet format.endian 20 (by simp)
  simp only [List.append_assoc] at major minor snaplen linktype
  simp only [loadFileHeader, encodeHeader, List.append_assoc, magic, major, minor, snaplen,
    linktype, and_self]

theorem parse_encoded_file_header (format : FileFormat) (rest : List UInt8) (header : FileHeader)
    (endian : Endian) :
    let parsed := parseFileHeader (format.encodeHeader ++ rest) header endian
    parsed.1.err = .none ∧ parsed.1.span = rest ∧ parsed.2 = format.endian ∧
      parsed.1.header.linktype = Packet.linktypeEthernet ∧
      (parsed.1.header.magicNumber = pcapMagicNsecLe ||
        parsed.1.header.magicNumber = pcapMagicNsecBe) = format.nanoseconds := by
  have loaded := load_encoded_header format rest
  have known := (load_magic_of format.endian format.nanoseconds).2
  have long : ¬ (format.encodeHeader ++ rest).length < fileHeaderLen := by
    simp
  have dropped : (format.encodeHeader ++ rest).drop fileHeaderLen = rest :=
    List.drop_left' (encode_header_length format)
  have masked : ¬ Packet.linktypeEthernet &&& (0x0FFFFFFF : UInt32) ≠ Packet.linktypeEthernet := by
    decide
  simp only [parseFileHeader, long, if_false, loaded.1, known.1, FileHeader.toHost, loaded.2.1,
    loaded.2.2.1, loaded.2.2.2.1, loaded.2.2.2.2, ne_eq, not_true_eq_false, or_self,
    format.snaplen_nonzero, dropped]
  rw [if_neg masked]
  exact ⟨rfl, rfl, rfl, rfl, known.2⟩

end FileFormat

end Pcap

end PcapAnalyzer
