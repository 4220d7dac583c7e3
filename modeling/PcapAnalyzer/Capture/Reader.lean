import PcapAnalyzer.Decode.Decoder

/-!
# The capture reader

The reader takes one record after another off the capture data. A record that does
not decode is skipped and one that the filter refuses is passed over; both leave
their packet in the reused `Capture`.
-/

namespace PcapAnalyzer.Pcap

open MeasuredLoop (Turn)

set_option autoImplicit false

structure Reader where
  span : List UInt8
  capture : Capture := {}
  fileHeader : FileHeader := {}
  decoder : Decoder
  isNsec : Bool := false
  endian : Endian := .little
  headerErr : ParseError := .none
  skipped : Nat := 0
  lastSkipErr : ParseError := .none

namespace Reader

def readFileHeader (reader : Reader) : Reader :=
  if reader.span.length < fileHeaderLen then { reader with headerErr := .unexpectedEofF } else
  let (parsed, endian) := parseFileHeader reader.span reader.fileHeader reader.endian
  let reader := { reader with
    span := parsed.span
    fileHeader := parsed.header
    endian := endian
    headerErr := parsed.err }
  if parsed.err ≠ .none then reader else
  { reader with
    isNsec := parsed.header.magicNumber = pcapMagicNsecLe ||
      parsed.header.magicNumber = pcapMagicNsecBe }

/-- The constructor over the bytes of a capture. -/
def new (data : List UInt8) (config : Config) : Reader :=
  readFileHeader { span := data, decoder := Decoder.new config }

def timestampUs (isNsec : Bool) (header : PacketHeader) : UInt64 :=
  if isNsec then header.tsSec.toUInt64 * 1000000 + (header.tsUsec / 1000).toUInt64
  else header.tsSec.toUInt64 * 1000000 + header.tsUsec.toUInt64

/-- The record header in front and the bytes of its packet; on success the span is
already behind them. -/
def nextRecord (reader : Reader) : ParseError × Reader × List UInt8 :=
  if reader.span.length < packetHeaderLen then (.unexpectedEofF, reader, []) else
  let parsed := parsePacketHeader reader.span reader.capture.packetHeader reader.endian
  let reader := { reader with
    span := parsed.span
    capture := { reader.capture with packetHeader := parsed.header } }
  if parsed.err ≠ .none then (parsed.err, reader, []) else
  let inclLen := parsed.header.inclLen.toNat
  if reader.span.length < inclLen then (.unexpectedEofF, reader, []) else
  (.none, { reader with
    span := reader.span.drop inclLen
    capture := { reader.capture with
      pkt := reader.capture.pkt.setDatatypeFromLinktype reader.fileHeader.linktype
      tsUs := timestampUs reader.isNsec parsed.header } }, reader.span.take inclLen)

/-- One pass of the loop of `readPacket`, which also yields what `decode` returned. -/
def recordTurn (reader : Reader) : Turn Reader (ParseError × Reader) :=
  match reader.nextRecord with
  | (.none, reader, packetSpan) =>
      let (err, capture, decoder) := reader.decoder.decode packetSpan reader.capture
      let reader := { reader with capture := capture, decoder := decoder }
      if err = .filtered then .again reader
      else if err ≠ .none then
        .again { reader with skipped := reader.skipped + 1, lastSkipErr := err }
      else .leave (.none, reader)
  | (err, reader, _) => .leave (err, reader)

/-- Every record has a header, so the fuel is never used up. -/
def readPacket (reader : Reader) : ParseError × Reader :=
  if reader.headerErr ≠ .none then (reader.headerErr, reader) else
  MeasuredLoop.run recordTurn (fun reader => (.unexpectedEofF, reader))
    (reader.span.length + 1) reader

def packetTurn (reader : Reader) : Turn Reader Reader :=
  match reader.readPacket with
  | (.none, reader) => .again reader
  | (_, reader) => .leave reader

def readAllPackets (reader : Reader) : Reader :=
  MeasuredLoop.run packetTurn id (reader.span.length + 1) reader

end Reader

end PcapAnalyzer.Pcap
