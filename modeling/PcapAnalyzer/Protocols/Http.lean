import PcapAnalyzer.Library.MeasuredLoop
import PcapAnalyzer.Util.Text

/-!
# HTTP messages

Start line, fields, framing and the chunked body. A parser consumes bytes only when
it succeeds, so it yields either an error or the parsed value with the rest of the
span.
-/

namespace PcapAnalyzer.Http

open MeasuredLoop (Turn)

set_option autoImplicit false

def port : UInt16 := 80

inductive MessageType where
  | unknown
  | request
  | response
  deriving DecidableEq, Repr

structure Field where
  name : List UInt8 := []
  value : List UInt8 := []
  deriving DecidableEq, Repr

structure Header where
  type : MessageType := .unknown
  method : List UInt8 := []
  target : List UInt8 := []
  version : List UInt8 := []
  statusCode : UInt16 := 0
  reasonPhrase : List UInt8 := []
  fields : List Field := []
  hasContentLength : Bool := false
  contentLength : Nat := 0
  chunked : Bool := false
  deriving DecidableEq, Repr

namespace Header

def isRequest (header : Header) : Bool := header.type = .request

def isResponse (header : Header) : Bool := header.type = .response

def bodyForbidden (header : Header) : Bool :=
  header.type = .response &&
    ((100 ≤ header.statusCode && header.statusCode < 200) || header.statusCode = 204 ||
      header.statusCode = 304)

end Header

/-- A line ends at the first carriage return, which a line feed has to follow. -/
def readLineCrlf (span : List UInt8) : Except ParseError (List UInt8 × List UInt8) :=
  match cutAt (code '\r') span with
  | none => .error .unexpectedEof
  | some (_, []) => .error .unexpectedEof
  | some (line, next :: rest) =>
      if next ≠ code '\n' then .error .malformedHeader else .ok (line, rest)

def isTokenChar (u : UInt8) : Bool :=
  (code 'a' ≤ u ∧ u ≤ code 'z') || (code 'A' ≤ u ∧ u ≤ code 'Z') ||
    (code '0' ≤ u ∧ u ≤ code '9') ||
    u ∈ text ['!', '#', '$', '%', '&', '\x27', '*', '+', '-', '.', '^', '_', '\x60', '|', '~']

def isToken (s : List UInt8) : Bool := s ≠ [] && s.all isTokenChar

def isOws (byte : UInt8) : Bool := byte = code ' ' || byte = code '\t'

def trimRight (s : List UInt8) : List UInt8 := (s.reverse.dropWhile isOws).reverse

def trimOws (s : List UInt8) : List UInt8 := trimRight (s.dropWhile isOws)

/-- `std::numeric_limits<uint64_t>::max()`. -/
def uint64Max : Nat := 18446744073709551615

def decimalDigit (value : Nat) (c : UInt8) : Except ParseError Nat :=
  if !isdigit c then .error .malformedHeader else
  let digit := (c - code '0').toNat
  if value > (uint64Max - digit) / 10 then .error .malformedHeader else
  .ok (value * 10 + digit)

def parseDecimal (s : List UInt8) : Except ParseError Nat :=
  if s = [] then .error .malformedHeader else s.foldlM decimalDigit 0

def hexDigit (c : UInt8) : Option Nat :=
  if isdigit c then some (c - code '0').toNat
  else if code 'a' ≤ c ∧ c ≤ code 'f' then some ((c - code 'a').toNat + 10)
  else if code 'A' ≤ c ∧ c ≤ code 'F' then some ((c - code 'A').toNat + 10)
  else none

/-- `std::from_chars` in base 16 over the whole of `digits`; out of range is a failure. -/
def fromCharsHex (digits : List UInt8) : Option Nat := do
  let value ← digits.foldlM (fun value c => (hexDigit c).map (value * 16 + ·)) 0
  if value > uint64Max then none else some value

def parseChunkSize (line : List UInt8) : Except ParseError Nat :=
  let digits := trimRight (line.takeWhile (· ≠ code ';'))
  if digits = [] then .error .malformedHeader else
  match fromCharsHex digits with
  | none => .error .malformedHeader
  | some size => .ok size

def http10 : List UInt8 := text ['H', 'T', 'T', 'P', '/', '1', '.', '0']
def http11 : List UInt8 := text ['H', 'T', 'T', 'P', '/', '1', '.', '1']

def statusLine (first second third : List UInt8) : Except ParseError Header :=
  match second with
  | [a, b, c] =>
      if !isdigit a || !isdigit b || !isdigit c then .error .malformedHeader else
      .ok {
        type := .response
        version := first
        statusCode := UInt16.ofNat ((a - code '0').toNat * 100 + (b - code '0').toNat * 10 +
          (c - code '0').toNat)
        reasonPhrase := third }
  | _ => .error .malformedHeader

/-- `version` is absent when the line has no second blank. -/
def requestLine (first second : List UInt8) (version : Option (List UInt8)) :
    Except ParseError Header :=
  match version with
  | none => .error .malformedHeader
  | some version =>
      if !isToken first || second = [] then .error .malformedHeader else
      .ok { type := .request, method := first, target := second, version := version }

/-- The start line once it is read. -/
def startLine (line : List UInt8) : Except ParseError Header := do
  if line = [] ∨ code '\n' ∈ line then .error .malformedHeader else
  match cutAt (code ' ') line with
  | none => .error .malformedHeader
  | some (first, rest) =>
      let (second, third) := match cutAt (code ' ') rest with
        | none => (rest, none)
        | some (second, third) => (second, some third)
      let header ← if (text ['H', 'T', 'T', 'P', '/']).isPrefixOf first then
          statusLine first second (third.getD [])
        else requestLine first second third
      if header.version ≠ http10 ∧ header.version ≠ http11 then .error .unsupportedVersion else
      .ok header

def parseStartLine (span : List UInt8) : Except ParseError (Header × List UInt8) := do
  let (line, rest) ← readLineCrlf span
  let header ← startLine line
  .ok (header, rest)

/-- One field line once it is read; it is not empty. -/
def fieldOf (line : List UInt8) : Except ParseError Field :=
  if line.head?.any isOws then .error .malformedHeader else
  match cutAt (code ':') line with
  | none => .error .malformedHeader
  | some (name, value) =>
      if name = [] then .error .malformedHeader else
      if name.getLast?.any isOws then .error .malformedHeader else
      let field : Field := { name := name, value := trimOws value }
      if !isToken field.name then .error .malformedHeader else
      if code '\n' ∈ field.value ∨ (0 : UInt8) ∈ field.value then .error .malformedHeader else
      .ok field

structure FieldCursor where
  span : List UInt8
  fields : List Field := []

def fieldsTurn (cursor : FieldCursor) :
    Turn FieldCursor (Except ParseError (List Field × List UInt8)) :=
  match readLineCrlf cursor.span with
  | .error err => .leave (.error err)
  | .ok (line, rest) =>
      if line = [] then .leave (.ok (cursor.fields, rest)) else
      match fieldOf line with
      | .error err => .leave (.error err)
      | .ok field => .again { span := rest, fields := cursor.fields ++ [field] }

/-- Every turn consumes a line, so the fuel is never used up. -/
def parseFields (span : List UInt8) : Except ParseError (List Field × List UInt8) :=
  MeasuredLoop.run fieldsTurn (fun _ => .error .unexpectedEof) (span.length + 1) { span := span }

/-- The variables of `parseFraming`; the two flags of the source tell whether
`encodings` and `contentLength` have been set. -/
structure Framing where
  encodings : List (List UInt8) := []
  contentLength : Option (List UInt8) := none

def transferEncoding : List UInt8 :=
  text ['T', 'r', 'a', 'n', 's', 'f', 'e', 'r', '-', 'E', 'n', 'c', 'o', 'd', 'i', 'n', 'g']
def contentLength : List UInt8 :=
  text ['C', 'o', 'n', 't', 'e', 'n', 't', '-', 'L', 'e', 'n', 'g', 't', 'h']
def chunked : List UInt8 := text ['c', 'h', 'u', 'n', 'k', 'e', 'd']

def framingField (framing : Framing) (f : Field) : Except ParseError Framing :=
  if isEquals f.name transferEncoding then
    .ok { framing with encodings := framing.encodings ++ [trimOws f.value] }
  else if isEquals f.name contentLength then
    match framing.contentLength with
    | none => .ok { framing with contentLength := some f.value }
    | some value => if f.value ≠ value then .error .malformedHeader else .ok framing
  else .ok framing

def parseFraming (header : Header) : Except ParseError Header := do
  let framing ← header.fields.foldlM framingField {}
  match framing.encodings.getLast?, framing.contentLength with
  | some _, some _ => .error .malformedHeader
  | some encoding, none =>
      if !isEquals encoding chunked then .error .malformedHeader else
      .ok { header with chunked := true }
  | none, some length => do
      let value ← parseDecimal length
      .ok { header with hasContentLength := true, contentLength := value }
  | none, none => .ok header

def parse (span : List UInt8) : Except ParseError (Header × List UInt8) := do
  let (header, rest) ← parseStartLine span
  let (fields, rest) ← parseFields rest
  let header ← parseFraming { header with fields := fields }
  .ok (header, rest)

/-- What `parseChunkedBody` leaves behind: on an error `span` is where it was, nothing
is left in `out`, and `completePrefix` is the length of the complete chunks. -/
structure ChunkedBody where
  err : ParseError
  span : List UInt8
  out : List UInt8
  completePrefix : Nat
  deriving DecidableEq

structure ChunkCursor where
  span : List UInt8
  out : List UInt8 := []
  boundary : Nat := 0

def chunkTurn (span : List UInt8) (cursor : ChunkCursor) : Turn ChunkCursor ChunkedBody :=
  let fail := fun err => .leave
    { err := err, span := span, out := [], completePrefix := cursor.boundary }
  match readLineCrlf cursor.span with
  | .error err => fail err
  | .ok (sizeLine, rest) =>
      match parseChunkSize sizeLine with
      | .error err => fail err
      | .ok chunkSize =>
          if chunkSize = 0 then
            match parseFields rest with
            | .error err => fail err
            | .ok (_, rest) =>
                .leave { err := .none, span := rest, out := cursor.out, completePrefix := 0 }
          else if rest.length < chunkSize then fail .unexpectedEof else
          match readLineCrlf (rest.drop chunkSize) with
          | .error err => fail err
          | .ok (terminator, rest') =>
              if terminator ≠ [] then fail .malformedHeader else
              .again {
                span := rest'
                out := cursor.out ++ rest.take chunkSize
                boundary := span.length - rest'.length }

/-- Every turn consumes a chunk, so the fuel is never used up. -/
def parseChunkedBody (span : List UInt8) : ChunkedBody :=
  MeasuredLoop.run (chunkTurn span)
    (fun _ => { err := .unexpectedEof, span := span, out := [], completePrefix := 0 })
    (span.length + 1) { span := span }

end PcapAnalyzer.Http
