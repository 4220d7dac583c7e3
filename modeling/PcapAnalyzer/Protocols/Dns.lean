import PcapAnalyzer.Library.MeasuredLoop
import PcapAnalyzer.Util.Wire

/-!
# DNS messages

A pointer into the message is an offset from `dns_base`. The parsed header and the
remaining bytes exist only on success: every caller discards them on an error.
-/

namespace PcapAnalyzer.Dns

open MeasuredLoop (Turn)

set_option autoImplicit false

def headerLen : Nat := 12
def port : UInt16 := 53

def questionHeaderLen : Nat := 4
def resourceHeaderLen : Nat := 10

def typeA : UInt16 := 1
def typeAaaa : UInt16 := 28

def maxDnsCompressionJumps : Nat := 10
def dnsCompressionPointerMask : UInt8 := 0xC0
def maxDnsNameOctets : Nat := 255

structure Question where
  name : List UInt8 := []
  qtype : UInt16 := 0
  qclass : UInt16 := 0
  deriving DecidableEq, Repr

structure ResourceRecord where
  name : List UInt8 := []
  type : UInt16 := 0
  rclass : UInt16 := 0
  ttl : UInt32 := 0
  rdata : List UInt8 := []
  deriving DecidableEq, Repr

structure Header where
  id : UInt16 := 0
  flags : UInt16 := 0
  qdcount : UInt16 := 0
  ancount : UInt16 := 0
  nscount : UInt16 := 0
  arcount : UInt16 := 0
  questions : List Question := []
  answers : List ResourceRecord := []
  authority : List ResourceRecord := []
  additional : List ResourceRecord := []
  deriving DecidableEq, Repr

def Header.isResponse (header : Header) : Bool := header.flags &&& (0x8000 : UInt16) ≠ 0

/-- The variables of the loop of `parseName`; `spanAt` is where the span goes on. -/
structure NameCursor where
  cur : Nat
  spanAt : Nat
  jumps : Nat := 0
  nameOctets : Nat := 0
  ptrCeiling : Int := -1
  name : List UInt8 := []

/-- What the loop of `parseName` yields: the name and where the span goes on. -/
abbrev NameTurn : Type := Turn NameCursor (Except ParseError (List UInt8 × Nat))

/-- Where the span goes on: the first jump has fixed it, or it is `width` octets ahead. -/
def NameCursor.spanAfter (cursor : NameCursor) (width : Nat) : Nat :=
  if cursor.jumps = 0 then cursor.cur + width else cursor.spanAt

/-- The first pointer has to point before itself, a later one before the one that led to it. -/
def NameCursor.limit (cursor : NameCursor) : Int :=
  if cursor.jumps = 0 then cursor.cur else cursor.ptrCeiling

def pointerTarget (base : List UInt8) (cursor : NameCursor) : Nat :=
  ((byteAt base cursor.cur &&& (0x3F : UInt8)).toNat <<< 8) |||
    (byteAt base (cursor.cur + 1)).toNat

/-- The two octets at `cur` are a compression pointer. -/
def followPointer (base : List UInt8) (cursor : NameCursor) : NameTurn :=
  if cursor.cur + 1 ≥ base.length then .leave (.error .unexpectedEof) else
  if cursor.jumps + 1 > maxDnsCompressionJumps then .leave (.error .malformedHeader) else
  if (pointerTarget base cursor : Int) ≥ cursor.limit then .leave (.error .malformedHeader) else
  .again { cursor with
    cur := pointerTarget base cursor
    spanAt := cursor.spanAfter 2
    jumps := cursor.jumps + 1
    ptrCeiling := pointerTarget base cursor }

/-- The octet at `cur` is the length of a label. -/
def takeLabel (base : List UInt8) (cursor : NameCursor) : NameTurn :=
  let len := (byteAt base cursor.cur).toNat
  if cursor.cur + 1 + len > base.length then .leave (.error .unexpectedEof) else
  if cursor.nameOctets + (len + 1) > maxDnsNameOctets then .leave (.error .malformedHeader) else
  .again { cursor with
    cur := cursor.cur + 1 + len
    nameOctets := cursor.nameOctets + (len + 1)
    name := (if cursor.name = [] then [] else cursor.name ++ text ['.']) ++
      slice base (cursor.cur + 1) len }

def nameTurn (base : List UInt8) (cursor : NameCursor) : NameTurn :=
  if cursor.cur ≥ base.length then .leave (.error .unexpectedEof) else
  if byteAt base cursor.cur = 0 then .leave (.ok (cursor.name, cursor.spanAfter 1)) else
  if byteAt base cursor.cur &&& dnsCompressionPointerMask = dnsCompressionPointerMask then
    followPointer base cursor
  else if byteAt base cursor.cur &&& dnsCompressionPointerMask ≠ 0 then
    .leave (.error .malformedHeader)
  else takeLabel base cursor

/-- Every turn adds a label or a jump, and both are bounded. -/
def parseName (base : List UInt8) (offset : Nat) : Except ParseError (List UInt8 × Nat) :=
  MeasuredLoop.run (nameTurn base) (fun _ => .error .malformedHeader)
    (maxDnsNameOctets + maxDnsCompressionJumps + 1) { cur := offset, spanAt := offset }

def parseQuestion (base : List UInt8) (offset : Nat) (endian : Endian) :
    Except ParseError (Question × Nat) := do
  let (name, next) ← parseName base offset
  if base.length - next < questionHeaderLen then .error .unexpectedEof else
  .ok ({ name := name
         qtype := toHost16 (load16 base next) endian
         qclass := toHost16 (load16 base (next + 2)) endian }, next + questionHeaderLen)

def parseResourceRecord (base : List UInt8) (offset : Nat) (endian : Endian) :
    Except ParseError (ResourceRecord × Nat) := do
  let (name, next) ← parseName base offset
  if base.length - next < resourceHeaderLen then .error .unexpectedEof else
  let rdlength := (toHost16 (load16 base (next + 8)) endian).toNat
  let rdataAt := next + resourceHeaderLen
  if base.length - rdataAt < rdlength then .error .unexpectedEof else
  .ok ({ name := name
         type := toHost16 (load16 base next) endian
         rclass := toHost16 (load16 base (next + 2)) endian
         ttl := toHost32 (load32 base (next + 4)) endian
         rdata := slice base rdataAt rdlength }, rdataAt + rdlength)

/-- `for (auto& item : items)` after `items.resize(count)`. -/
def parseItems {Item : Type} (parseItem : Nat → Except ParseError (Item × Nat)) :
    Nat → Nat → Except ParseError (List Item × Nat)
  | 0, offset => .ok ([], offset)
  | count + 1, offset => do
      let (item, next) ← parseItem offset
      let (items, last) ← parseItems parseItem count next
      .ok (item :: items, last)

def loadHeader (base : List UInt8) (endian : Endian) : Header :=
  { id := toHost16 (load16 base 0) endian
    flags := toHost16 (load16 base 2) endian
    qdcount := toHost16 (load16 base 4) endian
    ancount := toHost16 (load16 base 6) endian
    nscount := toHost16 (load16 base 8) endian
    arcount := toHost16 (load16 base 10) endian }

def parse (span : List UInt8) (endian : Endian) : Except ParseError (Header × List UInt8) := do
  if span.length < headerLen then .error .unexpectedEof else
  let header := loadHeader span endian
  let minBytes := header.qdcount.toNat * (1 + questionHeaderLen) +
    (header.ancount.toNat + header.nscount.toNat + header.arcount.toNat) *
      (1 + resourceHeaderLen)
  if span.length - headerLen < minBytes then .error .unexpectedEof else
  let record := fun offset => parseResourceRecord span offset endian
  let (questions, offset) ← parseItems (fun offset => parseQuestion span offset endian)
    header.qdcount.toNat headerLen
  let (answers, offset) ← parseItems record header.ancount.toNat offset
  let (authority, offset) ← parseItems record header.nscount.toNat offset
  let (additional, offset) ← parseItems record header.arcount.toNat offset
  .ok ({ header with
    questions := questions
    answers := answers
    authority := authority
    additional := additional }, span.drop offset)

/-- The bound that makes the fuel of `parseName` enough. -/
def nameMeasure (cursor : NameCursor) : Nat :=
  (maxDnsNameOctets - cursor.nameOctets) + (maxDnsCompressionJumps - cursor.jumps)

theorem follow_pointer_decreasing (base : List UInt8) :
    MeasuredLoop.Decreasing (followPointer base) nameMeasure := by
  intro cursor next pass
  unfold followPointer at pass
  split_ifs at pass
  cases pass
  simp only [nameMeasure]
  omega

theorem take_label_decreasing (base : List UInt8) :
    MeasuredLoop.Decreasing (takeLabel base) nameMeasure := by
  intro cursor next pass
  unfold takeLabel at pass
  by_cases cut : cursor.cur + 1 + (byteAt base cursor.cur).toNat > base.length
  · simp [cut] at pass
  by_cases long : cursor.nameOctets + ((byteAt base cursor.cur).toNat + 1) > maxDnsNameOctets
  · simp [cut, long] at pass
  simp only [cut, long, if_false] at pass
  cases pass
  simp only [nameMeasure]
  omega

theorem name_turn_decreasing (base : List UInt8) :
    MeasuredLoop.Decreasing (nameTurn base) nameMeasure := by
  intro cursor next pass
  unfold nameTurn at pass
  split_ifs at pass
  · exact follow_pointer_decreasing base cursor next pass
  · exact take_label_decreasing base cursor next pass

end PcapAnalyzer.Dns
