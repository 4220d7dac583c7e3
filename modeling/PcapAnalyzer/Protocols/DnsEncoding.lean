import PcapAnalyzer.Protocols.Dns

/-!
# Writing DNS messages

A name is written as its labels and a zero octet, or as some of them and a pointer to a
suffix that has been written before. Every place that such a suffix is kept at can be read
back, so the parser undoes every encoding of a message.
-/

namespace PcapAnalyzer

set_option autoImplicit false

theorem byte_at_drop (span : List UInt8) (offset i : Nat) :
    byteAt (span.drop offset) i = byteAt span (offset + i) := by
  simp [byteAt, List.getD_eq_getElem?_getD]

namespace Dns

open MeasuredLoop

def maxLabel : Nat := 63
def maxPointer : Nat := 16384

/-- The labels of a name, which with their lengths and the root octet fit a name. -/
structure Name where
  labels : List (List UInt8)
  sized : ∀ label ∈ labels, 1 ≤ label.length ∧ label.length ≤ maxLabel
  octets : (labels.map fun label => label.length + 1).sum + 1 ≤ maxDnsNameOctets

def dotted (labels : List (List UInt8)) : List UInt8 :=
  (text ['.']).intercalate labels

/-- Where a suffix of a name has been written, and the targets of the pointers that reading
it follows. -/
structure Place where
  offset : Nat
  labels : List (List UInt8)
  jumps : List Nat

/-- The octets of a pointer. -/
def pointerTo (target : Nat) : List UInt8 :=
  [UInt8.ofNat (192 + target / 256), UInt8.ofNat (target % 256)]

def encodeLabel (label : List UInt8) : List UInt8 := UInt8.ofNat label.length :: label

/-- The octets of a name that begins at `offset` after the suffixes of `places` have been
written, and the places it adds; the first of them is the name itself. -/
inductive WritesName (places : List Place) :
    Nat → List (List UInt8) → List Nat → List UInt8 → List Place → Prop where
  | root (offset : Nat) : WritesName places offset [] [] [0] [⟨offset, [], []⟩]
  | label {offset : Nat} {label : List UInt8} {labels : List (List UInt8)} {jumps : List Nat}
      {bytes : List UInt8} {new : List Place}
      (rest : WritesName places (offset + 1 + label.length) labels jumps bytes new) :
      WritesName places offset (label :: labels) jumps (encodeLabel label ++ bytes)
        (⟨offset, label :: labels, jumps⟩ :: new)
  | pointer {offset : Nat} {place : Place} (known : place ∈ places)
      (before : place.offset < offset) (addressable : place.offset < maxPointer)
      (backwards : ∀ target ∈ place.jumps.head?, target < place.offset)
      (few : place.jumps.length < maxDnsCompressionJumps) :
      WritesName places offset place.labels (place.offset :: place.jumps)
        (pointerTo place.offset) [⟨offset, place.labels, place.offset :: place.jumps⟩]

section Names

variable {base : List UInt8}

/-- What stands at an offset of a message, read through its pointers, and where it ends. -/
inductive Spells (base : List UInt8) : Nat → List (List UInt8) → List Nat → Nat → Prop where
  | root {offset : Nat} (inside : offset < base.length) (zero : byteAt base offset = 0) :
      Spells base offset [] [] (offset + 1)
  | label {offset stop : Nat} {label : List UInt8} {labels : List (List UInt8)} {jumps : List Nat}
      (sized : 1 ≤ label.length ∧ label.length ≤ maxLabel)
      (inside : offset + 1 + label.length ≤ base.length)
      (length : byteAt base offset = UInt8.ofNat label.length)
      (octets : slice base (offset + 1) label.length = label)
      (rest : Spells base (offset + 1 + label.length) labels jumps stop) :
      Spells base offset (label :: labels) jumps stop
  | pointer {offset target stop : Nat} {labels : List (List UInt8)} {jumps : List Nat}
      (inside : offset + 1 < base.length)
      (high : byteAt base offset = UInt8.ofNat (192 + target / 256))
      (low : byteAt base (offset + 1) = UInt8.ofNat (target % 256))
      (before : target < offset) (addressable : target < maxPointer)
      (backwards : ∀ next ∈ jumps.head?, next < target)
      (rest : Spells base target labels jumps stop) :
      Spells base offset labels (target :: jumps) (offset + 2)

theorem label_octet : ∀ length < 64, length ≠ 0 →
    UInt8.ofNat length ≠ 0 ∧
      UInt8.ofNat length &&& dnsCompressionPointerMask ≠ dnsCompressionPointerMask ∧
      UInt8.ofNat length &&& dnsCompressionPointerMask = 0 ∧
      (UInt8.ofNat length).toNat = length := by
  decide

theorem pointer_octet : ∀ high < 64, UInt8.ofNat (192 + high) ≠ 0 ∧
    UInt8.ofNat (192 + high) &&& dnsCompressionPointerMask = dnsCompressionPointerMask ∧
      (UInt8.ofNat (192 + high) &&& (0x3F : UInt8)).toNat = high := by
  decide

/-- The name so far with more labels. -/
def extendName (name : List UInt8) (labels : List (List UInt8)) : List UInt8 :=
  labels.foldl (fun name label => (if name = [] then [] else name ++ text ['.']) ++ label) name

theorem extend_name_nonempty (name : List UInt8) (labels : List (List UInt8)) (some : name ≠ [])
    (sized : ∀ label ∈ labels, label ≠ []) :
    extendName name labels = name ++ (labels.map fun label => text ['.'] ++ label).flatten := by
  induction labels generalizing name with
  | nil => simp [extendName]
  | cons label labels ih =>
      have later := ih (name ++ text ['.'] ++ label) (by simp [some])
        fun other member => sized other (List.mem_cons_of_mem _ member)
      have step : extendName name (label :: labels) =
          extendName (name ++ text ['.'] ++ label) labels := by
        rw [extendName, List.foldl_cons, if_neg some]
        rfl
      rw [step, later]
      simp

theorem extend_name_dotted (labels : List (List UInt8)) (sized : ∀ label ∈ labels, label ≠ []) :
    extendName [] labels = dotted labels := by
  cases labels with
  | nil => rfl
  | cons label labels =>
      have first := sized label List.mem_cons_self
      have step : extendName [] (label :: labels) = extendName label labels := by
        rw [extendName, List.foldl_cons, if_pos rfl]
        rfl
      rw [step, extend_name_nonempty label labels first
        fun other member => sized other (List.mem_cons_of_mem _ member)]
      clear step first sized
      induction labels generalizing label with
      | nil => simp [dotted, List.intercalate]
      | cons next labels ih =>
          have joined := ih next
          simp only [dotted, List.intercalate, List.intersperse_cons_cons, List.flatten_cons,
            List.map_cons] at joined ⊢
          rw [← joined]
          simp

/-- One label of a name. -/
theorem name_turn_label {label : List UInt8} (cursor : NameCursor)
    (sized : 1 ≤ label.length ∧ label.length ≤ maxLabel)
    (inside : cursor.cur + 1 + label.length ≤ base.length)
    (length : byteAt base cursor.cur = UInt8.ofNat label.length)
    (octets : slice base (cursor.cur + 1) label.length = label)
    (fits : cursor.nameOctets + (label.length + 1) ≤ maxDnsNameOctets) :
    nameTurn base cursor = .again { cursor with
      cur := cursor.cur + 1 + label.length
      nameOctets := cursor.nameOctets + (label.length + 1)
      name := (if cursor.name = [] then [] else cursor.name ++ text ['.']) ++ label } := by
  simp only [maxLabel] at sized
  obtain ⟨nonzero, noPointer, noFlag, value⟩ := label_octet label.length (by omega) (by omega)
  have here : ¬ cursor.cur ≥ base.length := by omega
  have whole : ¬ cursor.cur + 1 + label.length > base.length := by omega
  have short : ¬ cursor.nameOctets + (label.length + 1) > maxDnsNameOctets := by omega
  rw [nameTurn, if_neg here, length, if_neg nonzero, if_neg noPointer,
    if_neg (not_not.mpr noFlag)]
  simp only [takeLabel, length, value, whole, short, if_false, octets]

/-- One pointer of a name. -/
theorem name_turn_pointer {target : Nat} (cursor : NameCursor)
    (inside : cursor.cur + 1 < base.length)
    (high : byteAt base cursor.cur = UInt8.ofNat (192 + target / 256))
    (low : byteAt base (cursor.cur + 1) = UInt8.ofNat (target % 256))
    (addressable : target < maxPointer) (few : cursor.jumps + 1 ≤ maxDnsCompressionJumps)
    (backwards : (target : Int) < cursor.limit) :
    nameTurn base cursor = .again { cursor with
      cur := target
      spanAt := cursor.spanAfter 2
      jumps := cursor.jumps + 1
      ptrCeiling := target } := by
  simp only [maxPointer] at addressable
  obtain ⟨nonzero, pointer, value⟩ := pointer_octet (target / 256) (by omega)
  have here : ¬ cursor.cur ≥ base.length := by omega
  have room : ¬ cursor.cur + 1 ≥ base.length := by omega
  have lowValue : (UInt8.ofNat (target % 256)).toNat = target % 256 := by
    rw [UInt8.toNat_ofNat']
    omega
  have found : pointerTarget base cursor = target := by
    have joined := or_of_disjoint (target % 256) (target / 256) 8 (Nat.mod_lt _ (by decide))
    rw [pointerTarget, high, low, value, lowValue, Nat.shiftLeft_eq, Nat.or_comm, joined]
    omega
  have allowed : ¬ cursor.jumps + 1 > maxDnsCompressionJumps := by omega
  have below : ¬ (target : Int) ≥ cursor.limit := by omega
  simp only [nameTurn, here, high, nonzero, pointer, if_false, if_true, followPointer, room,
    allowed, found, below]

theorem below_limit (cursor : NameCursor) {target : Nat} (before : target < cursor.cur)
    (backwards : cursor.jumps ≠ 0 → (target : Int) < cursor.ptrCeiling) :
    (target : Int) < cursor.limit := by
  unfold NameCursor.limit
  by_cases first : cursor.jumps = 0
  · rw [if_pos first]
    exact Int.ofNat_lt.mpr before
  · rw [if_neg first]
    exact backwards first

/-- The loop of `parseName` reads what is spelled at its cursor. -/
theorem name_loop_spells {offset stop : Nat} {labels : List (List UInt8)} {jumps : List Nat}
    (spells : Spells base offset labels jumps stop) (cursor : NameCursor)
    (here : cursor.cur = offset)
    (few : cursor.jumps + jumps.length ≤ maxDnsCompressionJumps)
    (backwards : cursor.jumps ≠ 0 → ∀ target ∈ jumps.head?, (target : Int) < cursor.ptrCeiling)
    (fits : cursor.nameOctets + (labels.map fun label => label.length + 1).sum ≤
      maxDnsNameOctets) :
    run (nameTurn base) (fun _ => .error .malformedHeader) (nameMeasure cursor + 1) cursor =
      .ok (extendName cursor.name labels,
        if cursor.jumps = 0 then stop else cursor.spanAt) := by
  induction spells generalizing cursor with
  | @root offset inside zero =>
      subst here
      have pass : nameTurn base cursor = .leave (.ok (cursor.name, cursor.spanAfter 1)) := by
        rw [nameTurn, if_neg (by omega), if_pos zero]
      rw [run_leave (name_turn_decreasing base) (Nat.lt_succ_self _) pass]
      rfl
  | @label offset stop label labels jumps sized inside length octets rest ih =>
      subst here
      simp only [List.map_cons, List.sum_cons] at fits
      have pass := name_turn_label cursor sized inside length octets (by omega)
      rw [run_again (name_turn_decreasing base) (Nat.lt_succ_self _) pass]
      exact ih _ rfl few backwards (by simp only; omega)
  | @pointer offset target stop labels jumps inside high low before addressable chain rest ih =>
      subst here
      simp only [List.length_cons] at few
      have limit := below_limit cursor before fun jumped => backwards jumped target rfl
      have pass := name_turn_pointer cursor inside high low addressable (by omega) limit
      rw [run_again (name_turn_decreasing base) (Nat.lt_succ_self _) pass]
      have read := ih { cursor with
        cur := target
        spanAt := cursor.spanAfter 2
        jumps := cursor.jumps + 1
        ptrCeiling := target } rfl (by simp only; omega)
        (fun _ next member => Int.ofNat_lt.mpr (chain next member)) fits
      rw [read]
      simp only [Nat.succ_ne_zero, if_false, NameCursor.spanAfter]

theorem Spells.nonempty {offset stop : Nat} {labels : List (List UInt8)} {jumps : List Nat}
    (spells : Spells base offset labels jumps stop) : ∀ label ∈ labels, label ≠ [] := by
  induction spells with
  | root => exact fun _ member => absurd member List.not_mem_nil
  | label sized _ _ _ _ ih =>
      refine List.forall_mem_cons.mpr ⟨?_, ih⟩
      rintro rfl
      simp at sized
  | pointer _ _ _ _ _ _ _ ih => exact ih

theorem parse_name_spelled {offset stop : Nat} {labels : List (List UInt8)} {jumps : List Nat}
    (spells : Spells base offset labels jumps stop)
    (few : jumps.length ≤ maxDnsCompressionJumps)
    (fits : (labels.map fun label => label.length + 1).sum ≤ maxDnsNameOctets) :
    parseName base offset = .ok (dotted labels, stop) := by
  have read := name_loop_spells spells { cur := offset, spanAt := offset } rfl
    (by simpa using few) (fun jumped => absurd rfl jumped) (by simpa using fits)
  rw [extend_name_dotted _ spells.nonempty, if_pos rfl] at read
  exact read

theorem parse_name_spells {offset stop : Nat} {jumps : List Nat} (name : Name)
    (spells : Spells base offset name.labels jumps stop)
    (few : jumps.length ≤ maxDnsCompressionJumps) :
    parseName base offset = .ok (dotted name.labels, stop) := by
  have octets := name.octets
  exact parse_name_spelled spells few (by omega)

end Names

section Places

variable {base rest : List UInt8} {offset : Nat}

theorem drop_placed {first : List UInt8} (placed : base.drop offset = first ++ rest) :
    base.drop (offset + first.length) = rest := by
  rw [← List.drop_drop, placed, List.drop_left]

theorem length_placed (placed : base.drop offset = rest) :
    base.length - offset = rest.length := by
  rw [← placed, List.length_drop]

theorem load16_placed {x : UInt16} (placed : base.drop offset = wire16 x ++ rest) :
    toHost16 (load16 base offset) .big = x := by
  have moved : load16 base offset = load16 (base.drop offset) 0 := by
    simp only [load16, byte_at_drop, Nat.add_zero, Nat.zero_add]
  rw [moved, placed]
  exact to_host16_wire x rest

theorem load32_placed {x : UInt32} (placed : base.drop offset = wire32 x ++ rest) :
    toHost32 (load32 base offset) .big = x := by
  have moved : load32 base offset = load32 (base.drop offset) 0 := by
    simp only [load32, byte_at_drop, Nat.add_zero, Nat.zero_add]
  rw [moved, placed]
  exact to_host32_wire x rest

theorem byte_placed {byte : UInt8} (placed : base.drop offset = byte :: rest) :
    byteAt base offset = byte ∧ offset < base.length := by
  have moved : byteAt base offset = byteAt (base.drop offset) 0 := by
    rw [byte_at_drop, Nat.add_zero]
  have size := length_placed placed
  rw [List.length_cons] at size
  exact ⟨by rw [moved, placed, byte_at_cons_zero], by omega⟩

/-- A place can be read back. -/
def Place.Kept (base : List UInt8) (place : Place) : Prop :=
  ∃ stop, Spells base place.offset place.labels place.jumps stop

theorem WritesName.present {places new : List Place} {labels : List (List UInt8)}
    {jumps : List Nat} {bytes : List UInt8}
    (writes : WritesName places offset labels jumps bytes new) : 1 ≤ bytes.length := by
  cases writes <;> simp [encodeLabel, pointerTo]

/-- A name that is written is spelled there, and so are the suffixes it leaves behind. -/
theorem WritesName.spelled {places new : List Place} {labels : List (List UInt8)}
    {jumps : List Nat} {bytes : List UInt8}
    (writes : WritesName places offset labels jumps bytes new)
    (placed : base.drop offset = bytes ++ rest)
    (sized : ∀ label ∈ labels, 1 ≤ label.length ∧ label.length ≤ maxLabel)
    (kept : ∀ place ∈ places, place.Kept base) :
    Spells base offset labels jumps (offset + bytes.length) ∧
      jumps.length ≤ maxDnsCompressionJumps ∧ ∀ place ∈ new, place.Kept base := by
  induction writes with
  | root offset =>
      obtain ⟨zero, inside⟩ := byte_placed placed
      have spells : Spells base offset [] [] (offset + 1) := .root inside zero
      refine ⟨spells, Nat.zero_le _, ?_⟩
      intro place member
      rw [List.mem_singleton.mp member]
      exact ⟨_, spells⟩
  | @label offset label labels jumps bytes new writes ih =>
      rw [encodeLabel, List.cons_append, List.cons_append, List.append_assoc] at placed
      obtain ⟨length, inside⟩ := byte_placed placed
      have afterLength : base.drop (offset + 1) = label ++ (bytes ++ rest) :=
        drop_placed (show base.drop offset = [UInt8.ofNat label.length] ++ _ from placed)
      have afterLabel := drop_placed afterLength
      have size := length_placed afterLength
      rw [List.length_append] at size
      have labelSized := sized label List.mem_cons_self
      obtain ⟨spells, few, keptNew⟩ := ih afterLabel
        fun other member => sized other (List.mem_cons_of_mem _ member)
      have octets : slice base (offset + 1) label.length = label := by
        rw [slice, afterLength, List.take_left]
      have whole : Spells base offset (label :: labels) jumps
          (offset + 1 + label.length + bytes.length) :=
        .label labelSized (by omega) length octets spells
      have stop : offset + (encodeLabel label ++ bytes).length =
          offset + 1 + label.length + bytes.length := by
        rw [List.length_append, encodeLabel, List.length_cons]
        omega
      refine ⟨by rw [stop]; exact whole, few, ?_⟩
      intro place member
      rcases List.mem_cons.mp member with rfl | later
      · exact ⟨_, whole⟩
      · exact keptNew place later
  | @pointer offset place known before addressable backwards few =>
      obtain ⟨stop, target⟩ := kept place known
      obtain ⟨high, inside⟩ := byte_placed placed
      have second : base.drop (offset + 1) = UInt8.ofNat (place.offset % 256) :: rest :=
        drop_placed (show base.drop offset = [UInt8.ofNat (192 + place.offset / 256)] ++ _ from
          placed)
      obtain ⟨low, insideToo⟩ := byte_placed second
      have spells : Spells base offset place.labels (place.offset :: place.jumps) (offset + 2) :=
        .pointer insideToo high low before addressable backwards target
      refine ⟨spells, by rw [List.length_cons]; omega, ?_⟩
      intro other member
      rw [List.mem_singleton.mp member]
      exact ⟨_, spells⟩

end Places

/-- A question with its name as labels. -/
structure QuestionItem where
  name : Name
  qtype : UInt16
  qclass : UInt16

structure RecordItem where
  name : Name
  type : UInt16
  rclass : UInt16
  ttl : UInt32
  rdata : List UInt8
  small : rdata.length ≤ 65535

def QuestionItem.body (item : QuestionItem) : List UInt8 :=
  wire16 item.qtype ++ wire16 item.qclass

def QuestionItem.parsed (item : QuestionItem) : Question :=
  { name := dotted item.name.labels, qtype := item.qtype, qclass := item.qclass }

def RecordItem.body (item : RecordItem) : List UInt8 :=
  wire16 item.type ++ (wire16 item.rclass ++ (wire32 item.ttl ++
    (wire16 (UInt16.ofNat item.rdata.length) ++ item.rdata)))

def RecordItem.parsed (item : RecordItem) : ResourceRecord :=
  { name := dotted item.name.labels
    type := item.type
    rclass := item.rclass
    ttl := item.ttl
    rdata := item.rdata }

/-- The octets of items that begin at `offset`, each a name and its body, and the places that
are known after them. -/
inductive WritesItems {Item : Type} (name : Item → Name) (body : Item → List UInt8) :
    List Place → Nat → List Item → List UInt8 → List Place → Prop where
  | nil (places : List Place) (offset : Nat) : WritesItems name body places offset [] [] places
  | cons {places new last : List Place} {offset : Nat} {item : Item} {items : List Item}
      {jumps : List Nat} {nameBytes bytes : List UInt8}
      (first : WritesName places offset (name item).labels jumps nameBytes new)
      (others : WritesItems name body (new ++ places)
        (offset + nameBytes.length + (body item).length) items bytes last) :
      WritesItems name body places offset (item :: items) (nameBytes ++ (body item ++ bytes)) last

section Items

variable {base rest : List UInt8}

theorem parse_question_placed (item : QuestionItem) {offset stop : Nat} {jumps : List Nat}
    (spells : Spells base offset item.name.labels jumps stop)
    (few : jumps.length ≤ maxDnsCompressionJumps) (placed : base.drop stop = item.body ++ rest) :
    parseQuestion base offset .big = .ok (item.parsed, stop + item.body.length) := by
  have name := parse_name_spells item.name spells few
  rw [QuestionItem.body, List.append_assoc] at placed
  have qclass : base.drop (stop + 2) = wire16 item.qclass ++ rest := drop_placed placed
  have size := length_placed placed
  simp only [List.length_append, wire16_length] at size
  have room : ¬ base.length - stop < questionHeaderLen := by
    simp only [questionHeaderLen]
    omega
  simp only [parseQuestion, name, bind, Except.bind, room, if_false, load16_placed placed,
    load16_placed qclass]
  rfl

theorem parse_record_placed (item : RecordItem) {offset stop : Nat} {jumps : List Nat}
    (spells : Spells base offset item.name.labels jumps stop)
    (few : jumps.length ≤ maxDnsCompressionJumps) (placed : base.drop stop = item.body ++ rest) :
    parseResourceRecord base offset .big = .ok (item.parsed, stop + item.body.length) := by
  have name := parse_name_spells item.name spells few
  have small := item.small
  simp only [RecordItem.body, List.append_assoc] at placed
  have rclass := drop_placed placed
  have ttl := drop_placed rclass
  have rdlength := drop_placed ttl
  have rdata := drop_placed rdlength
  simp only [wire16_length, wire32_length, Nat.add_assoc, Nat.reduceAdd] at rclass ttl rdlength rdata
  have size := length_placed rdata
  rw [List.length_append] at size
  have start := length_placed placed
  simp only [List.length_append, wire16_length, wire32_length] at start
  have declared : (UInt16.ofNat item.rdata.length).toNat = item.rdata.length := by
    rw [UInt16.toNat_ofNat']
    omega
  have room : ¬ base.length - stop < resourceHeaderLen := by
    simp only [resourceHeaderLen]
    omega
  have whole : ¬ base.length - (stop + resourceHeaderLen) < item.rdata.length := by
    simp only [resourceHeaderLen]
    omega
  have data : slice base (stop + resourceHeaderLen) item.rdata.length = item.rdata := by
    rw [slice, resourceHeaderLen, rdata, List.take_left]
  have length : stop + resourceHeaderLen + item.rdata.length = stop + item.body.length := by
    simp only [RecordItem.body, List.length_append, wire16_length, wire32_length,
      resourceHeaderLen]
    omega
  simp only [parseResourceRecord, name, bind, Except.bind, room, if_false, load16_placed placed,
    load16_placed rclass, load32_placed ttl, load16_placed rdlength, declared, whole, data, length]
  rfl

/-- Items that are written are parsed one after the other. -/
theorem parse_items_written {Item Parsed : Type} {name : Item → Name} {body : Item → List UInt8}
    {parseItem : Nat → Except ParseError (Parsed × Nat)} {parsed : Item → Parsed}
    (parse : ∀ (item : Item) {rest : List UInt8} {offset stop : Nat} {jumps : List Nat},
      Spells base offset (name item).labels jumps stop → jumps.length ≤ maxDnsCompressionJumps →
      base.drop stop = body item ++ rest →
      parseItem offset = .ok (parsed item, stop + (body item).length))
    {places last : List Place} {offset : Nat} {items : List Item} {bytes : List UInt8}
    (writes : WritesItems name body places offset items bytes last)
    (placed : base.drop offset = bytes ++ rest) (kept : ∀ place ∈ places, place.Kept base) :
    parseItems parseItem items.length offset =
        .ok (items.map parsed, offset + bytes.length) ∧
      ∀ place ∈ last, place.Kept base := by
  induction writes with
  | nil places offset => exact ⟨rfl, kept⟩
  | @cons places new last offset item items jumps nameBytes bytes first others ih =>
      simp only [List.append_assoc] at placed
      obtain ⟨spells, few, keptNew⟩ := first.spelled placed (name item).sized kept
      have bodyPlaced := drop_placed placed
      have read := parse item spells few bodyPlaced
      have known : ∀ place ∈ new ++ places, place.Kept base := by
        intro place member
        rcases List.mem_append.mp member with here | there
        · exact keptNew place here
        · exact kept place there
      obtain ⟨later, keptLast⟩ := ih (drop_placed bodyPlaced) known
      refine ⟨?_, keptLast⟩
      have stop : offset + nameBytes.length + (body item).length + bytes.length =
          offset + (nameBytes ++ (body item ++ bytes)).length := by
        simp only [List.length_append]
        omega
      simp only [List.length_cons, parseItems, read, bind, Except.bind, later, stop, List.map_cons]

theorem parse_questions_written {places last : List Place} {offset : Nat}
    {items : List QuestionItem} {bytes : List UInt8}
    (writes : WritesItems QuestionItem.name QuestionItem.body places offset items bytes last)
    (placed : base.drop offset = bytes ++ rest) (kept : ∀ place ∈ places, place.Kept base) :
    parseItems (fun offset => parseQuestion base offset .big) items.length offset =
        .ok (items.map QuestionItem.parsed, offset + bytes.length) ∧
      ∀ place ∈ last, place.Kept base :=
  parse_items_written (fun item => parse_question_placed item) writes placed kept

theorem parse_records_written {places last : List Place} {offset : Nat}
    {items : List RecordItem} {bytes : List UInt8}
    (writes : WritesItems RecordItem.name RecordItem.body places offset items bytes last)
    (placed : base.drop offset = bytes ++ rest) (kept : ∀ place ∈ places, place.Kept base) :
    parseItems (fun offset => parseResourceRecord base offset .big) items.length offset =
        .ok (items.map RecordItem.parsed, offset + bytes.length) ∧
      ∀ place ∈ last, place.Kept base :=
  parse_items_written (fun item => parse_record_placed item) writes placed kept

theorem items_written_length {Item : Type} {name : Item → Name} {body : Item → List UInt8}
    {least : Nat} (bodies : ∀ item, least ≤ (body item).length) {places last : List Place}
    {offset : Nat} {items : List Item} {bytes : List UInt8}
    (writes : WritesItems name body places offset items bytes last) :
    items.length * (1 + least) ≤ bytes.length := by
  induction writes with
  | nil places offset => simp
  | @cons places new last offset item items jumps nameBytes bytes first others ih =>
      have present := first.present
      have bodyLength := bodies item
      simp only [List.length_cons, List.length_append, Nat.succ_mul]
      omega

end Items

/-- A message whose counts fit their header fields. -/
structure Message where
  id : UInt16
  flags : UInt16
  questions : List QuestionItem
  answers : List RecordItem
  authority : List RecordItem
  additional : List RecordItem
  counted : questions.length < 65536 ∧ answers.length < 65536 ∧ authority.length < 65536 ∧
    additional.length < 65536

namespace Message

def encodeHeader (message : Message) : List UInt8 :=
  wire16 message.id ++ (wire16 message.flags ++
    (wire16 (UInt16.ofNat message.questions.length) ++
      (wire16 (UInt16.ofNat message.answers.length) ++
        (wire16 (UInt16.ofNat message.authority.length) ++
          wire16 (UInt16.ofNat message.additional.length)))))

def parsed (message : Message) : Header :=
  { id := message.id
    flags := message.flags
    qdcount := UInt16.ofNat message.questions.length
    ancount := UInt16.ofNat message.answers.length
    nscount := UInt16.ofNat message.authority.length
    arcount := UInt16.ofNat message.additional.length
    questions := message.questions.map QuestionItem.parsed
    answers := message.answers.map RecordItem.parsed
    authority := message.authority.map RecordItem.parsed
    additional := message.additional.map RecordItem.parsed }

/-- The encodings of a message: the names of each section may point into the sections before
it and into what precedes them in their own. -/
inductive Encodes (message : Message) : List UInt8 → Prop where
  | intro {questions answers authority additional : List UInt8}
      {afterQuestions afterAnswers afterAuthority last : List Place}
      (first : WritesItems QuestionItem.name QuestionItem.body [] headerLen message.questions
        questions afterQuestions)
      (second : WritesItems RecordItem.name RecordItem.body afterQuestions
        (headerLen + questions.length) message.answers answers afterAnswers)
      (third : WritesItems RecordItem.name RecordItem.body afterAnswers
        (headerLen + questions.length + answers.length) message.authority authority
        afterAuthority)
      (fourth : WritesItems RecordItem.name RecordItem.body afterAuthority
        (headerLen + questions.length + answers.length + authority.length) message.additional
        additional last) :
      Encodes message
        (message.encodeHeader ++ (questions ++ (answers ++ (authority ++ additional))))

theorem load_encoded_header (message : Message) (rest : List UInt8) :
    loadHeader (message.encodeHeader ++ rest) .big = { message.parsed with
      questions := []
      answers := []
      authority := []
      additional := [] } := by
  have id : (message.encodeHeader ++ rest).drop 0 = wire16 message.id ++ (wire16 message.flags ++
      (wire16 (UInt16.ofNat message.questions.length) ++
        (wire16 (UInt16.ofNat message.answers.length) ++
          (wire16 (UInt16.ofNat message.authority.length) ++
            (wire16 (UInt16.ofNat message.additional.length) ++ rest))))) := by
    simp only [encodeHeader, List.append_assoc, List.drop_zero]
  have flags := drop_placed id
  have qdcount := drop_placed flags
  have ancount := drop_placed qdcount
  have nscount := drop_placed ancount
  have arcount := drop_placed nscount
  simp only [wire16_length, Nat.zero_add, Nat.reduceAdd] at flags qdcount ancount nscount arcount
  simp only [loadHeader, load16_placed id, load16_placed flags, load16_placed qdcount,
    load16_placed ancount, load16_placed nscount, load16_placed arcount, parsed]

/-- Every encoding of a message is parsed to the message, whatever follows it. -/
theorem parse_encoded_message (message : Message) {bytes : List UInt8}
    (encodes : message.Encodes bytes) (trailing : List UInt8) :
    parse (bytes ++ trailing) .big = .ok (message.parsed, trailing) := by
  obtain ⟨first, second, third, fourth⟩ := encodes
  rename_i questions answers authority additional _ _ _ _
  have assoc : message.encodeHeader ++ (questions ++ (answers ++ (authority ++ additional))) ++
      trailing = message.encodeHeader ++
        (questions ++ (answers ++ (authority ++ (additional ++ trailing)))) := by
    simp only [List.append_assoc]
  rw [assoc]
  generalize span : message.encodeHeader ++
    (questions ++ (answers ++ (authority ++ (additional ++ trailing)))) = base
  have size : message.encodeHeader.length = headerLen := rfl
  have placedQuestions : base.drop headerLen =
      questions ++ (answers ++ (authority ++ (additional ++ trailing))) := by
    rw [← span, ← size, List.drop_left]
  have placedAnswers := drop_placed placedQuestions
  have placedAuthority := drop_placed placedAnswers
  have placedAdditional := drop_placed placedAuthority
  have rest := drop_placed placedAdditional
  obtain ⟨parsedQuestions, known⟩ := parse_questions_written first placedQuestions (by simp)
  obtain ⟨parsedAnswers, known⟩ := parse_records_written second placedAnswers known
  obtain ⟨parsedAuthority, known⟩ := parse_records_written third placedAuthority known
  obtain ⟨parsedAdditional, -⟩ := parse_records_written fourth placedAdditional known
  have bodies : ∀ item : QuestionItem, questionHeaderLen ≤ item.body.length := fun _ => le_rfl
  have questionsLong := items_written_length bodies first
  have records : ∀ item : RecordItem, resourceHeaderLen ≤ item.body.length := by
    intro item
    simp only [RecordItem.body, List.length_append, wire16_length, wire32_length,
      resourceHeaderLen]
    omega
  have answersLong := items_written_length records second
  have authorityLong := items_written_length records third
  have additionalLong := items_written_length records fourth
  obtain ⟨questionsCount, answersCount, authorityCount, additionalCount⟩ := message.counted
  have count : ∀ {length : Nat}, length < 65536 → (UInt16.ofNat length).toNat = length := by
    intro length small
    rw [UInt16.toNat_ofNat']
    omega
  have header := message.load_encoded_header
    (questions ++ (answers ++ (authority ++ (additional ++ trailing))))
  rw [span] at header
  have total := length_placed placedQuestions
  simp only [List.length_append] at total
  have long : ¬ base.length < headerLen := by
    rw [← span, List.length_append, size]
    omega
  have room : ¬ base.length - headerLen <
      message.questions.length * (1 + questionHeaderLen) +
        (message.answers.length + message.authority.length + message.additional.length) *
          (1 + resourceHeaderLen) := by
    simp only [Nat.add_mul] at *
    omega
  simp only [parse, long, if_false, header, parsed, count questionsCount, count answersCount,
    count authorityCount, count additionalCount, room, bind, Except.bind, parsedQuestions,
    parsedAnswers, parsedAuthority, parsedAdditional, rest]

def pointedQuestion : QuestionItem :=
  { name := { labels := [[97], [98, 99]], sized := by decide, octets := by decide }
    qtype := 1
    qclass := 1 }

def pointedAnswer : RecordItem :=
  { name := { labels := [[120], [98, 99]], sized := by decide, octets := by decide }
    type := 1
    rclass := 1
    ttl := 60
    rdata := [10, 0, 0, 1]
    small := by decide }

/-- A query for `a.bc`, answered for `x.bc` with a pointer into the question. -/
def pointedMessage : Message :=
  { id := 7
    flags := 0x8180
    questions := [pointedQuestion]
    answers := [pointedAnswer]
    authority := []
    additional := []
    counted := by decide }

def pointedBytes : List UInt8 :=
  [0, 7, 129, 128, 0, 1, 0, 1, 0, 0, 0, 0,
    1, 97, 2, 98, 99, 0, 0, 1, 0, 1,
    1, 120, 192, 14, 0, 1, 0, 1, 0, 0, 0, 60, 0, 4, 10, 0, 0, 1]

theorem parse_encoded_message_pointed :
    parse (pointedBytes ++ [1, 2]) .big = .ok (pointedMessage.parsed, [1, 2]) ∧
      pointedMessage.parsed.answers.map ResourceRecord.name = [[120, 46, 98, 99]] := by
  have asked : WritesName [] headerLen [[97], [98, 99]] [] [1, 97, 2, 98, 99, 0]
      [⟨12, [[97], [98, 99]], []⟩, ⟨14, [[98, 99]], []⟩, ⟨17, [], []⟩] :=
    .label (.label (.root _))
  have question := @WritesItems.cons _ QuestionItem.name QuestionItem.body [] _ _ headerLen
    pointedQuestion [] _ _ _ asked (.nil _ _)
  have pointer := @WritesName.pointer
    [⟨12, [[97], [98, 99]], []⟩, ⟨14, [[98, 99]], []⟩, ⟨17, [], []⟩] 24 ⟨14, [[98, 99]], []⟩
    (by simp) (by decide) (by decide) (by simp) (by decide)
  have answered : WritesName _ 22 [[120], [98, 99]] [14] [1, 120, 192, 14] _ := .label pointer
  have answer := @WritesItems.cons _ RecordItem.name RecordItem.body _ _ _ 22 pointedAnswer []
    _ _ _ answered (.nil _ _)
  have encodes := @Encodes.intro pointedMessage _ _ _ _ _ _ _ _ question answer
    (.nil _ _) (.nil _ _)
  exact ⟨parse_encoded_message pointedMessage encodes [1, 2], by decide⟩

end Message

end Dns

end PcapAnalyzer
