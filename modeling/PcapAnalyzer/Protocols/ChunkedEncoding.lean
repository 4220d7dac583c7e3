import PcapAnalyzer.Protocols.HttpEncoding

/-!
# Writing chunked bodies

The chunks at the front of a span are a relation, and a chunked body is what stands behind
them: a last chunk with its trailer, or an error. Both what is read back from a written body
and what a parse may skip when it is taken up again follow from that.
-/

namespace PcapAnalyzer.Http

open GrowingInput MeasuredLoop

set_option autoImplicit false

/-- A turn with the `out` of the caller; a failure resizes it to what it held before. -/
def chunkTurnInto (span : List UInt8) (outStart : Nat) (cursor : ChunkCursor) :
    Turn ChunkCursor ChunkedBody :=
  match chunkTurn span cursor with
  | .again next => .again next
  | .leave body =>
      .leave (if body.err = .none then body else { body with out := cursor.out.take outStart })

/-- `parseChunkedBody` for a caller that has something in `out` already. -/
def parseChunkedBodyInto (span out : List UInt8) : ChunkedBody :=
  MeasuredLoop.run (chunkTurnInto span out.length)
    (fun _ => { err := .unexpectedEof, span := span, out := out, completePrefix := 0 })
    (span.length + 1) { span := span, out := out }

/-- The chunks at the front of a span, with their data and what follows them. -/
inductive Chunks (span : List UInt8) : List UInt8 → List UInt8 → Prop where
  | none : Chunks span [] span
  | more {data rest chunk rest' : List UInt8} (before : Chunks span data rest)
      (accepted : AcceptedChunk rest chunk rest') : Chunks span (data ++ chunk) rest'

/-- The last chunk and its trailer stand here. -/
def EndsBody (span rest : List UInt8) : Prop :=
  rest <:+ span ∧ ∀ whole out boundary,
    chunkTurn whole { span := span, out := out, boundary := boundary } =
      .leave { err := .none, span := rest, out := out, completePrefix := 0 }

/-- No chunk is accepted here. -/
def FailsBody (span : List UInt8) (err : ParseError) : Prop :=
  err ≠ .none ∧ ∀ whole out boundary,
    chunkTurn whole { span := span, out := out, boundary := boundary } =
      .leave { err := err, span := whole, out := [], completePrefix := boundary }

section Chunks

variable {span data rest : List UInt8}

theorem Chunks.suffix (chunks : Chunks span data rest) : rest <:+ span := by
  induction chunks with
  | none => exact List.suffix_rfl
  | more _ accepted ih => exact accepted.suffix.1.trans ih

theorem Chunks.trans {more final : List UInt8} (first : Chunks span data rest)
    (second : Chunks rest more final) : Chunks span (data ++ more) final := by
  induction second with
  | none =>
      rw [List.append_nil]
      exact first
  | more _ accepted ih =>
      rw [← List.append_assoc]
      exact ih.more accepted

theorem Chunks.cons {chunk more final : List UInt8} (accepted : AcceptedChunk span chunk rest)
    (later : Chunks rest more final) : Chunks span (chunk ++ more) final := by
  have first : Chunks span ([] ++ chunk) rest := Chunks.none.more accepted
  rw [List.nil_append] at first
  exact first.trans later

/-- The chunks stay where they are when the span grows. -/
theorem Chunks.append (chunks : Chunks span data rest) (more : List UInt8) :
    Chunks (span ++ more) data (rest ++ more) := by
  induction chunks with
  | none => exact .none
  | more _ accepted ih => exact ih.more (accepted.append more)

/-- Behind the chunks of a span stands the end of the body or an error. -/
theorem chunks_total (span : List UInt8) : ∃ data rest, Chunks span data rest ∧
    ((∃ final, EndsBody rest final) ∨ ∃ err, FailsBody rest err) := by
  generalize size : span.length = length
  induction length using Nat.strongRecOn generalizing span with
  | ind length ih =>
      rcases chunk_turn_cases span with ⟨chunk, rest, accepted⟩ | ⟨final, ends⟩ | ⟨err, fails⟩
      · obtain ⟨data, behind, chunks, outcome⟩ :=
          ih rest.length (size ▸ accepted.suffix.2) rest rfl
        exact ⟨chunk ++ data, behind, chunks.cons accepted, outcome⟩
      · exact ⟨[], span, .none, .inl ⟨final, ends⟩⟩
      · exact ⟨[], span, .none, .inr ⟨err, fails⟩⟩

theorem FailsBody.not_accepted {err : ParseError} (fails : FailsBody span err) :
    ¬ AcceptedChunk span data rest := by
  intro accepted
  cases (chunk_turn_accepted accepted span [] 0).symm.trans (fails.2 span [] 0)

end Chunks

section Outcome

variable {span data rest : List UInt8} (out : List UInt8)

theorem chunk_turn_into_decreasing (span : List UInt8) (outStart : Nat) :
    Decreasing (chunkTurnInto span outStart) fun cursor => cursor.span.length := by
  intro cursor next turned
  unfold chunkTurnInto at turned
  cases pass : chunkTurn span cursor with
  | leave body =>
      rw [pass] at turned
      cases turned
  | again cursor' =>
      rw [pass] at turned
      cases turned
      exact chunk_turn_decreasing span cursor next pass

/-- The loop gets behind the chunks. -/
theorem parse_into_behind (chunks : Chunks span data rest) :
    parseChunkedBodyInto span out = MeasuredLoop.run (chunkTurnInto span out.length)
      (fun _ => { err := .unexpectedEof, span := span, out := out, completePrefix := 0 })
      (rest.length + 1)
      { span := rest, out := out ++ data, boundary := span.length - rest.length } := by
  induction chunks with
  | none => rw [List.append_nil, Nat.sub_self, parseChunkedBodyInto]
  | @more data rest chunk rest' before accepted ih =>
      have pass : chunkTurnInto span out.length
          { span := rest, out := out ++ data, boundary := span.length - rest.length } =
          .again { span := rest', out := out ++ (data ++ chunk),
                   boundary := span.length - rest'.length } := by
        rw [chunkTurnInto, chunk_turn_accepted accepted, List.append_assoc]
      rw [ih, run_again (chunk_turn_into_decreasing span out.length) (Nat.lt_succ_self _) pass]

theorem parse_into_ends {final : List UInt8} (chunks : Chunks span data rest)
    (ends : EndsBody rest final) : parseChunkedBodyInto span out =
      { err := .none, span := final, out := out ++ data, completePrefix := 0 } := by
  rw [parse_into_behind out chunks]
  refine run_leave (chunk_turn_into_decreasing span out.length) (Nat.lt_succ_self _) ?_
  rw [chunkTurnInto, ends.2]
  rfl

theorem parse_into_fails {err : ParseError} (chunks : Chunks span data rest)
    (fails : FailsBody rest err) : parseChunkedBodyInto span out =
      { err := err, span := span, out := out, completePrefix := span.length - rest.length } := by
  rw [parse_into_behind out chunks]
  refine run_leave (chunk_turn_into_decreasing span out.length) (Nat.lt_succ_self _) ?_
  rw [chunkTurnInto, fails.2]
  simp only [fails.1, if_false, List.take_left]

/-- What is in `out` already does not matter. -/
theorem parse_into_eq (span : List UInt8) : parseChunkedBodyInto span out =
    { parseChunkedBody span with out := out ++ (parseChunkedBody span).out } := by
  have turns : ∀ cursor alone : ChunkCursor, cursor = { alone with out := out ++ alone.out } →
      SameTurn (fun cursor alone : ChunkCursor => cursor = { alone with out := out ++ alone.out })
        (fun body alone : ChunkedBody => body = { alone with out := out ++ alone.out })
        (chunkTurnInto span out.length cursor) (chunkTurn span alone) := by
    rintro _ alone rfl
    rcases chunk_turn_cases alone.span with ⟨chunk, rest, accepted⟩ | ⟨final, -, ends⟩ |
      ⟨err, named, fails⟩
    · have turn := chunk_turn_accepted accepted span alone.out alone.boundary
      rw [chunkTurnInto, chunk_turn_accepted accepted, turn]
      apply SameTurn.again
      rw [List.append_assoc]
    · have turn := ends span alone.out alone.boundary
      rw [chunkTurnInto, ends, turn]
      exact .leave rfl
    · have turn := fails span alone.out alone.boundary
      rw [chunkTurnInto, fails, turn]
      apply SameTurn.leave
      simp only [named, if_false, List.take_left, List.append_nil]
  apply run_related turns
  · rintro _ alone rfl
    rw [List.append_nil]
  · rw [List.append_nil]

end Outcome

section Resuming

/-- Taking the body up again behind its chunks gives what parsing it as a whole gives. -/
structure ResumesExactly (span out : List UInt8) (skipped : Nat) (before : List UInt8)
    (whole left : ChunkedBody) : Prop where
  err : whole.err = left.err
  finished : left.err = .none → ∃ position data, skipped ≤ position ∧ position ≤ span.length ∧
    whole.span = span.drop position ∧ left.span = span.drop position ∧
      whole.out = out ++ (before ++ data) ∧ left.out = out ++ data
  failed : left.err ≠ .none → whole.span = span ∧ left.span = span.drop skipped ∧
    whole.out = out ∧ left.out = out ∧ whole.completePrefix = skipped + left.completePrefix

theorem suffix_drop {span rest : List UInt8} (suffix : rest <:+ span) :
    rest = span.drop (span.length - rest.length) := by
  obtain ⟨front, rfl⟩ := suffix
  rw [List.length_append, Nat.add_sub_cancel, List.drop_left]

theorem parse_into_resumes {span rest before : List UInt8} (out : List UInt8)
    (chunks : Chunks span before rest) : ResumesExactly span out (span.length - rest.length)
      before (parseChunkedBodyInto span out) (parseChunkedBodyInto rest out) := by
  obtain ⟨data, behind, later, outcome⟩ := chunks_total rest
  have inside := chunks.suffix.length_le
  have within := later.suffix.length_le
  rcases outcome with ⟨final, ends⟩ | ⟨err, fails⟩
  · have left := ends.1.length_le
    have suffix := (ends.1.trans later.suffix).trans chunks.suffix
    rw [parse_into_ends out (chunks.trans later) ends, parse_into_ends out later ends]
    refine ⟨rfl, fun _ => ⟨span.length - final.length, data, ?_, ?_, suffix_drop suffix,
      suffix_drop suffix, rfl, rfl⟩, fun failed => absurd rfl failed⟩ <;> omega
  · rw [parse_into_fails out (chunks.trans later) fails, parse_into_fails out later fails]
    refine ⟨rfl, fun none => absurd none fails.1, fun _ => ⟨rfl, suffix_drop chunks.suffix, rfl,
      rfl, ?_⟩⟩
    simp only
    omega

theorem suffix_drop_append {span rest : List UInt8} (suffix : rest <:+ span)
    (more : List UInt8) : rest ++ more = (span ++ more).drop (span.length - rest.length) := by
  obtain ⟨front, rfl⟩ := suffix
  rw [List.length_append, Nat.add_sub_cancel, List.append_assoc, List.drop_left]

theorem parse_consumes_same {span rest : List UInt8} {header : Header}
    (parsed : parse span = .ok (header, rest)) (more : List UInt8) :
    ∃ n ≤ span.length, rest = span.drop n ∧
      parse (span ++ more) = .ok (header, (span ++ more).drop n) := by
  have suffix := (parse_suffix parsed).1
  have stable := parse_stable span more
  rw [parsed] at stable
  refine ⟨span.length - rest.length, Nat.sub_le _ _, suffix_drop suffix, ?_⟩
  rw [stable (by simp [Settled]), extend, suffix_drop_append suffix]

theorem parse_rejects_same {span : List UInt8} {err : ParseError} (named : err ≠ .unexpectedEof)
    (rejected : parse span = .error err) (more : List UInt8) :
    parse (span ++ more) = .error err := by
  have stable := parse_stable span more
  rw [rejected] at stable
  exact stable (by simpa [Settled] using named)

theorem parse_into_settled {span out : List UInt8}
    (settled : (parseChunkedBodyInto span out).err ≠ .unexpectedEof) (more : List UInt8) :
    parseChunkedBodyInto (span ++ more) out = { parseChunkedBodyInto span out with
      span := (parseChunkedBodyInto span out).span ++ more } := by
  rw [parse_into_eq] at settled
  rw [parse_into_eq, parse_into_eq, parse_chunked_body_settled settled]

theorem parse_into_suffix (span out : List UInt8) :
    (parseChunkedBodyInto span out).span <:+ span := by
  rw [parse_into_eq]
  exact parse_chunked_body_suffix span

/-- What the caller has after a failure: its span and its `out`, and how far the chunks that
were accepted reach. -/
structure RolledBack (span out : List UInt8) (body : ChunkedBody) : Prop where
  spanKept : body.span = span
  outKept : body.out = out
  accepted : ∃ data rest, Chunks span data rest ∧
    (∀ chunk behind, ¬ AcceptedChunk rest chunk behind) ∧
      body.completePrefix ≤ span.length ∧ rest = span.drop body.completePrefix

theorem parse_into_rolls_back {span out : List UInt8}
    (failed : (parseChunkedBodyInto span out).err ≠ .none) :
    RolledBack span out (parseChunkedBodyInto span out) := by
  obtain ⟨data, rest, chunks, outcome⟩ := chunks_total span
  rcases outcome with ⟨final, ends⟩ | ⟨err, fails⟩
  · rw [parse_into_ends out chunks ends] at failed
    exact absurd rfl failed
  · rw [parse_into_fails out chunks fails]
    exact ⟨rfl, rfl, data, rest, chunks, fun _ _ => fails.not_accepted, Nat.sub_le _ _,
      suffix_drop chunks.suffix⟩

theorem parse_into_taken_up {span out : List UInt8}
    (failed : (parseChunkedBodyInto span out).err ≠ .none) (more : List UInt8) :
    (parseChunkedBodyInto span out).completePrefix ≤ span.length ∧
      ∃ before, Chunks span before
          (span.drop (parseChunkedBodyInto span out).completePrefix) ∧
        ResumesExactly (span ++ more) out (parseChunkedBodyInto span out).completePrefix before
          (parseChunkedBodyInto (span ++ more) out)
          (parseChunkedBodyInto
            ((span ++ more).drop (parseChunkedBodyInto span out).completePrefix) out) := by
  obtain ⟨before, rest, chunks, -, within, here⟩ := (parse_into_rolls_back failed).accepted
  generalize (parseChunkedBodyInto span out).completePrefix = skipped at within here ⊢
  subst here
  have resumes := parse_into_resumes out (chunks.append more)
  have reached : (span ++ more).length - (span.drop skipped ++ more).length = skipped := by
    simp only [List.length_append, List.length_drop]
    omega
  rw [reached, ← List.drop_append_of_le_length within] at resumes
  exact ⟨within, before, chunks, resumes⟩

/-- More bytes change no outcome but `unexpectedEof`, and a chunked body can be taken up
behind its complete chunks. -/
theorem parsing_resumes (span more out : List UInt8) :
    (∀ header rest, parse span = .ok (header, rest) → ∃ n ≤ span.length, rest = span.drop n ∧
      parse (span ++ more) = .ok (header, (span ++ more).drop n)) ∧
    (∀ err, err ≠ .unexpectedEof → parse span = .error err → parse (span ++ more) = .error err) ∧
    ((parseChunkedBodyInto span out).err = .none → ∃ n ≤ span.length,
      (parseChunkedBodyInto span out).span = span.drop n ∧
        parseChunkedBodyInto (span ++ more) out =
          { parseChunkedBodyInto span out with span := (span ++ more).drop n }) ∧
    ((parseChunkedBodyInto span out).err ≠ .none →
      (parseChunkedBodyInto span out).err ≠ .unexpectedEof →
        parseChunkedBodyInto (span ++ more) out =
          { parseChunkedBodyInto span out with span := span ++ more }) ∧
    ((parseChunkedBodyInto span out).err = .unexpectedEof →
      (parseChunkedBodyInto span out).completePrefix ≤ span.length ∧
        ∃ before, Chunks span before
            (span.drop (parseChunkedBodyInto span out).completePrefix) ∧
          ResumesExactly (span ++ more) out (parseChunkedBodyInto span out).completePrefix before
            (parseChunkedBodyInto (span ++ more) out)
            (parseChunkedBodyInto
              ((span ++ more).drop (parseChunkedBodyInto span out).completePrefix) out)) := by
  refine ⟨fun header rest parsed => parse_consumes_same parsed more,
    fun err named rejected => parse_rejects_same named rejected more, ?_, ?_, ?_⟩
  · intro complete
    have suffix := parse_into_suffix span out
    refine ⟨span.length - (parseChunkedBodyInto span out).span.length, Nat.sub_le _ _,
      suffix_drop suffix, ?_⟩
    rw [parse_into_settled (by rw [complete]; decide), suffix_drop_append suffix]
  · intro failed settled
    rw [parse_into_settled settled, (parse_into_rolls_back failed).spanKept]
  · intro waits
    exact parse_into_taken_up (by rw [waits]; decide) more

end Resuming

section Encoding

/-- A hexadecimal digit, in either case. -/
structure HexDigit where
  digit : Fin 16
  upper : Bool

def HexDigit.char (hex : HexDigit) : UInt8 :=
  if hex.digit.val < 10 then UInt8.ofNat (48 + hex.digit.val)
  else if hex.upper then UInt8.ofNat (55 + hex.digit.val) else UInt8.ofNat (87 + hex.digit.val)

def hexValue (digits : List HexDigit) : Nat :=
  digits.foldl (fun value hex => value * 16 + hex.digit.val) 0

/-- The line in front of a chunk: leading zeros are digits like the others. -/
structure SizeLine where
  digits : List HexDigit
  blanks : List UInt8
  extension : Option (List UInt8)
  present : digits ≠ []
  blank : ∀ byte ∈ blanks, isOws byte = true
  clean : ∀ bytes ∈ extension, code '\r' ∉ bytes

def SizeLine.encode (line : SizeLine) : List UInt8 :=
  line.digits.map HexDigit.char ++
    (line.blanks ++ (line.extension.elim [] fun bytes => code ';' :: bytes))

structure WireChunk where
  size : SizeLine
  data : List UInt8
  present : data ≠ []
  counted : hexValue size.digits = data.length
  small : data.length < 2 ^ 64

def WireChunk.encode (chunk : WireChunk) : List UInt8 :=
  chunk.size.encode ++ (crlf ++ (chunk.data ++ crlf))

structure WireBody where
  chunks : List WireChunk
  last : SizeLine
  trailer : List WireField
  zero : hexValue last.digits = 0

def WireBody.data (body : WireBody) : List UInt8 := (body.chunks.map WireChunk.data).flatten

def WireBody.encode (body : WireBody) : List UInt8 :=
  (body.chunks.map WireChunk.encode).flatten ++
    (body.last.encode ++ (crlf ++ (encodeFields body.trailer ++ crlf)))

theorem hex_char (hex : HexDigit) : hexDigit hex.char = some hex.digit.val ∧
    isOws hex.char = false ∧ hex.char ≠ code ';' ∧ hex.char ≠ code '\r' := by
  rcases hex with ⟨digit, upper⟩
  revert digit upper
  decide

theorem hex_digits_value (digits : List HexDigit) (value : Nat) :
    (digits.map HexDigit.char).foldlM (fun value c => (hexDigit c).map (value * 16 + ·)) value =
      some (digits.foldl (fun value hex => value * 16 + hex.digit.val) value) := by
  induction digits generalizing value with
  | nil => rfl
  | cons hex digits ih =>
      rw [List.map_cons, List.foldlM_cons, (hex_char hex).1]
      exact ih (value * 16 + hex.digit.val)

theorem SizeLine.one_line (line : SizeLine) : code '\r' ∉ line.encode := by
  have digits : code '\r' ∉ line.digits.map HexDigit.char := by
    intro member
    obtain ⟨hex, -, same⟩ := List.mem_map.mp member
    exact (hex_char hex).2.2.2 same
  have blanks : code '\r' ∉ line.blanks :=
    fun member => blank_no_line_end (line.blank _ member) rfl
  simp only [SizeLine.encode, List.mem_append, not_or]
  refine ⟨digits, blanks, ?_⟩
  cases extension : line.extension with
  | none => exact List.not_mem_nil
  | some bytes =>
      have clean := line.clean bytes extension
      have semicolon : code '\r' ≠ code ';' := by decide
      simp [semicolon, clean]

/-- The size is read back up to the largest 64-bit number. -/
theorem SizeLine.parsed (line : SizeLine) (small : hexValue line.digits < 2 ^ 64) :
    parseChunkSize line.encode = .ok (hexValue line.digits) := by
  have front : ∀ byte ∈ line.digits.map HexDigit.char ++ line.blanks,
      decide (byte ≠ code ';') = true := by
    intro byte member
    rw [decide_eq_true_eq]
    rcases List.mem_append.mp member with digit | blank
    · obtain ⟨hex, -, rfl⟩ := List.mem_map.mp digit
      exact (hex_char hex).2.2.1
    · rintro rfl
      exact absurd (line.blank _ blank) (by decide)
  have digits : line.encode.takeWhile (· ≠ code ';') =
      line.digits.map HexDigit.char ++ line.blanks := by
    rw [SizeLine.encode, ← List.append_assoc, List.takeWhile_append_of_pos front]
    cases line.extension with
    | none => simp
    | some bytes => simp
  have trimmed : trimRight (line.digits.map HexDigit.char ++ line.blanks) =
      line.digits.map HexDigit.char := by
    apply trim_right_blanks _ _ line.blank
    intro byte last
    obtain ⟨hex, -, same⟩ := List.mem_map.mp (List.mem_of_getLast? last)
    rw [← same]
    exact (hex_char hex).2.1
  have value : fromCharsHex (line.digits.map HexDigit.char) = some (hexValue line.digits) := by
    have within : ¬ hexValue line.digits > uint64Max := by
      simp only [uint64Max]
      omega
    simp only [fromCharsHex, hex_digits_value]
    exact if_neg within
  have present : line.digits.map HexDigit.char ≠ [] := by
    simpa using line.present
  simp only [parseChunkSize, digits, trimmed, present, if_false, value]

theorem WireChunk.accepted (chunk : WireChunk) (rest : List UInt8) :
    AcceptedChunk (chunk.encode ++ rest) chunk.data rest := by
  have line := read_line_encoded chunk.size.one_line (chunk.data ++ (crlf ++ rest))
  refine ⟨chunk.present, chunk.size.encode, ?_, ?_⟩
  · rw [WireChunk.encode]
    simp only [List.append_assoc]
    exact line
  · rw [chunk.size.parsed (by rw [chunk.counted]; exact chunk.small), chunk.counted]

theorem chunks_encoded (chunks : List WireChunk) (rest : List UInt8) :
    Chunks ((chunks.map WireChunk.encode).flatten ++ rest)
      (chunks.map WireChunk.data).flatten rest := by
  induction chunks with
  | nil => exact .none
  | cons chunk chunks ih =>
      simp only [List.map_cons, List.flatten_cons, List.append_assoc]
      exact ih.cons (chunk.accepted _)

theorem ends_encoded (last : SizeLine) (trailer : List WireField) (rest : List UInt8)
    (zero : hexValue last.digits = 0) :
    EndsBody (last.encode ++ (crlf ++ (encodeFields trailer ++ (crlf ++ rest)))) rest := by
  refine ⟨⟨last.encode ++ (crlf ++ (encodeFields trailer ++ crlf)), by simp⟩, ?_⟩
  intro whole out boundary
  have sized := last.parsed (by rw [zero]; decide)
  simp only [chunkTurn, read_line_encoded last.one_line, sized, zero, if_true,
    parse_fields_encoded]

/-- A written body is read back and leaves what follows it; a failure changes nothing. -/
theorem chunked_body_decodes (body : WireBody) (rest out : List UInt8) :
    parseChunkedBodyInto (body.encode ++ rest) out =
        { err := .none, span := rest, out := out ++ body.data, completePrefix := 0 } ∧
      ∀ span, (parseChunkedBodyInto span out).err ≠ .none →
        RolledBack span out (parseChunkedBodyInto span out) := by
  refine ⟨?_, fun span failed => parse_into_rolls_back failed⟩
  have chunks := chunks_encoded body.chunks
    (body.last.encode ++ (crlf ++ (encodeFields body.trailer ++ (crlf ++ rest))))
  have split : body.encode ++ rest = (body.chunks.map WireChunk.encode).flatten ++
      (body.last.encode ++ (crlf ++ (encodeFields body.trailer ++ (crlf ++ rest)))) := by
    simp [WireBody.encode]
  rw [split]
  exact parse_into_ends out chunks (ends_encoded body.last body.trailer rest body.zero)

/-- A chunk with an extension, the last chunk, no trailer, and a byte that follows. -/
example : parseChunkedBodyInto (text ['0', '2', ' ', ';', 'x'] ++ (crlf ++ (text ['h', 'i'] ++
      (crlf ++ (text ['0'] ++ (crlf ++ (crlf ++ [7]))))))) [9] =
    { err := .none, span := [7], out := 9 :: text ['h', 'i'], completePrefix := 0 } := by
  decide

end Encoding

end PcapAnalyzer.Http
