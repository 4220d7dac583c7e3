import Mathlib.Data.List.TakeWhile
import PcapAnalyzer.Library.GrowingInput
import PcapAnalyzer.Protocols.Http

/-!
# HTTP on a growing stream

More bytes change no outcome of the parsers but `unexpectedEof`. A chunked body that is
still incomplete can be taken up again behind its complete chunks.
-/

namespace PcapAnalyzer

open GrowingInput MeasuredLoop

set_option autoImplicit false

/-- The cut is at the first occurrence. -/
theorem cut_at_iff {c : UInt8} {view before after : List UInt8} :
    cutAt c view = some (before, after) ↔ view = before ++ c :: after ∧ c ∉ before := by
  constructor
  · intro found
    have joined := List.takeWhile_append_dropWhile (p := (· ≠ c)) (l := view)
    unfold cutAt at found
    cases left : view.dropWhile (· ≠ c) with
    | nil =>
        rw [left] at found
        cases found
    | cons byte rest =>
        simp only [left, Option.some.injEq, Prod.mk.injEq] at found
        obtain ⟨rfl, rfl⟩ := found
        have here := List.head?_dropWhile_not (· ≠ c) view
        rw [left] at joined here
        simp only [List.head?_cons, decide_not, Bool.not_eq_eq_eq_not, Bool.not_false,
          decide_eq_true_eq] at here
        rw [here] at joined
        refine ⟨joined.symm, ?_⟩
        intro member
        simpa using List.mem_takeWhile_imp member
  · rintro ⟨rfl, absent⟩
    have all : ∀ byte ∈ before, decide (byte ≠ c) = true := by
      intro byte member
      simp only [decide_eq_true_eq]
      rintro rfl
      exact absent member
    simp only [cutAt, List.dropWhile_append_of_pos all, List.takeWhile_append_of_pos all]
    simp

/-- The cut does not move when the view grows. -/
theorem cut_at_append {c : UInt8} {view before after : List UInt8}
    (found : cutAt c view = some (before, after)) (more : List UInt8) :
    cutAt c (view ++ more) = some (before, after ++ more) := by
  obtain ⟨rfl, absent⟩ := cut_at_iff.mp found
  exact cut_at_iff.mpr ⟨by simp, absent⟩

namespace Http

theorem read_line_crlf_stable : Stable ParseError.unexpectedEof readLineCrlf := by
  intro span more settled
  unfold readLineCrlf at settled ⊢
  cases found : cutAt (code '\r') span with
  | none => simp [Settled, found] at settled
  | some cut =>
      rcases cut with ⟨line, _ | ⟨next, rest⟩⟩
      · simp [Settled, found] at settled
      · rw [cut_at_append found more]
        simp only [List.cons_append]
        split_ifs <;> rfl

/-- A line takes its two-byte end along. -/
theorem read_line_crlf_ok {span line rest : List UInt8}
    (read : readLineCrlf span = .ok (line, rest)) :
    span = line ++ code '\r' :: code '\n' :: rest := by
  unfold readLineCrlf at read
  cases found : cutAt (code '\r') span with
  | none => simp [found] at read
  | some cut =>
      rcases cut with ⟨before, _ | ⟨next, after⟩⟩
      · simp [found] at read
      · simp only [found] at read
        split_ifs at read with ends
        obtain ⟨split, -⟩ := cut_at_iff.mp found
        simp only [Except.ok.injEq, Prod.mk.injEq] at read
        rw [not_not] at ends
        rw [split, read.1, ends, read.2]

theorem fields_turn_decreasing :
    Decreasing fieldsTurn fun cursor => cursor.span.length := by
  intro cursor next turned
  unfold fieldsTurn at turned
  cases read : readLineCrlf cursor.span with
  | error err => simp [read] at turned
  | ok result =>
      rcases result with ⟨line, rest⟩
      simp only [read] at turned
      split_ifs at turned
      cases field : fieldOf line with
      | error err => simp [field] at turned
      | ok field' =>
          simp only [field, Turn.again.injEq] at turned
          have split := congrArg List.length (read_line_crlf_ok read)
          simp only [List.length_append, List.length_cons] at split
          simp only [← turned]
          omega

/-- A turn on a longer span does the same to it, as long as it does not ask for more. -/
theorem fields_turn_ahead (cursor : FieldCursor) (more : List UInt8) :
    fieldsTurn { cursor with span := cursor.span ++ more } =
      match fieldsTurn cursor with
      | .again next => .again { next with span := next.span ++ more }
      | .leave result =>
          if result = .error .unexpectedEof then
            fieldsTurn { cursor with span := cursor.span ++ more }
          else .leave (extend more result) := by
  have moved := read_line_crlf_stable cursor.span more
  cases read : readLineCrlf cursor.span with
  | error err =>
      have same : fieldsTurn cursor = .leave (.error err) := by simp [fieldsTurn, read]
      rw [same]
      simp only [Except.error.injEq]
      split_ifs with waits
      · rfl
      · rw [read] at moved
        have longer := moved (by simpa [Settled] using waits)
        simp [fieldsTurn, longer, extend]
  | ok result =>
      rcases result with ⟨line, rest⟩
      rw [read] at moved
      have longer := moved (by simp [Settled])
      simp only [fieldsTurn, read, longer, extend]
      split_ifs
      · simp
      · cases fieldOf line with
        | error err =>
            simp only [Except.error.injEq]
            split_ifs with waits
            · rw [waits]
            · rfl
        | ok field => rfl

theorem parse_fields_stable : Stable ParseError.unexpectedEof parseFields := by
  intro span more
  refine run_ahead (fun _ => .error .unexpectedEof) (fun _ => .error .unexpectedEof)
    fields_turn_decreasing fields_turn_decreasing
    (fun behind ahead => ahead = { behind with span := behind.span ++ more })
    (fun result result' => Settled ParseError.unexpectedEof result → result' = extend more result)
    ?_ ?_ { span := span } _ rfl
  · rintro behind _ next rfl turned
    exact ⟨_, by rw [fields_turn_ahead, turned], rfl⟩
  · rintro behind _ result rfl turned settled
    refine run_leave fields_turn_decreasing (Nat.lt_succ_self _) ?_
    rw [fields_turn_ahead, turned]
    simp only
    exact if_neg settled

theorem read_line_crlf_suffix {span line rest : List UInt8}
    (read : readLineCrlf span = .ok (line, rest)) :
    rest <:+ span ∧ rest.length < span.length := by
  rw [read_line_crlf_ok read]
  exact ⟨⟨line ++ [code '\r', code '\n'], by simp⟩, by simp; omega⟩

/-- What the fields leave is the end of what they were given. -/
theorem parse_fields_suffix {span rest : List UInt8} {fields : List Field}
    (parsed : parseFields span = .ok (fields, rest)) : rest <:+ span := by
  have leaves : ∀ fields rest, parseFields span = .ok (fields, rest) → rest <:+ span := by
    refine run_invariant fields_turn_decreasing (fun cursor => cursor.span <:+ span)
      (fun result => ∀ fields rest, result = .ok (fields, rest) → rest <:+ span) ?_ ?_ _
      { span := span } (Nat.lt_succ_self _) List.suffix_rfl
    · intro cursor next inside turned
      unfold fieldsTurn at turned
      split at turned
      · cases turned
      · next line rest read =>
          have suffix := (read_line_crlf_suffix read).1
          split_ifs at turned
          split at turned
          · cases turned
          · cases turned
            exact suffix.trans inside
    · intro cursor result inside turned fields rest same
      unfold fieldsTurn at turned
      split at turned
      · cases turned
        cases same
      · next line rest' read =>
          have suffix := (read_line_crlf_suffix read).1
          split_ifs at turned
          · cases turned
            cases same
            exact suffix.trans inside
          · split at turned
            · cases turned
              cases same
            · cases turned
  exact leaves fields rest parsed

theorem read_line_crlf_error (span : List UInt8) : readLineCrlf span ≠ .error .none := by
  unfold readLineCrlf
  split
  · simp
  · simp
  · split_ifs <;> simp

theorem parse_chunk_size_error (line : List UInt8) : parseChunkSize line ≠ .error .none := by
  unfold parseChunkSize
  simp only
  split_ifs
  · simp
  · split <;> simp

theorem field_of_error (line : List UInt8) : fieldOf line ≠ .error .none := by
  unfold fieldOf
  split_ifs
  · simp
  · split
    · simp
    · simp only
      split_ifs <;> simp

theorem parse_fields_error (span : List UInt8) : parseFields span ≠ .error .none := by
  refine run_invariant fields_turn_decreasing (fun _ => True) (· ≠ .error .none)
    (fun _ _ _ _ => trivial) ?_ _ { span := span } (Nat.lt_succ_self _) trivial
  intro cursor result _ turned
  unfold fieldsTurn at turned
  split at turned
  · next err read =>
      cases turned
      have lineError := read_line_crlf_error cursor.span
      rw [read] at lineError
      simpa using lineError
  · split_ifs at turned
    · cases turned
      simp
    · next line _ _ _ =>
        have named := field_of_error line
        split at turned
        · next err field =>
            cases turned
            rw [field] at named
            simpa using named
        · cases turned

theorem parse_start_line_eq : parseStartLine =
    andThen readLineCrlf (check startLine) := by
  funext span
  unfold parseStartLine andThen check
  cases readLineCrlf span with
  | error err => rfl
  | ok result =>
      cases header : startLine result.1 <;> simp [header, bind, Except.bind]

theorem parse_eq : parse = andThen parseStartLine fun header =>
    andThen parseFields fun fields => check parseFraming { header with fields := fields } := by
  funext span
  unfold parse andThen check
  cases parseStartLine span with
  | error err => rfl
  | ok result =>
      cases fields : parseFields result.2 with
      | error err => simp [fields, bind, Except.bind]
      | ok result' =>
          cases framed : parseFraming { result.1 with fields := result'.1 } <;>
            simp [fields, framed, bind, Except.bind]

/-- More bytes change neither a header that has been read nor a syntax error. -/
theorem parse_stable : Stable ParseError.unexpectedEof parse := by
  rw [parse_eq, parse_start_line_eq]
  refine Stable.andThen (read_line_crlf_stable.andThen (check_stable startLine)) fun header => ?_
  exact parse_fields_stable.andThen fun fields => check_stable parseFraming _

/-- A header that is read takes at least one line. -/
theorem parse_suffix {span rest : List UInt8} {header : Header}
    (parsed : parse span = .ok (header, rest)) : rest <:+ span ∧ rest.length < span.length := by
  rw [parse_eq, parse_start_line_eq] at parsed
  unfold andThen check at parsed
  cases read : readLineCrlf span with
  | error err => simp [read] at parsed
  | ok result =>
      rcases result with ⟨line, afterLine⟩
      have line := read_line_crlf_suffix read
      simp only [read] at parsed
      split at parsed
      · next start rest started =>
          split at started
          · cases started
            split at parsed
            · next fields afterFields parsedFields =>
                have fields := parse_fields_suffix parsedFields
                split at parsed
                · cases parsed
                  exact ⟨fields.trans line.1, Nat.lt_of_le_of_lt fields.length_le line.2⟩
                · cases parsed
            · cases parsed
          · cases started
      · cases parsed

/-- A chunk at the front of the span, its terminator included. -/
structure AcceptedChunk (span data rest : List UInt8) : Prop where
  present : data ≠ []
  read : ∃ sizeLine, readLineCrlf span = .ok (sizeLine, data ++ code '\r' :: code '\n' :: rest) ∧
    parseChunkSize sizeLine = .ok data.length

theorem AcceptedChunk.suffix {span data rest : List UInt8}
    (chunk : AcceptedChunk span data rest) : rest <:+ span ∧ rest.length < span.length := by
  obtain ⟨sizeLine, read, -⟩ := chunk.read
  rw [read_line_crlf_ok read]
  constructor
  · exact ⟨sizeLine ++ [code '\r', code '\n'] ++ data ++ [code '\r', code '\n'], by simp⟩
  · simp only [List.length_append, List.length_cons]
    omega

theorem chunk_turn_accepted {span data rest : List UInt8} (chunk : AcceptedChunk span data rest)
    (whole out : List UInt8) (boundary : Nat) :
    chunkTurn whole { span := span, out := out, boundary := boundary } =
      .again { span := rest, out := out ++ data, boundary := whole.length - rest.length } := by
  obtain ⟨sizeLine, read, sized⟩ := chunk.read
  have nonzero : data.length ≠ 0 := by
    rw [ne_eq, List.length_eq_zero_iff]
    exact chunk.present
  have enough : ¬ (data ++ code '\r' :: code '\n' :: rest).length < data.length := by
    rw [List.length_append]
    omega
  have ended : readLineCrlf (code '\r' :: code '\n' :: rest) = .ok ([], rest) := by
    have found : cutAt (code '\r') (code '\r' :: code '\n' :: rest) =
        some ([], code '\n' :: rest) :=
      cut_at_iff.mpr ⟨rfl, List.not_mem_nil⟩
    simp [readLineCrlf, found]
  simp only [chunkTurn, read, sized, if_neg nonzero, if_neg enough, List.drop_left, ended,
    List.take_left, ne_eq, not_true_eq_false, if_false]

/-- What a turn does is decided by the span it starts from. -/
theorem chunk_turn_cases (span : List UInt8) :
    (∃ data rest, AcceptedChunk span data rest) ∨
    (∃ rest, rest <:+ span ∧ ∀ whole out boundary,
      chunkTurn whole { span := span, out := out, boundary := boundary } =
        .leave { err := .none, span := rest, out := out, completePrefix := 0 }) ∨
    ∃ err, err ≠ .none ∧ ∀ whole out boundary,
      chunkTurn whole { span := span, out := out, boundary := boundary } =
        .leave { err := err, span := whole, out := [], completePrefix := boundary } := by
  unfold chunkTurn
  simp only
  have lineError := read_line_crlf_error span
  cases read : readLineCrlf span with
  | error err =>
      rw [read] at lineError
      exact .inr (.inr ⟨err, by simpa using lineError, fun _ _ _ => rfl⟩)
  | ok result =>
      rcases result with ⟨sizeLine, rest⟩
      have size := (read_line_crlf_suffix read).1
      simp only
      have sizeError := parse_chunk_size_error sizeLine
      cases sized : parseChunkSize sizeLine with
      | error err =>
          rw [sized] at sizeError
          exact .inr (.inr ⟨err, by simpa using sizeError, fun _ _ _ => rfl⟩)
      | ok chunkSize =>
          simp only
          by_cases last : chunkSize = 0
          · simp only [last, if_true]
            have fieldsError := parse_fields_error rest
            cases fields : parseFields rest with
            | error err =>
                rw [fields] at fieldsError
                exact .inr (.inr ⟨err, by simpa using fieldsError, fun _ _ _ => rfl⟩)
            | ok result =>
                exact .inr (.inl ⟨result.2, (parse_fields_suffix fields).trans size,
                  fun _ _ _ => rfl⟩)
          by_cases short : rest.length < chunkSize
          · simp only [last, short, if_false, if_true]
            exact .inr (.inr ⟨.unexpectedEof, by decide, fun _ _ _ => rfl⟩)
          simp only [last, short, if_false]
          have endError := read_line_crlf_error (rest.drop chunkSize)
          cases ended : readLineCrlf (rest.drop chunkSize) with
          | error err =>
              rw [ended] at endError
              exact .inr (.inr ⟨err, by simpa using endError, fun _ _ _ => rfl⟩)
          | ok result =>
              rcases result with ⟨terminator, rest'⟩
              by_cases empty : terminator = []
              · left
                have counted : (rest.take chunkSize).length = chunkSize := by
                  rw [List.length_take]
                  omega
                have terminated := read_line_crlf_ok ended
                rw [empty, List.nil_append] at terminated
                refine ⟨rest.take chunkSize, rest', ?_, sizeLine, ?_, ?_⟩
                · rintro none
                  rw [none] at counted
                  exact last counted.symm
                · rw [read, ← terminated, List.take_append_drop]
                · rw [sized, counted]
              · exact .inr (.inr ⟨.malformedHeader, by decide, fun _ _ _ => by simp [empty]⟩)

/-- A turn takes a chunk from the front of the span. -/
theorem chunk_turn_again {span : List UInt8} {cursor next : ChunkCursor}
    (turned : chunkTurn span cursor = .again next) :
    next.span <:+ cursor.span ∧ next.span.length < cursor.span.length ∧
      next.boundary = span.length - next.span.length := by
  rcases chunk_turn_cases cursor.span with ⟨data, rest, chunk⟩ | ⟨rest, -, ends⟩ | ⟨err, -, fails⟩
  · cases (chunk_turn_accepted chunk span cursor.out cursor.boundary).symm.trans turned
    exact ⟨chunk.suffix.1, chunk.suffix.2, rfl⟩
  · cases (ends span cursor.out cursor.boundary).symm.trans turned
  · cases (fails span cursor.out cursor.boundary).symm.trans turned

theorem chunk_turn_decreasing (span : List UInt8) :
    Decreasing (chunkTurn span) fun cursor => cursor.span.length :=
  fun _ _ turned => (chunk_turn_again turned).2.1

theorem AcceptedChunk.append {span data rest : List UInt8} (chunk : AcceptedChunk span data rest)
    (more : List UInt8) : AcceptedChunk (span ++ more) data (rest ++ more) := by
  obtain ⟨sizeLine, read, sized⟩ := chunk.read
  have stable := read_line_crlf_stable span more
  rw [read] at stable
  refine ⟨chunk.present, sizeLine, ?_, sized⟩
  rw [stable (by simp [Settled])]
  simp [extend]

/-- A chunk that is taken from a span is taken from a longer one. -/
theorem chunk_turn_again_ahead {span : List UInt8} {cursor next : ChunkCursor}
    (turned : chunkTurn span cursor = .again next) (more : List UInt8) :
    chunkTurn (span ++ more) { cursor with span := cursor.span ++ more } =
      .again { next with span := next.span ++ more } := by
  rcases chunk_turn_cases cursor.span with ⟨data, rest, chunk⟩ | ⟨rest, -, ends⟩ | ⟨err, -, fails⟩
  · cases (chunk_turn_accepted chunk span cursor.out cursor.boundary).symm.trans turned
    rw [chunk_turn_accepted (chunk.append more), List.length_append, List.length_append,
      Nat.add_sub_add_right]
  · cases (ends span cursor.out cursor.boundary).symm.trans turned
  · cases (fails span cursor.out cursor.boundary).symm.trans turned

/-- The body ends on a longer span as it does here, as long as it does not ask for more. -/
theorem chunk_turn_leave_ahead {span : List UInt8} {cursor : ChunkCursor} {body : ChunkedBody}
    (turned : chunkTurn span cursor = .leave body) (settled : body.err ≠ .unexpectedEof)
    (more : List UInt8) :
    chunkTurn (span ++ more) { cursor with span := cursor.span ++ more } =
      .leave { body with span := body.span ++ more } := by
  have lineStable := read_line_crlf_stable cursor.span more
  unfold chunkTurn at turned ⊢
  simp only at turned ⊢
  cases read : readLineCrlf cursor.span with
  | error err =>
      rw [read] at lineStable turned
      cases turned
      rw [lineStable (by simpa [Settled] using settled)]
      rfl
  | ok result =>
      rcases result with ⟨sizeLine, rest⟩
      rw [read] at lineStable turned
      rw [lineStable (by simp [Settled])]
      simp only [extend] at turned ⊢
      cases sized : parseChunkSize sizeLine with
      | error err =>
          rw [sized] at turned
          cases turned
          rfl
      | ok chunkSize =>
          rw [sized] at turned
          simp only at turned ⊢
          by_cases last : chunkSize = 0
          · simp only [last, if_true] at turned ⊢
            have fieldsStable := parse_fields_stable rest more
            cases fields : parseFields rest with
            | error err =>
                rw [fields] at fieldsStable turned
                cases turned
                rw [fieldsStable (by simpa [Settled] using settled)]
                rfl
            | ok result =>
                rw [fields] at fieldsStable turned
                cases turned
                rw [fieldsStable (by simp [Settled])]
                rfl
          by_cases short : rest.length < chunkSize
          · simp only [last, short, if_false, if_true] at turned
            cases turned
            exact absurd rfl settled
          have enough : ¬ (rest ++ more).length < chunkSize := by
            rw [List.length_append]
            omega
          simp only [last, short, enough, if_false,
            List.drop_append_of_le_length (Nat.le_of_not_lt short)] at turned ⊢
          have endStable := read_line_crlf_stable (rest.drop chunkSize) more
          cases ended : readLineCrlf (rest.drop chunkSize) with
          | error err =>
              rw [ended] at endStable turned
              cases turned
              rw [endStable (by simpa [Settled] using settled)]
              rfl
          | ok result =>
              rw [ended] at endStable turned
              rw [endStable (by simp [Settled])]
              simp only [extend] at turned ⊢
              by_cases open_ : result.1 ≠ []
              · rw [if_pos open_] at turned ⊢
                cases turned
                rfl
              · rw [if_neg open_] at turned
                cases turned

theorem chunk_turn_fails {span : List UInt8} {cursor : ChunkCursor} {body : ChunkedBody}
    (turned : chunkTurn span cursor = .leave body) (failed : body.err ≠ .none) :
    body.completePrefix = cursor.boundary := by
  rcases chunk_turn_cases cursor.span with ⟨data, rest, chunk⟩ | ⟨rest, -, ends⟩ | ⟨err, -, fails⟩
  · cases (chunk_turn_accepted chunk span cursor.out cursor.boundary).symm.trans turned
  · cases (ends span cursor.out cursor.boundary).symm.trans turned
    exact absurd rfl failed
  · cases (fails span cursor.out cursor.boundary).symm.trans turned
    rfl

/-- Whatever the outcome, the body leaves an end of what it was given. -/
theorem parse_chunked_body_suffix (span : List UInt8) : (parseChunkedBody span).span <:+ span := by
  refine run_invariant (chunk_turn_decreasing span) (fun cursor => cursor.span <:+ span)
    (fun body => body.span <:+ span) ?_ ?_ _ { span := span } (Nat.lt_succ_self _) List.suffix_rfl
  · intro cursor next inside turned
    exact (chunk_turn_again turned).1.trans inside
  · intro cursor body inside turned
    rcases chunk_turn_cases cursor.span with ⟨data, rest, chunk⟩ | ⟨rest, left, ends⟩ |
      ⟨err, -, fails⟩
    · cases (chunk_turn_accepted chunk span cursor.out cursor.boundary).symm.trans turned
    · cases (ends span cursor.out cursor.boundary).symm.trans turned
      exact left.trans inside
    · cases (fails span cursor.out cursor.boundary).symm.trans turned
      exact List.suffix_rfl

/-- More bytes change no outcome but `unexpectedEof`. -/
theorem parse_chunked_body_settled {span : List UInt8}
    (settled : (parseChunkedBody span).err ≠ .unexpectedEof) (more : List UInt8) :
    parseChunkedBody (span ++ more) =
      { parseChunkedBody span with span := (parseChunkedBody span).span ++ more } := by
  have runs := run_ahead
    (fun _ => { err := .unexpectedEof, span := span, out := [], completePrefix := 0 })
    (fun _ => { err := .unexpectedEof, span := span ++ more, out := [], completePrefix := 0 })
    (chunk_turn_decreasing span) (chunk_turn_decreasing (span ++ more))
    (fun behind ahead => ahead = { behind with span := behind.span ++ more })
    (fun body body' => body.err ≠ .unexpectedEof →
      body' = { body with span := body.span ++ more })
    ?_ ?_ { span := span } { span := span ++ more } rfl
  · exact runs settled
  · rintro behind _ next rfl turned
    exact ⟨_, chunk_turn_again_ahead turned more, rfl⟩
  · rintro behind _ body rfl turned complete
    exact run_leave (chunk_turn_decreasing _) (Nat.lt_succ_self _)
      (chunk_turn_leave_ahead turned complete more)

/-- The outcome for a whole body and that for what is left behind its first `skipped` bytes. -/
structure Resumes (skipped : Nat) (whole left : ChunkedBody) : Prop where
  err : whole.err = left.err
  span : left.err = .none → whole.span = left.span
  completePrefix : left.err ≠ .none → whole.completePrefix = skipped + left.completePrefix

theorem Resumes.trans {first second : Nat} {whole middle left : ChunkedBody}
    (outer : Resumes first whole middle) (inner : Resumes second middle left) :
    Resumes (first + second) whole left where
  err := outer.err.trans inner.err
  span := fun complete => (outer.span (inner.err ▸ complete)).trans (inner.span complete)
  completePrefix := fun failed => by
    rw [outer.completePrefix (inner.err ▸ failed), inner.completePrefix failed, Nat.add_assoc]

/-- A turn behind the first `skipped` bytes is a turn on the whole body. -/
theorem chunk_turn_resumes {span : List UInt8} {skipped : Nat} (out : List UInt8)
    {cursor : ChunkCursor} (inside : cursor.span <:+ span.drop skipped)
    (within : skipped ≤ span.length) :
    let whole : ChunkCursor :=
      { span := cursor.span, out := out ++ cursor.out, boundary := skipped + cursor.boundary }
    (∀ next, chunkTurn (span.drop skipped) cursor = .again next →
      chunkTurn span whole = .again
        { span := next.span, out := out ++ next.out, boundary := skipped + next.boundary }) ∧
    ∀ body, chunkTurn (span.drop skipped) cursor = .leave body →
      ∃ body', chunkTurn span whole = .leave body' ∧ Resumes skipped body' body := by
  rcases chunk_turn_cases cursor.span with ⟨data, rest, chunk⟩ | ⟨rest, -, ends⟩ |
    ⟨err, named, fails⟩
  · have bound := (chunk.suffix.1.trans inside).length_le
    rw [List.length_drop] at bound
    have here := chunk_turn_accepted chunk (span.drop skipped) cursor.out cursor.boundary
    constructor
    · intro next turned
      cases here.symm.trans turned
      have behind : skipped + ((span.drop skipped).length - rest.length) =
          span.length - rest.length := by
        rw [List.length_drop]
        omega
      rw [chunk_turn_accepted chunk, List.append_assoc, behind]
    · intro body turned
      cases here.symm.trans turned
  · have here := ends (span.drop skipped) cursor.out cursor.boundary
    constructor
    · intro next turned
      cases here.symm.trans turned
    · intro body turned
      cases here.symm.trans turned
      exact ⟨_, ends span _ _, rfl, fun _ => rfl, fun failed => absurd rfl failed⟩
  · have here := fails (span.drop skipped) cursor.out cursor.boundary
    constructor
    · intro next turned
      cases here.symm.trans turned
    · intro body turned
      cases here.symm.trans turned
      exact ⟨_, fails span _ _, rfl, fun none => absurd none named, fun _ => rfl⟩

/-- The loop from a cursor behind the first `skipped` bytes does what it does on those alone. -/
theorem run_chunks_resumes (span : List UInt8) (skipped : Nat) (out : List UInt8)
    (spent : ChunkCursor → ChunkedBody) (within : skipped ≤ span.length) :
    Resumes skipped
      (run (chunkTurn span) spent ((span.drop skipped).length + 1)
        { span := span.drop skipped, out := out, boundary := skipped })
      (parseChunkedBody (span.drop skipped)) := by
  refine run_ahead
    (fun _ => { err := .unexpectedEof, span := span.drop skipped, out := [], completePrefix := 0 })
    spent (chunk_turn_decreasing (span.drop skipped)) (chunk_turn_decreasing span)
    (fun cursor whole => cursor.span <:+ span.drop skipped ∧ whole =
      { span := cursor.span, out := out ++ cursor.out, boundary := skipped + cursor.boundary })
    (fun body whole => Resumes skipped whole body)
    ?_ ?_ { span := span.drop skipped }
    { span := span.drop skipped, out := out, boundary := skipped } ⟨List.suffix_rfl, by simp⟩
  · rintro cursor _ next ⟨inside, rfl⟩ turned
    exact ⟨_, (chunk_turn_resumes out inside within).1 next turned,
      (chunk_turn_again turned).1.trans inside, rfl⟩
  · rintro cursor _ body ⟨inside, rfl⟩ turned
    obtain ⟨whole, left, resumes⟩ := (chunk_turn_resumes out inside within).2 body turned
    rw [run_leave (chunk_turn_decreasing span) (Nat.lt_succ_self _) left]
    exact resumes

/-- The complete chunks need not be parsed again, however the body goes on. -/
theorem parse_chunked_body_resumes {span : List UInt8}
    (incomplete : (parseChunkedBody span).err = .unexpectedEof) :
    (parseChunkedBody span).completePrefix ≤ span.length ∧
      ∀ more, Resumes (parseChunkedBody span).completePrefix (parseChunkedBody (span ++ more))
        (parseChunkedBody ((span ++ more).drop (parseChunkedBody span).completePrefix)) := by
  -- the turns on the longer span keep pace until more bytes are needed
  have runs := fun more => run_ahead
    (fun _ => { err := .unexpectedEof, span := span, out := [], completePrefix := 0 })
    (fun _ => { err := .unexpectedEof, span := span ++ more, out := [], completePrefix := 0 })
    (chunk_turn_decreasing span) (chunk_turn_decreasing (span ++ more))
    (fun behind ahead => ahead = { behind with span := behind.span ++ more } ∧
      behind.span <:+ span ∧ behind.boundary + behind.span.length = span.length)
    (fun body body' => body.err = .unexpectedEof → body.completePrefix ≤ span.length ∧
      Resumes body.completePrefix body' (parseChunkedBody ((span ++ more).drop body.completePrefix)))
    ?_ ?_ { span := span } { span := span ++ more } ⟨rfl, List.suffix_rfl, Nat.zero_add _⟩
  · exact ⟨(runs [] incomplete).1, fun more => (runs more incomplete).2⟩
  · rintro behind _ next ⟨rfl, inside, passed⟩ turned
    obtain ⟨suffix, -, boundary⟩ := chunk_turn_again turned
    have shorter := (suffix.trans inside).length_le
    exact ⟨_, chunk_turn_again_ahead turned more, rfl, suffix.trans inside,
      by rw [boundary]; omega⟩
  · rintro behind _ body ⟨rfl, inside, passed⟩ turned waits
    have boundary := chunk_turn_fails turned (by rw [waits]; decide)
    have left : (span ++ more).drop behind.boundary = behind.span ++ more := by
      obtain ⟨front, rfl⟩ := inside
      rw [List.length_append, Nat.add_right_cancel_iff] at passed
      rw [passed, List.append_assoc, List.drop_left]
    rw [boundary]
    refine ⟨by omega, ?_⟩
    have whole := run_chunks_resumes (span ++ more) behind.boundary behind.out
      (fun _ => { err := .unexpectedEof, span := span ++ more, out := [], completePrefix := 0 })
      (by rw [List.length_append]; omega)
    simpa only [left] using whole

end Http

end PcapAnalyzer
