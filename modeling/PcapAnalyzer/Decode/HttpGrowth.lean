import PcapAnalyzer.Decode.HttpReader

/-!
# More bytes for the HTTP reader

What the reader finds at the front of its bytes it finds there when more have arrived. The
search for a message start may go on where it stopped, and a chunked body be taken up
behind its complete chunks.
-/

namespace PcapAnalyzer

open GrowingInput MeasuredLoop

set_option autoImplicit false

section Front

/-- The header is parsed in the window, and what the window leaves out follows it. -/
theorem parse_front_eq (input : List UInt8) :
    parseFront input = extend (input.drop maxHttpHeaderBytes)
      (Http.parse (input.take maxHttpHeaderBytes)) := by
  have window : input.take (min input.length maxHttpHeaderBytes) = input.take maxHttpHeaderBytes := by
    rw [List.take_eq_take_iff]
    omega
  unfold parseFront
  simp only [window]
  cases parsed : Http.parse (input.take maxHttpHeaderBytes) with
  | error err => rfl
  | ok result =>
      rcases result with ⟨header, rest⟩
      obtain ⟨front, split⟩ := (Http.parse_suffix parsed).1
      have sizes := congrArg List.length split
      rw [List.length_append, List.length_take] at sizes
      have whole : input = front ++ (rest ++ input.drop maxHttpHeaderBytes) := by
        rw [← List.append_assoc, split, List.take_append_drop]
      have passed : min input.length maxHttpHeaderBytes - rest.length = front.length := by omega
      simp only [bind, Except.bind, extend, passed]
      conv_lhs => rw [whole]
      rw [List.drop_left]

theorem extend_extend {Value : Type} (first second : List UInt8)
    (outcome : Except ParseError (Value × List UInt8)) :
    extend second (extend first outcome) = extend (first ++ second) outcome := by
  cases outcome with
  | error err => rfl
  | ok result => simp [extend]

/-- A header that has been read, or has no room, is the same however the stream goes on. -/
theorem parse_front_append {input : List UInt8}
    (settled : parseFront input ≠ .error .unexpectedEof ∨ input.length > maxHttpHeaderBytes)
    (more : List UInt8) : parseFront (input ++ more) = extend more (parseFront input) := by
  rw [parse_front_eq, parse_front_eq, extend_extend, List.take_append, List.drop_append]
  by_cases full : maxHttpHeaderBytes ≤ input.length
  · rw [Nat.sub_eq_zero_of_le full, List.take_zero, List.append_nil, List.drop_zero]
  · have short : input.length ≤ maxHttpHeaderBytes := by omega
    have known : Settled ParseError.unexpectedEof (Http.parse (input.take maxHttpHeaderBytes)) := by
      intro waits
      have waiting : parseFront input = .error .unexpectedEof := by
        rw [parse_front_eq, waits]
        rfl
      rcases settled with settled | long
      · exact settled waiting
      · omega
    rw [Http.parse_stable _ _ known, extend_extend, List.drop_eq_nil_of_le short, List.nil_append,
      List.nil_append, List.take_append_drop]

theorem http_front_append_malformed {input : List UInt8} (malformed : httpFront input = .malformed)
    (more : List UInt8) : httpFront (input ++ more) = .malformed := by
  have grown := @parse_front_append input
  unfold httpFront at malformed ⊢
  cases parsed : parseFront input with
  | error err =>
      rw [parsed] at malformed grown
      by_cases waits : err = .unexpectedEof
      · subst waits
        have endless : input.length > maxHttpHeaderBytes := by
          by_contra short
          simp [short] at malformed
        have longer : (input ++ more).length > maxHttpHeaderBytes := by
          rw [List.length_append]
          omega
        rw [grown (.inr endless) more]
        simp only [extend, longer, if_true]
      · rw [grown (.inl (by simpa using waits)) more]
        cases err <;> first | rfl | exact absurd rfl waits
  | ok result =>
      rw [parsed] at malformed
      cases malformed

theorem http_front_append_message {input span : List UInt8} {header : Http.Header}
    (front : httpFront input = .message header span) (more : List UInt8) :
    httpFront (input ++ more) = .message header (span ++ more) := by
  rw [http_front_message] at front ⊢
  rw [parse_front_append (.inl (by simp [front])) more, front]
  rfl

variable {head : List UInt8} {header : Http.Header}

/-- A complete header is read, whatever follows it. -/
theorem http_front_header (parsed : Http.parse head = .ok (header, []))
    (fits : head.length ≤ maxHttpHeaderBytes) (more : List UInt8) :
    httpFront (head ++ more) = .message header more := by
  have alone : parseFront head = .ok (header, []) := by
    rw [parse_front_eq, List.take_of_length_le fits, parsed, List.drop_eq_nil_of_le fits]
    rfl
  exact http_front_append_message (http_front_message.mpr alone) more

/-- A header that is cut is waited for. -/
theorem http_front_cut (parsed : Http.parse head = .ok (header, []))
    (fits : head.length ≤ maxHttpHeaderBytes) {start : List UInt8} (beginning : start <+: head)
    (proper : start ≠ head) : httpFront start = .waiting := by
  have whole := http_front_header parsed fits []
  rw [List.append_nil] at whole
  obtain ⟨missing, rejoined⟩ := beginning
  cases front : httpFront start with
  | waiting => rfl
  | malformed =>
      have malformed := http_front_append_malformed front missing
      rw [rejoined, whole] at malformed
      cases malformed
  | message header span =>
      have complete := http_front_append_message front missing
      rw [rejoined, whole, HttpFront.message.injEq] at complete
      have none := (List.append_eq_nil_iff.mp complete.2.symm).2
      rw [none, List.append_nil] at rejoined
      exact absurd rejoined proper

end Front

section Resync

theorem http_marker_size {marker : List UInt8} (member : marker ∈ httpMarkers) :
    marker.length ≤ 8 ∧ marker ≠ [] ∧ code '\n' ∉ marker := by
  have all : httpMarkers.all (fun marker =>
      marker.length ≤ 8 && marker ≠ [] && !marker.contains (code '\n')) = true := by decide
  have checked := List.all_eq_true.mp all marker member
  simpa [and_assoc] using checked

theorem resync_at_iff {buf : List UInt8} {p : Nat} :
    resyncAt buf p = true ↔ byteAt buf p = code '\n' ∧ 2 ≤ p ∧ byteAt buf (p - 1) = code '\r' ∧
      ∃ marker ∈ httpMarkers, marker <+: buf.drop (p + 1) := by
  simp [resyncAt, and_assoc]

/-- A message start lies inside the buffer. -/
theorem resync_at_inside {buf : List UInt8} {p : Nat} (found : resyncAt buf p = true) :
    p + 1 < buf.length := by
  obtain ⟨-, -, -, marker, member, starts⟩ := resync_at_iff.mp found
  have size := starts.length_le
  have positive := List.length_pos_of_ne_nil (http_marker_size member).2.1
  rw [List.length_drop] at size
  omega

theorem resync_at_append {buf : List UInt8} {p : Nat} (found : resyncAt buf p = true)
    (more : List UInt8) : resyncAt (buf ++ more) p = true := by
  have inside := resync_at_inside found
  obtain ⟨feed, early, ret, marker, member, starts⟩ := resync_at_iff.mp found
  refine resync_at_iff.mpr ⟨?_, early, ?_, marker, member, ?_⟩
  · rwa [byte_at_append_left _ _ _ (by omega)]
  · rwa [byte_at_append_left _ _ _ (by omega)]
  · rw [List.drop_append_of_le_length (by omega)]
    exact starts.trans (List.prefix_append _ _)

/-- A message start that only more bytes reveal reaches beyond the buffer, and no line ends
between the two. -/
theorem resync_at_revealed {buf more : List UInt8} {p : Nat} (hidden : resyncAt buf p = false)
    (found : resyncAt (buf ++ more) p = true) :
    buf.length < p + 9 ∧ ∀ q, p < q → q < buf.length → byteAt buf q ≠ code '\n' := by
  obtain ⟨feed, early, ret, marker, member, starts⟩ := resync_at_iff.mp found
  obtain ⟨size, -, noFeed⟩ := http_marker_size member
  by_cases outside : buf.length ≤ p
  · exact ⟨by omega, by omega⟩
  rw [List.drop_append_of_le_length (by omega)] at starts
  have reaches : ¬ marker <+: buf.drop (p + 1) := by
    intro shown
    rw [byte_at_append_left _ _ _ (by omega)] at feed ret
    have known := resync_at_iff.mpr ⟨feed, early, ret, marker, member, shown⟩
    rw [known] at hidden
    cases hidden
  have longer : (buf.drop (p + 1)).length < marker.length := by
    by_contra short
    exact reaches (List.prefix_of_prefix_length_le starts (List.prefix_append _ _) (by omega))
  have covers : buf.drop (p + 1) <+: marker :=
    List.prefix_of_prefix_length_le (List.prefix_append _ _) starts longer.le
  rw [List.length_drop] at longer
  refine ⟨by omega, ?_⟩
  intro q after inside same
  refine noFeed (covers.subset ?_)
  rw [← same, byteAt, List.getD_eq_getElem _ _ inside]
  refine List.mem_drop_iff_getElem.mpr ⟨q - (p + 1), by omega, ?_⟩
  congr 1
  omega

/-- Whether a message starts behind a line is known nine bytes on. -/
theorem resync_at_known {buf : List UInt8} {p : Nat} (room : p + 9 ≤ buf.length)
    (more : List UInt8) : resyncAt (buf ++ more) p = resyncAt buf p := by
  cases known : resyncAt buf p with
  | true => exact resync_at_append known more
  | false =>
      by_contra differs
      have beyond := (resync_at_revealed known (by simpa using differs)).1
      omega

/-- The lower bound 1 of the search excludes nothing. -/
theorem find_http_resync_eq (buf : List UInt8) (start : Nat) :
    findHttpResync buf start =
      ((List.range buf.length).find? fun p => start ≤ p && resyncAt buf p).map (· + 1) := by
  have same : (fun p => decide (p ≥ max start 1) && resyncAt buf p) =
      fun p => decide (start ≤ p) && resyncAt buf p := by
    funext p
    cases here : resyncAt buf p with
    | false => simp
    | true =>
        have early := (resync_at_iff.mp here).2.1
        simp only [Bool.and_true, decide_eq_decide]
        omega
  rw [findHttpResync, same]

/-- The search finds the first message start from its starting point on. -/
theorem find_http_resync_some {buf : List UInt8} {start found : Nat} :
    findHttpResync buf start = some found ↔ ∃ p, found = p + 1 ∧ start ≤ p ∧
      resyncAt buf p = true ∧ ∀ q, start ≤ q → q < p → resyncAt buf q = false := by
  rw [find_http_resync_eq]
  simp only [Option.map_eq_some_iff, List.find?_range_eq_some, Bool.and_eq_true, decide_eq_true_eq,
    List.mem_range, Bool.not_and, Bool.or_eq_true, Bool.not_eq_true', decide_eq_false_iff_not]
  constructor
  · rintro ⟨p, ⟨⟨later, here⟩, -, before⟩, rfl⟩
    refine ⟨p, rfl, later, here, ?_⟩
    intro q after earlier
    rcases before q earlier with outside | absent
    · exact absurd after outside
    · exact absent
  · rintro ⟨p, rfl, later, here, before⟩
    have inside := resync_at_inside here
    refine ⟨p, ⟨⟨later, here⟩, by omega, ?_⟩, rfl⟩
    intro q earlier
    by_cases after : start ≤ q
    · exact .inr (before q after earlier)
    · exact .inl after

theorem find_http_resync_none {buf : List UInt8} {start : Nat} :
    findHttpResync buf start = none ↔ ∀ p, start ≤ p → resyncAt buf p = false := by
  rw [find_http_resync_eq]
  simp only [Option.map_eq_none_iff, List.find?_range_eq_none, Bool.not_and, Bool.or_eq_true,
    Bool.not_eq_true', decide_eq_false_iff_not]
  constructor
  · intro absent p later
    by_contra here
    have inside := resync_at_inside (by simpa using here)
    rcases absent p (by omega) with outside | missing
    · exact outside later
    · exact here missing
  · intro absent p inside
    by_cases later : start ≤ p
    · exact .inr (absent p later)
    · exact .inl later

/-- What the search has found it finds in every longer buffer. -/
theorem find_http_resync_append {buf : List UInt8} {start found : Nat}
    (search : findHttpResync buf start = some found) (more : List UInt8) :
    findHttpResync (buf ++ more) start = some found := by
  obtain ⟨p, rfl, later, here, before⟩ := find_http_resync_some.mp search
  refine find_http_resync_some.mpr ⟨p, rfl, later, resync_at_append here more, ?_⟩
  intro q after earlier
  by_contra revealed
  have inside := resync_at_inside here
  have unbroken := (resync_at_revealed (before q after earlier) (by simpa using revealed)).2
  exact unbroken p earlier (by omega) (resync_at_iff.mp here).1

/-- No message starts before `scanned`, nor will one however the buffer goes on. -/
def ScannedTo (buf : List UInt8) (scanned : Nat) : Prop :=
  scanned + 8 ≤ buf.length ∧ ∀ p < scanned, resyncAt buf p = false

theorem ScannedTo.append {buf : List UInt8} {scanned : Nat} (searched : ScannedTo buf scanned)
    (more : List UInt8) : ScannedTo (buf ++ more) scanned := by
  refine ⟨by rw [List.length_append]; have room := searched.1; omega, ?_⟩
  intro p before
  have room := searched.1
  rw [resync_at_known (by omega)]
  exact searched.2 p before

/-- A search that has failed may go on eight bytes before the end. -/
theorem scanned_to_of_none {buf : List UInt8} {start : Nat} (searched : start = 0 ∨ ScannedTo buf start)
    (failed : findHttpResync buf start = none) (long : 8 ≤ buf.length) :
    ScannedTo buf (buf.length - 8) := by
  refine ⟨by omega, ?_⟩
  intro p before
  rcases searched with rfl | searched
  · exact find_http_resync_none.mp failed p (Nat.zero_le p)
  by_cases later : start ≤ p
  · exact find_http_resync_none.mp failed p later
  · exact searched.2 p (by omega)

/-- The search need not go over what it has searched. -/
theorem ScannedTo.find_http_resync {buf : List UInt8} {scanned : Nat}
    (searched : ScannedTo buf scanned) : findHttpResync buf scanned = findHttpResync buf 0 := by
  cases found : findHttpResync buf scanned with
  | none =>
      refine (find_http_resync_none.mpr ?_).symm
      intro p _
      by_cases later : scanned ≤ p
      · exact find_http_resync_none.mp found p later
      · exact searched.2 p (by omega)
  | some start =>
      obtain ⟨p, rfl, later, here, before⟩ := find_http_resync_some.mp found
      refine (find_http_resync_some.mpr ⟨p, rfl, Nat.zero_le p, here, ?_⟩).symm
      intro q _ earlier
      by_cases after : scanned ≤ q
      · exact before q after earlier
      · exact searched.2 q (by omega)

end Resync

section Body

/-- A body can be taken up behind its first `validated` bytes, however it goes on. -/
def Resumable (validated : Nat) (span : List UInt8) : Prop :=
  validated ≤ span.length ∧ ∀ more, Http.Resumes validated
    (Http.parseChunkedBody (span ++ more)) (Http.parseChunkedBody ((span ++ more).drop validated))

theorem resumable_zero (span : List UInt8) : Resumable 0 span :=
  ⟨Nat.zero_le _, fun _ => ⟨rfl, fun _ => rfl, fun _ => (Nat.zero_add _).symm⟩⟩

theorem Resumable.append {validated : Nat} {span : List UInt8} (resumable : Resumable validated span)
    (more : List UInt8) : Resumable validated (span ++ more) := by
  refine ⟨by rw [List.length_append]; exact Nat.le_add_right_of_le resumable.1, ?_⟩
  intro later
  rw [List.append_assoc]
  exact resumable.2 (more ++ later)

theorem Resumable.resumes {validated : Nat} {span : List UInt8}
    (resumable : Resumable validated span) :
    Http.Resumes validated (Http.parseChunkedBody span)
      (Http.parseChunkedBody (span.drop validated)) := by
  simpa using resumable.2 []

/-- The complete chunks of what is left are validated as well. -/
theorem Resumable.further {validated : Nat} {span : List UInt8}
    (resumable : Resumable validated span)
    (incomplete : (Http.parseChunkedBody (span.drop validated)).err = .unexpectedEof) :
    Resumable (validated + (Http.parseChunkedBody (span.drop validated)).completePrefix) span := by
  obtain ⟨inside, resumes⟩ := resumable
  obtain ⟨bound, further⟩ := Http.parse_chunked_body_resumes incomplete
  rw [List.length_drop] at bound
  refine ⟨by omega, ?_⟩
  intro more
  have left := further more
  rw [← List.drop_append_of_le_length inside, List.drop_drop] at left
  exact (resumes more).trans left

/-- Where the scan of a chunked body starts makes no difference. -/
theorem scan_chunked_resumed {applications : Applications} {span : List UInt8}
    (resumable : Resumable applications.httpChunkPrefix span) :
    scanChunkedBody applications span =
      let body := Http.parseChunkedBody span
      if body.err = .unexpectedEof then
        .incomplete { applications with httpChunkPrefix := body.completePrefix }
          (span.drop applications.httpChunkPrefix)
      else if body.err ≠ .none then .malformed
      else .complete { applications with httpChunkPrefix := 0 } body.span := by
  have resumes := resumable.resumes
  unfold scanChunkedBody
  simp only [resumes.err]
  split_ifs with waits failed
  · rw [resumes.completePrefix (by rw [waits]; decide)]
  · rfl
  · rw [resumes.span (by simpa using failed)]

variable {header : Http.Header} {headResponse : Bool} {applications after : Applications}
  {span rest : List UInt8}

theorem scan_body_malformed_append
    (inside : applications.httpChunkPrefix ≤ span.length)
    (malformed : scanBody header headResponse applications span = .malformed)
    (more : List UInt8) :
    scanBody header headResponse applications (span ++ more) = .malformed := by
  unfold scanBody scanChunkedBody at malformed ⊢
  simp only at malformed ⊢
  split_ifs at malformed with bodyless chunked waits failed
  rw [if_neg bodyless, if_pos chunked, List.drop_append_of_le_length inside,
    Http.parse_chunked_body_settled waits more, if_neg waits, if_pos failed]

theorem scan_body_complete_append
    (inside : applications.httpChunkPrefix ≤ span.length)
    (complete : scanBody header headResponse applications span = .complete after rest)
    (more : List UInt8) :
    scanBody header headResponse applications (span ++ more) = .complete after (rest ++ more) := by
  unfold scanBody scanChunkedBody at complete ⊢
  simp only at complete ⊢
  split_ifs at complete with bodyless chunked waits failed sized short untilClose
  · cases complete
    rw [if_pos bodyless]
  · cases complete
    rw [if_neg bodyless, if_pos chunked, List.drop_append_of_le_length inside,
      Http.parse_chunked_body_settled waits more, if_neg waits, if_neg failed]
  · cases complete
    have enough : ¬ (span ++ more).length < header.contentLength := by
      rw [List.length_append]
      omega
    rw [if_neg bodyless, if_neg chunked, if_pos sized, if_neg enough,
      List.drop_append_of_le_length (by omega)]
  · cases complete
    rw [if_neg bodyless, if_neg chunked, if_neg sized, if_pos untilClose]
  · cases complete
    rw [if_neg bodyless, if_neg chunked, if_neg sized, if_neg untilClose]

end Body

end PcapAnalyzer
