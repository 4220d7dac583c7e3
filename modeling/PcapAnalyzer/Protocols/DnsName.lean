import PcapAnalyzer.Protocols.DnsEncoding

/-!
# Reading DNS names

Every turn of the name loop takes a label or follows a pointer, and what it took is what is
spelled there. So the loop stays in the message and within its limits, whatever the message
is, and it accepts nothing but names.
-/

namespace PcapAnalyzer.Dns

open MeasuredLoop

set_option autoImplicit false

variable {base : List UInt8}

/-- What a turn that goes on has read. -/
inductive NameStep (base : List UInt8) (cursor : NameCursor) : NameCursor → Prop where
  | label {label : List UInt8} (sized : 1 ≤ label.length ∧ label.length ≤ maxLabel)
      (inside : cursor.cur + 1 + label.length ≤ base.length)
      (length : byteAt base cursor.cur = UInt8.ofNat label.length)
      (octets : slice base (cursor.cur + 1) label.length = label)
      (fits : cursor.nameOctets + (label.length + 1) ≤ maxDnsNameOctets) :
      NameStep base cursor { cursor with
        cur := cursor.cur + 1 + label.length
        nameOctets := cursor.nameOctets + (label.length + 1)
        name := (if cursor.name = [] then [] else cursor.name ++ text ['.']) ++ label }
  | pointer {target : Nat} (inside : cursor.cur + 1 < base.length)
      (high : byteAt base cursor.cur = UInt8.ofNat (192 + target / 256))
      (low : byteAt base (cursor.cur + 1) = UInt8.ofNat (target % 256))
      (addressable : target < maxPointer) (few : cursor.jumps + 1 ≤ maxDnsCompressionJumps)
      (backwards : (target : Int) < cursor.limit) :
      NameStep base cursor { cursor with
        cur := target
        spanAt := cursor.spanAfter 2
        jumps := cursor.jumps + 1
        ptrCeiling := target }

section Steps

theorem octet_kinds : ∀ octet < 256,
    (UInt8.ofNat octet &&& dnsCompressionPointerMask = dnsCompressionPointerMask →
      octet = 192 + (UInt8.ofNat octet &&& (0x3F : UInt8)).toNat ∧
        (UInt8.ofNat octet &&& (0x3F : UInt8)).toNat < 64) ∧
    (UInt8.ofNat octet &&& dnsCompressionPointerMask = 0 → octet < 64) := by
  decide +kernel

theorem pointer_target {cursor : NameCursor}
    (pointer : byteAt base cursor.cur &&& dnsCompressionPointerMask = dnsCompressionPointerMask) :
    byteAt base cursor.cur = UInt8.ofNat (192 + pointerTarget base cursor / 256) ∧
      byteAt base (cursor.cur + 1) = UInt8.ofNat (pointerTarget base cursor % 256) ∧
        pointerTarget base cursor < maxPointer := by
  have kinds := (octet_kinds (byteAt base cursor.cur).toNat (byteAt base cursor.cur).toNat_lt).1
  rw [UInt8.ofNat_toNat] at kinds
  obtain ⟨high, small⟩ := kinds pointer
  have low := (byteAt base (cursor.cur + 1)).toNat_lt
  have found : pointerTarget base cursor =
      256 * (byteAt base cursor.cur &&& (0x3F : UInt8)).toNat +
        (byteAt base (cursor.cur + 1)).toNat := by
    have joined := or_of_disjoint (byteAt base (cursor.cur + 1)).toNat
      (byteAt base cursor.cur &&& (0x3F : UInt8)).toNat 8 low
    rw [pointerTarget, Nat.shiftLeft_eq, Nat.or_comm, joined]
    omega
  rw [found]
  refine ⟨?_, ?_, by simp only [maxPointer]; omega⟩
  · rw [show (256 * (byteAt base cursor.cur &&& (0x3F : UInt8)).toNat +
      (byteAt base (cursor.cur + 1)).toNat) / 256 =
        (byteAt base cursor.cur &&& (0x3F : UInt8)).toNat by omega, ← high, UInt8.ofNat_toNat]
  · rw [show (256 * (byteAt base cursor.cur &&& (0x3F : UInt8)).toNat +
      (byteAt base (cursor.cur + 1)).toNat) % 256 = (byteAt base (cursor.cur + 1)).toNat by omega,
      UInt8.ofNat_toNat]

theorem name_turn_step {cursor next : NameCursor}
    (pass : nameTurn base cursor = .again next) : NameStep base cursor next := by
  unfold nameTurn at pass
  split_ifs at pass with outside zero pointer flags
  · unfold followPointer at pass
    split_ifs at pass with cut many forward
    cases pass
    obtain ⟨high, low, addressable⟩ := pointer_target pointer
    exact .pointer (by omega) high low addressable (by omega) (by omega)
  · have kinds := (octet_kinds (byteAt base cursor.cur).toNat (byteAt base cursor.cur).toNat_lt).2
    rw [UInt8.ofNat_toNat] at kinds
    have small := kinds (not_not.mp flags)
    have nonzero : (byteAt base cursor.cur).toNat ≠ 0 := by
      intro none
      apply zero
      rw [← UInt8.toNat_inj, none]
      rfl
    unfold takeLabel at pass
    by_cases cut : cursor.cur + 1 + (byteAt base cursor.cur).toNat > base.length
    · simp [cut] at pass
    by_cases long : cursor.nameOctets + ((byteAt base cursor.cur).toNat + 1) > maxDnsNameOctets
    · simp [cut, long] at pass
    simp only [cut, long, if_false] at pass
    cases pass
    have size : (slice base (cursor.cur + 1) (byteAt base cursor.cur).toNat).length =
        (byteAt base cursor.cur).toNat := by
      rw [slice, List.length_take, List.length_drop]
      omega
    have step := @NameStep.label base cursor
      (slice base (cursor.cur + 1) (byteAt base cursor.cur).toNat)
    rw [size] at step
    exact step ⟨by omega, by simp only [maxLabel]; omega⟩ (by omega) (by simp) rfl (by omega)

theorem name_turn_accepts {cursor : NameCursor} {name : List UInt8} {stop : Nat}
    (pass : nameTurn base cursor = .leave (.ok (name, stop))) : cursor.cur < base.length ∧
      byteAt base cursor.cur = 0 ∧ name = cursor.name ∧ stop = cursor.spanAfter 1 := by
  unfold nameTurn at pass
  split_ifs at pass with outside zero pointer flags
  · cases pass
  · cases pass
    exact ⟨by omega, zero, rfl, rfl⟩
  · unfold followPointer at pass
    split_ifs at pass <;> cases pass
  · cases pass
  · unfold takeLabel at pass
    by_cases cut : cursor.cur + 1 + (byteAt base cursor.cur).toNat > base.length
    · simp [cut] at pass
    by_cases long : cursor.nameOctets + ((byteAt base cursor.cur).toNat + 1) > maxDnsNameOctets
    · simp [cut, long] at pass
    simp [cut, long] at pass

end Steps

section Spelled

/-- What the cursor keeps: its counts are within the limits, and behind a jump it stands
behind the target of the last pointer. -/
structure NameCursor.Kept (cursor : NameCursor) : Prop where
  jumps : cursor.jumps ≤ maxDnsCompressionJumps
  octets : cursor.nameOctets ≤ maxDnsNameOctets
  ceiling : cursor.jumps ≠ 0 → cursor.ptrCeiling ≤ cursor.cur

theorem name_step_kept {cursor next : NameCursor} (kept : cursor.Kept)
    (step : NameStep base cursor next) : next.Kept := by
  cases step with
  | label sized inside length octets fits =>
      refine ⟨kept.jumps, fits, ?_⟩
      intro jumped
      have ceiling := kept.ceiling jumped
      simp only
      omega
  | pointer inside high low addressable few backwards => exact ⟨few, kept.octets, fun _ => le_rfl⟩

theorem limit_le {cursor : NameCursor} (kept : cursor.Kept) : cursor.limit ≤ cursor.cur := by
  unfold NameCursor.limit
  split_ifs with first
  · exact le_rfl
  · exact kept.ceiling first

/-- The loop accepts only what is spelled at its cursor. -/
theorem name_loop_accepts {cursor : NameCursor} {result : Except ParseError (List UInt8 × Nat)}
    (ends : Ends (nameTurn base) cursor result) (kept : cursor.Kept) {name : List UInt8}
    {stop : Nat} (accepted : result = .ok (name, stop)) :
    ∃ labels jumps here, Spells base cursor.cur labels jumps here ∧
      cursor.jumps + jumps.length ≤ maxDnsCompressionJumps ∧
      (cursor.jumps ≠ 0 → ∀ target ∈ jumps.head?, (target : Int) < cursor.ptrCeiling) ∧
      cursor.nameOctets + (labels.map fun label => label.length + 1).sum ≤ maxDnsNameOctets ∧
      name = extendName cursor.name labels ∧
      stop = if cursor.jumps = 0 then here else cursor.spanAt := by
  induction ends with
  | @leave cursor result pass =>
      subst accepted
      obtain ⟨inside, zero, rfl, rfl⟩ := name_turn_accepts pass
      refine ⟨[], [], _, .root inside zero, kept.jumps, by simp, kept.octets, rfl, rfl⟩
  | @again cursor next result pass later ih =>
      have step := name_turn_step pass
      obtain ⟨labels, jumps, here, spells, few, chain, fits, named, goesOn⟩ :=
        ih (name_step_kept kept step) accepted
      cases step with
      | @label label sized inside length octets room =>
          refine ⟨label :: labels, jumps, here, .label sized inside length octets spells, few,
            chain, ?_, named, goesOn⟩
          simp only [List.map_cons, List.sum_cons] at fits ⊢
          omega
      | @pointer target inside high low addressable room backwards =>
          have before := limit_le kept
          refine ⟨labels, target :: jumps, cursor.cur + 2,
            .pointer inside high low (by omega) addressable ?_ spells, ?_, ?_, fits, named, ?_⟩
          · intro next member
            exact Int.ofNat_lt.mp (chain (Nat.succ_ne_zero _) next member)
          · simp only [List.length_cons] at few ⊢
            omega
          · intro jumped next member
            rw [List.head?_cons, Option.mem_some_iff] at member
            rw [NameCursor.limit, if_neg jumped] at backwards
            rw [← member]
            exact backwards
          · rw [goesOn]
            simp only [Nat.succ_ne_zero, if_false, NameCursor.spanAfter]

theorem start_kept (offset : Nat) : NameCursor.Kept { cur := offset, spanAt := offset } :=
  ⟨Nat.zero_le _, Nat.zero_le _, fun jumped => absurd rfl jumped⟩

theorem parse_name_ends (base : List UInt8) (offset : Nat) :
    Ends (nameTurn base) { cur := offset, spanAt := offset } (parseName base offset) :=
  ends_run (name_turn_decreasing base) _ _ (Nat.lt_succ_self _)

/-- A name that is accepted is spelled at the offset, and fits but for its last octet. -/
theorem parse_name_accepts {offset stop : Nat} {name : List UInt8}
    (accepted : parseName base offset = .ok (name, stop)) :
    ∃ labels jumps, Spells base offset labels jumps stop ∧
      jumps.length ≤ maxDnsCompressionJumps ∧ name = dotted labels ∧
      (labels.map fun label => label.length + 1).sum ≤ maxDnsNameOctets := by
  obtain ⟨labels, jumps, here, spells, few, -, fits, named, goesOn⟩ :=
    name_loop_accepts (parse_name_ends base offset) (start_kept offset) accepted
  rw [if_pos rfl] at goesOn
  rw [extend_name_dotted labels spells.nonempty] at named
  simp only [Nat.zero_add] at few fits
  exact ⟨labels, jumps, goesOn ▸ spells, few, named, fits⟩

theorem name_turn_long {label : List UInt8} (cursor : NameCursor)
    (sized : 1 ≤ label.length ∧ label.length ≤ maxLabel)
    (inside : cursor.cur + 1 + label.length ≤ base.length)
    (length : byteAt base cursor.cur = UInt8.ofNat label.length)
    (long : ¬ cursor.nameOctets + (label.length + 1) ≤ maxDnsNameOctets) :
    nameTurn base cursor = .leave (.error .malformedHeader) := by
  simp only [maxLabel] at sized
  obtain ⟨nonzero, noPointer, noFlag, value⟩ := label_octet label.length (by omega) (by omega)
  have here : ¬ cursor.cur ≥ base.length := by omega
  have whole : ¬ cursor.cur + 1 + label.length > base.length := by omega
  have exceeds : cursor.nameOctets + (label.length + 1) > maxDnsNameOctets := by omega
  rw [nameTurn, if_neg here, length, if_neg nonzero, if_neg noPointer,
    if_neg (not_not.mpr noFlag)]
  simp only [takeLabel, length, value, whole, exceeds, if_false, if_true]

/-- A name that is too long is rejected at the label that makes it so. -/
theorem name_loop_rejects {offset stop : Nat} {labels : List (List UInt8)} {jumps : List Nat}
    (spells : Spells base offset labels jumps stop) (cursor : NameCursor)
    (here : cursor.cur = offset)
    (few : cursor.jumps + jumps.length ≤ maxDnsCompressionJumps)
    (backwards : cursor.jumps ≠ 0 → ∀ target ∈ jumps.head?, (target : Int) < cursor.ptrCeiling)
    (room : cursor.nameOctets ≤ maxDnsNameOctets)
    (long : maxDnsNameOctets <
      cursor.nameOctets + (labels.map fun label => label.length + 1).sum) :
    run (nameTurn base) (fun _ => .error .malformedHeader) (nameMeasure cursor + 1) cursor =
      .error .malformedHeader := by
  induction spells generalizing cursor with
  | root inside zero =>
      simp only [List.map_nil, List.sum_nil] at long
      omega
  | @label offset stop label labels jumps sized inside length octets rest ih =>
      subst here
      simp only [List.map_cons, List.sum_cons] at long
      by_cases fits : cursor.nameOctets + (label.length + 1) ≤ maxDnsNameOctets
      · have pass := name_turn_label cursor sized inside length octets fits
        rw [run_again (name_turn_decreasing base) (Nat.lt_succ_self _) pass]
        exact ih _ rfl few backwards fits (by simp only; omega)
      · apply run_leave (name_turn_decreasing base) (Nat.lt_succ_self _)
        exact name_turn_long cursor sized inside length fits
  | @pointer offset target stop labels jumps inside high low before addressable chain rest ih =>
      subst here
      simp only [List.length_cons] at few
      have limit := below_limit cursor before fun jumped => backwards jumped target rfl
      have pass := name_turn_pointer cursor inside high low addressable (by omega) limit
      rw [run_again (name_turn_decreasing base) (Nat.lt_succ_self _) pass]
      exact ih _ rfl (by simp only; omega)
        (fun _ next member => Int.ofNat_lt.mpr (chain next member)) room long

end Spelled

section Limit

/-- The octets of the expanded name: its labels, their lengths and the root octet. -/
def expandedOctets (labels : List (List UInt8)) : Nat :=
  (labels.map fun label => label.length + 1).sum + 1

/-- The limit of RFC 1035, 2.3.4, for the name at an offset. -/
structure LimitHeld (base : List UInt8) (offset : Nat) : Prop where
  accepted : ∀ name stop, parseName base offset = .ok (name, stop) → ∃ labels jumps,
    Spells base offset labels jumps stop ∧ jumps.length ≤ maxDnsCompressionJumps ∧
      name = dotted labels ∧ expandedOctets labels ≤ 255
  rejected : ∀ labels jumps stop, Spells base offset labels jumps stop →
    jumps.length ≤ maxDnsCompressionJumps → 255 < expandedOctets labels →
      parseName base offset = .error .malformedHeader

/-- The limit is held except for the names that exceed it by one octet. -/
theorem name_limit_held_iff (base : List UInt8) (offset : Nat) : LimitHeld base offset ↔
    ¬ ∃ labels jumps stop, Spells base offset labels jumps stop ∧
      jumps.length ≤ maxDnsCompressionJumps ∧ expandedOctets labels = 256 := by
  constructor
  · rintro held ⟨labels, jumps, stop, spells, few, exceeded⟩
    have octets : (labels.map fun label => label.length + 1).sum = maxDnsNameOctets :=
      Nat.succ.inj exceeded
    have rejected := held.rejected labels jumps stop spells few (by omega)
    rw [parse_name_spelled spells few octets.le] at rejected
    cases rejected
  · intro none
    constructor
    · intro name stop accepted
      obtain ⟨labels, jumps, spells, few, named, fits⟩ := parse_name_accepts accepted
      refine ⟨labels, jumps, spells, few, named, ?_⟩
      have other : expandedOctets labels ≠ 256 :=
        fun exceeded => none ⟨labels, jumps, stop, spells, few, exceeded⟩
      simp only [expandedOctets, maxDnsNameOctets] at fits other ⊢
      omega
    · intro labels jumps stop spells few long
      have other : expandedOctets labels ≠ 256 :=
        fun exceeded => none ⟨labels, jumps, stop, spells, few, exceeded⟩
      apply name_loop_rejects spells { cur := offset, spanAt := offset } rfl (by simpa using few)
        (fun jumped => absurd rfl jumped) (Nat.zero_le _)
      simp only [expandedOctets, maxDnsNameOctets] at long other ⊢
      omega

def longLabels : List (List UInt8) :=
  List.replicate 3 (List.replicate 63 97) ++ [List.replicate 62 97]

/-- A question of such a name behind the header. -/
def longQuestion : List UInt8 :=
  List.replicate headerLen 0 ++ ((longLabels.map encodeLabel).flatten ++ [0] ++ [0, 1, 0, 1])

/-- A name of 256 octets is accepted. -/
theorem name_over_limit_is_accepted : ¬ ∀ base offset, LimitHeld base offset := by
  intro held
  have writes : WritesName [] headerLen longLabels [] ((longLabels.map encodeLabel).flatten ++ [0])
      _ :=
    .label (.label (.label (.label (.root _))))
  have placed : longQuestion.drop headerLen =
      (longLabels.map encodeLabel).flatten ++ [0] ++ [0, 1, 0, 1] := by
    rw [longQuestion, List.drop_append_of_le_length (by simp), List.drop_of_length_le (by simp),
      List.nil_append]
  obtain ⟨spells, few, -⟩ := writes.spelled placed (by decide) (by simp)
  have rejected := (held longQuestion headerLen).rejected longLabels [] _ spells few (by decide)
  rw [parse_name_spelled spells few (by decide)] at rejected
  cases rejected

end Limit

section Bounds

/-- The octets a turn reads, by their offsets. -/
def octetsRead (base : List UInt8) (cursor : NameCursor) : List Nat :=
  if cursor.cur ≥ base.length then [] else
  cursor.cur ::
    if byteAt base cursor.cur = 0 then [] else
    if byteAt base cursor.cur &&& dnsCompressionPointerMask = dnsCompressionPointerMask then
      if cursor.cur + 1 ≥ base.length ∨ cursor.jumps + 1 > maxDnsCompressionJumps then []
      else [cursor.cur + 1]
    else if byteAt base cursor.cur &&& dnsCompressionPointerMask ≠ 0 then [] else
    let len := (byteAt base cursor.cur).toNat
    if cursor.cur + 1 + len > base.length ∨ cursor.nameOctets + (len + 1) > maxDnsNameOctets
    then [] else List.range' (cursor.cur + 1) len

/-- The pointer that a turn follows. -/
def pointerFollowed (base : List UInt8) (cursor : NameCursor) : Option Nat :=
  match nameTurn base cursor with
  | .again next => if next.jumps = cursor.jumps then none else some next.cur
  | .leave _ => none

/-- A turn begins a label, taken or not. -/
def beginsLabel (base : List UInt8) (cursor : NameCursor) : Bool :=
  cursor.cur < base.length ∧ byteAt base cursor.cur ≠ 0 ∧
    byteAt base cursor.cur &&& dnsCompressionPointerMask = 0

/-- The cursors of `parseName`, in order. -/
def nameCursors (base : List UInt8) (offset : Nat) : List NameCursor :=
  visited (nameTurn base) (maxDnsNameOctets + maxDnsCompressionJumps + 1)
    { cur := offset, spanAt := offset }

/-- Where the octets at an offset end: behind the first zero octet or the first pointer that
the labels there lead to. -/
inductive EndsAt (base : List UInt8) : Nat → Nat → Prop where
  | zero {offset : Nat} (inside : offset < base.length) (zero : byteAt base offset = 0) :
      EndsAt base offset (offset + 1)
  | pointer {offset : Nat} (inside : offset + 1 < base.length)
      (pointer : byteAt base offset &&& dnsCompressionPointerMask = dnsCompressionPointerMask) :
      EndsAt base offset (offset + 2)
  | label {offset stop : Nat} (nonzero : byteAt base offset ≠ 0)
      (label : byteAt base offset &&& dnsCompressionPointerMask = 0)
      (rest : EndsAt base (offset + 1 + (byteAt base offset).toNat) stop) :
      EndsAt base offset stop

/-- The loop stays within the message and its limits. -/
structure InBounds (base : List UInt8) (offset : Nat) : Prop where
  ends : Ends (nameTurn base) { cur := offset, spanAt := offset } (parseName base offset)
  jumps : ((nameCursors base offset).filterMap (pointerFollowed base)).length ≤
    maxDnsCompressionJumps
  labels : (nameCursors base offset).countP (beginsLabel base) ≤ 128
  reads : ∀ cursor ∈ nameCursors base offset, ∀ i ∈ octetsRead base cursor, i < base.length
  readsAll : ∀ other : List UInt8, other.length = base.length →
    (∀ cursor ∈ nameCursors base offset, ∀ i ∈ octetsRead base cursor,
      byteAt other i = byteAt base i) → parseName other offset = parseName base offset
  decreasing : ((nameCursors base offset).filterMap (pointerFollowed base)).Pairwise (· > ·)
  leaves : ∀ name stop, parseName base offset = .ok (name, stop) → EndsAt base offset stop ∧
    offset < stop ∧ stop ≤ base.length ∧ base.drop stop = (base.drop offset).drop (stop - offset)

/-- The pointers that are followed from a cursor on, and the number of labels begun. -/
structure TurnsFrom (cursor : NameCursor) (targets : List Nat) (labels : Nat) : Prop where
  jumps : cursor.jumps + targets.length ≤ maxDnsCompressionJumps
  labels : cursor.nameOctets + 2 * labels ≤ maxDnsNameOctets + 2
  decreasing : targets.Pairwise (· > ·)
  below : cursor.jumps ≠ 0 → ∀ target ∈ targets, (target : Int) < cursor.ptrCeiling

/-- A turn comes before those that follow it. -/
theorem turns_from_again {cursor next : NameCursor} {cursors : List NameCursor}
    (pass : nameTurn base cursor = .again next)
    (later : TurnsFrom next (cursors.filterMap (pointerFollowed base))
      (cursors.countP (beginsLabel base))) :
    TurnsFrom cursor ((cursor :: cursors).filterMap (pointerFollowed base))
      ((cursor :: cursors).countP (beginsLabel base)) := by
  obtain ⟨jumps, labels, decreasing, below⟩ := later
  cases name_turn_step pass with
  | label sized =>
      have none : pointerFollowed base cursor = none := by
        simp only [pointerFollowed, pass, if_true]
      have once : (cursor :: cursors).countP (beginsLabel base) ≤
          cursors.countP (beginsLabel base) + 1 := by
        rw [List.countP_cons]
        split_ifs <;> omega
      rw [List.filterMap_cons_none none]
      exact ⟨jumps, by simp only at labels; omega, decreasing, below⟩
  | @pointer target inside high low addressable few backwards =>
      have followed : pointerFollowed base cursor = some target := by
        simp [pointerFollowed, pass]
      obtain ⟨-, flags, -⟩ := pointer_octet (target / 256)
        (by simp only [maxPointer] at addressable; omega)
      have other : beginsLabel base cursor = false := by
        rw [beginsLabel, high, flags]
        simp [dnsCompressionPointerMask]
      have under := below (Nat.succ_ne_zero _)
      rw [List.filterMap_cons_some followed, List.countP_cons_of_neg (by simp [other])]
      refine ⟨?_, labels, ?_, ?_⟩
      · simp only [List.length_cons] at jumps ⊢
        omega
      · exact List.pairwise_cons.mpr
          ⟨fun later member => Int.ofNat_lt.mp (under later member), decreasing⟩
      · intro jumped
        rw [NameCursor.limit, if_neg jumped] at backwards
        exact List.forall_mem_cons.mpr
          ⟨backwards, fun later member => (under later member).trans backwards⟩

theorem turns_from (fuel : Nat) {cursor : NameCursor} (kept : cursor.Kept) :
    TurnsFrom cursor ((visited (nameTurn base) fuel cursor).filterMap (pointerFollowed base))
      ((visited (nameTurn base) fuel cursor).countP (beginsLabel base)) := by
  induction fuel generalizing cursor with
  | zero =>
      have jumps := kept.jumps
      have octets := kept.octets
      exact ⟨by simpa [visited] using jumps, by simp only [visited, List.countP_nil]; omega,
        by simp [visited], by simp [visited]⟩
  | succ fuel ih =>
      cases pass : nameTurn base cursor with
      | leave result =>
          have jumps := kept.jumps
          have octets := kept.octets
          have none : pointerFollowed base cursor = none := by rw [pointerFollowed, pass]
          have alone : visited (nameTurn base) (fuel + 1) cursor = [cursor] := visited_leave pass
          have once := List.countP_le_length (p := beginsLabel base) (l := [cursor])
          rw [List.length_singleton] at once
          rw [alone, List.filterMap_cons_none none]
          exact ⟨by simpa using jumps, by omega, by simp, by simp⟩
      | again next =>
          have onward : visited (nameTurn base) (fuel + 1) cursor =
              cursor :: visited (nameTurn base) fuel next := by
            rw [visited, pass]
          rw [onward]
          exact turns_from_again pass (ih (name_step_kept kept (name_turn_step pass)))

theorem octets_read_inside (cursor : NameCursor) :
    ∀ i ∈ octetsRead base cursor, i < base.length := by
  intro i member
  unfold octetsRead at member
  by_cases outside : cursor.cur ≥ base.length
  · rw [if_pos outside] at member
    cases member
  rw [if_neg outside] at member
  rcases List.mem_cons.mp member with rfl | member
  · omega
  · dsimp only at member
    split_ifs at member with zero pointer stops flags cut
    · cases member
    · cases member
    · rw [List.mem_singleton.mp member]
      omega
    · cases member
    · cases member
    · obtain ⟨within, below⟩ := List.mem_range'_1.mp member
      omega

theorem slice_reads {other : List UInt8} (length : other.length = base.length) {start count : Nat}
    (inside : start + count ≤ base.length)
    (same : ∀ i ∈ List.range' start count, byteAt other i = byteAt base i) :
    slice other start count = slice base start count := by
  apply List.ext_getElem
  · simp only [slice, List.length_take, List.length_drop, length]
  · intro i here there
    simp only [slice, List.length_take, List.length_drop] at here there
    have byte := same (start + i) (List.mem_range'_1.mpr ⟨by omega, by omega⟩)
    rw [byteAt, byteAt, List.getD_eq_getElem _ _ (by omega),
      List.getD_eq_getElem _ _ (by omega)] at byte
    simp only [slice, List.getElem_take, List.getElem_drop]
    exact byte

/-- A turn depends on nothing else. -/
theorem name_turn_reads {other : List UInt8} (length : other.length = base.length)
    (cursor : NameCursor) (same : ∀ i ∈ octetsRead base cursor, byteAt other i = byteAt base i) :
    nameTurn other cursor = nameTurn base cursor := by
  unfold octetsRead at same
  unfold nameTurn
  rw [length]
  by_cases outside : cursor.cur ≥ base.length
  · rw [if_pos outside, if_pos outside]
  rw [if_neg outside] at same
  obtain ⟨here, further⟩ := List.forall_mem_cons.mp same
  rw [here, if_neg outside, if_neg outside]
  dsimp only at further
  split_ifs at further ⊢ with zero pointer stops flags cut
  · rfl
  · rcases stops with short | many
    · rw [followPointer, followPointer, length, if_pos short, if_pos short]
    · rw [followPointer, followPointer, length, if_pos many, if_pos many]
  · have low := further _ (List.mem_singleton_self _)
    have target : pointerTarget other cursor = pointerTarget base cursor := by
      rw [pointerTarget, pointerTarget, here, low]
    rw [followPointer, followPointer, length, target]
  · rfl
  · unfold takeLabel
    rw [length, here]
    rcases cut with cut | long
    · simp only [cut, if_true]
    · simp only [long, if_true]
  · unfold takeLabel
    have taken := slice_reads length (by omega) further
    rw [length, here]
    simp only [taken]

theorem run_reads {other : List UInt8} (length : other.length = base.length) (fuel : Nat)
    (cursor : NameCursor) (same : ∀ visit ∈ visited (nameTurn base) fuel cursor,
      ∀ i ∈ octetsRead base visit, byteAt other i = byteAt base i) :
    run (nameTurn other) (fun _ => .error .malformedHeader) fuel cursor =
      run (nameTurn base) (fun _ => .error .malformedHeader) fuel cursor := by
  induction fuel generalizing cursor with
  | zero => rfl
  | succ fuel ih =>
      have here := name_turn_reads length cursor (same cursor (by simp [visited]))
      rw [run, run, here]
      cases pass : nameTurn base cursor with
      | leave result => rfl
      | again next =>
          apply ih
          intro visit member
          exact same visit (by rw [visited, pass]; exact List.mem_cons_of_mem _ member)

theorem Spells.ends_at {offset stop : Nat} {labels : List (List UInt8)} {jumps : List Nat}
    (spells : Spells base offset labels jumps stop) :
    EndsAt base offset stop ∧ offset < stop ∧ stop ≤ base.length := by
  induction spells with
  | root inside zero => exact ⟨.zero inside zero, by omega, by omega⟩
  | @label offset stop label labels jumps sized inside length octets rest ih =>
      obtain ⟨ends, further, within⟩ := ih
      simp only [maxLabel] at sized
      obtain ⟨nonzero, -, noFlag, value⟩ := label_octet label.length (by omega) (by omega)
      refine ⟨.label ?_ ?_ ?_, by omega, within⟩
      · rw [length]
        exact nonzero
      · rw [length]
        exact noFlag
      · rw [length, value]
        exact ends
  | @pointer offset target stop labels jumps inside high low before addressable chain rest ih =>
      simp only [maxPointer] at addressable
      obtain ⟨-, flags, -⟩ := pointer_octet (target / 256) (by omega)
      refine ⟨.pointer inside ?_, by omega, by omega⟩
      rw [high]
      exact flags

/-- Reading a name ends in bounds on every message and at every offset. -/
theorem parse_name_in_bounds (base : List UInt8) (offset : Nat) : InBounds base offset := by
  have turns : TurnsFrom { cur := offset, spanAt := offset }
      ((nameCursors base offset).filterMap (pointerFollowed base))
      ((nameCursors base offset).countP (beginsLabel base)) :=
    turns_from _ (start_kept offset)
  refine ⟨parse_name_ends base offset, ?_, ?_, ?_, ?_, turns.decreasing, ?_⟩
  · simpa using turns.jumps
  · have labels := turns.labels
    simp only [maxDnsNameOctets] at labels
    omega
  · intro cursor _ i member
    exact octets_read_inside cursor i member
  · intro other length same
    exact run_reads length _ _ same
  · intro name stop accepted
    obtain ⟨labels, jumps, spells, -⟩ := parse_name_accepts accepted
    obtain ⟨ends, further, inside⟩ := spells.ends_at
    refine ⟨ends, further, inside, ?_⟩
    rw [List.drop_drop, Nat.add_sub_cancel' further.le]

end Bounds

end PcapAnalyzer.Dns
