import PcapAnalyzer.Protocols.AddressText

/-!
# The grammar of IPv6 addresses

Eight groups of hexadecimal digits with a colon between any two of them, or at most seven with
one double colon that stands for the missing ones. What the scanner makes of a text is read off
the groups it has passed, and it passes nothing else.
-/

namespace PcapAnalyzer.Ip.V6

open MeasuredLoop (Turn Ends)

set_option autoImplicit false

/-- One to four hexadecimal digits. -/
structure Group where
  digits : List UInt8
  hex : ∀ c ∈ digits, hexVal c ≠ none
  present : digits ≠ []
  short : digits.length ≤ 4

/-- The number that digits write behind one that has been read. -/
def hexNumber (value : Nat) (digits : List UInt8) : Nat :=
  digits.foldl (fun value c => value * 16 + (hexVal c).getD 0) value

def Group.value (group : Group) : UInt16 := UInt16.ofNat (hexNumber 0 group.digits)

/-- The groups with a colon between any two of them. -/
def joined : List Group → List UInt8
  | [] => []
  | [group] => group.digits
  | group :: next :: groups => group.digits ++ code ':' :: joined (next :: groups)

/-- The text stands for the eight groups of an address. -/
inductive Denotes : List UInt8 → List UInt16 → Prop where
  | full (groups : List Group) (eight : groups.length = 8) :
      Denotes (joined groups) (groups.map Group.value)
  | compressed (left right : List Group) (few : left.length + right.length ≤ 7) :
      Denotes (joined left ++ [code ':', code ':'] ++ joined right)
        (left.map Group.value ++ List.replicate (8 - (left.length + right.length)) 0 ++
          right.map Group.value)

/-- The octets of an address. -/
def octets (groups : List UInt16) : List UInt8 :=
  groups.flatMap fun n : UInt16 => [(n >>> 8).toUInt8, (n &&& 0xFF).toUInt8]

section Digits

/-- The scan of a group stands at something other than a digit. -/
def Stops (rest : List UInt8) : Prop := ∀ c ∈ rest.head?, hexVal c = none

theorem stops_colon (rest : List UInt8) : Stops (code ':' :: rest) := by
  rintro c ⟨⟩
  decide

/-- The digit loop takes all digits there are, four at most. -/
theorem digit_loop_iff {span rest : List UInt8} {value digits total count : Nat} :
    digitLoop span value digits = some (total, count, rest) ↔
      ∃ taken, span = taken ++ rest ∧ (∀ c ∈ taken, hexVal c ≠ none) ∧ Stops rest ∧
        count = digits + taken.length ∧ (taken = [] ∨ count ≤ 4) ∧
        total = hexNumber value taken := by
  induction span generalizing value digits with
  | nil =>
      simp only [digitLoop, Option.some.injEq, Prod.mk.injEq, List.nil_eq, List.append_eq_nil_iff]
      constructor
      · rintro ⟨rfl, rfl, rfl⟩
        exact ⟨[], ⟨rfl, rfl⟩, by simp, by simp [Stops], rfl, Or.inl rfl, rfl⟩
      · rintro ⟨taken, ⟨rfl, rfl⟩, -, -, rfl, -, rfl⟩
        exact ⟨rfl, rfl, rfl⟩
  | cons c span ih =>
      rw [digitLoop]
      cases hex : hexVal c with
      | none =>
          simp only [Option.some.injEq, Prod.mk.injEq]
          constructor
          · rintro ⟨rfl, rfl, rfl⟩
            refine ⟨[], rfl, by simp, ?_, rfl, Or.inl rfl, rfl⟩
            rintro _ ⟨⟩
            exact hex
          · rintro ⟨taken, split, digit, -, rfl, -, rfl⟩
            cases taken with
            | nil => exact ⟨rfl, rfl, split⟩
            | cons first taken =>
                obtain ⟨rfl, -⟩ := List.cons.inj split
                exact absurd hex (digit c List.mem_cons_self)
      | some d =>
          simp only
          constructor
          · intro read
            split_ifs at read with long
            obtain ⟨taken, rfl, digit, stops, rfl, short, rfl⟩ := ih.mp read
            refine ⟨c :: taken, rfl, ?_, stops, ?_, Or.inr ?_, ?_⟩
            · exact List.forall_mem_cons.mpr ⟨by simp [hex], digit⟩
            · rw [List.length_cons]
              omega
            · rcases short with rfl | short
              · exact Nat.le_of_not_lt long
              · exact short
            · rw [hexNumber, hexNumber, List.foldl_cons, hex, Option.getD_some]
          · rintro ⟨taken, split, digit, stops, rfl, short, rfl⟩
            cases taken with
            | nil =>
                obtain rfl : c :: span = rest := split
                rw [stops c rfl] at hex
                cases hex
            | cons first taken =>
                obtain ⟨rfl, rfl⟩ := List.cons.inj split
                obtain ⟨-, others⟩ := List.forall_mem_cons.mp digit
                have fits : digits + 1 + taken.length ≤ 4 := by
                  rcases short with empty | short
                  · cases empty
                  · rw [List.length_cons] at short
                    omega
                rw [if_neg (by omega)]
                refine ih.mpr ⟨taken, rfl, others, stops, ?_, Or.inr ?_, ?_⟩
                · rw [List.length_cons]
                  omega
                · rw [List.length_cons]
                  omega
                · rw [hexNumber, hexNumber, List.foldl_cons, hex, Option.getD_some]

/-- A group takes one turn, behind which the separator stands. -/
theorem group_turn_group {cursor : GroupCursor} {group : Group} {rest : List UInt8}
    (span : cursor.span = group.digits ++ rest) (stops : Stops rest)
    (room : cursor.groups.length < 8) : groupTurn cursor =
      groupSeparator { cursor with span := rest, groups := cursor.groups ++ [group.value] } := by
  have present : cursor.span ≠ [] := by
    rw [span]
    exact List.append_ne_nil_of_left_ne_nil group.present _
  have read : digitLoop cursor.span 0 0 =
      some (hexNumber 0 group.digits, group.digits.length, rest) :=
    digit_loop_iff.mpr ⟨group.digits, span, group.hex, stops, (Nat.zero_add _).symm,
      Or.inr group.short, rfl⟩
  have taken : ¬ (group.digits.length = 0 ∨ cursor.groups.length ≥ 8) := by
    rintro (none | full)
    · exact group.present (List.length_eq_zero_iff.mp none)
    · omega
  rw [groupTurn, if_neg present, read]
  simp only [if_neg taken]
  rfl

/-- A turn stands at the end, fails, or takes a group. -/
theorem group_turn_cases (cursor : GroupCursor) :
    (cursor.span = [] ∧ groupTurn cursor = .leave (some cursor)) ∨
    groupTurn cursor = .leave none ∨
    ∃ (group : Group) (rest : List UInt8), cursor.span = group.digits ++ rest ∧
      cursor.groups.length < 8 ∧ groupTurn cursor =
        groupSeparator { cursor with span := rest, groups := cursor.groups ++ [group.value] } := by
  by_cases present : cursor.span = []
  · exact Or.inl ⟨present, by rw [groupTurn, if_pos present]⟩
  right
  cases read : digitLoop cursor.span 0 0 with
  | none =>
      left
      rw [groupTurn, if_neg present, read]
  | some result =>
      obtain ⟨value, digits, rest⟩ := result
      by_cases bad : digits = 0 ∨ cursor.groups.length ≥ 8
      · left
        rw [groupTurn, if_neg present, read]
        simp only [if_pos bad]
      · right
        obtain ⟨taken, span, hex, stops, count, short, -⟩ := digit_loop_iff.mp read
        have some_digit : taken ≠ [] := by
          rintro rfl
          exact bad (Or.inl (by rw [count]; rfl))
        let group : Group := ⟨taken, hex, some_digit, by
          rcases short with none | short
          · exact absurd none some_digit
          · omega⟩
        have room : cursor.groups.length < 8 := by omega
        exact ⟨group, rest, span, room, group_turn_group span stops room⟩

end Digits

section Scan

/-- What stands behind a group. -/
inductive Separates (cursor : GroupCursor) : Turn GroupCursor (Option GroupCursor) → Prop where
  | fails : Separates cursor (.leave none)
  | ends (span : cursor.span = []) : Separates cursor (.leave (some cursor))
  | colon {rest : List UInt8} (span : cursor.span = code ':' :: rest) (more : rest ≠ []) :
      Separates cursor (.again { cursor with span := rest })
  | gapEnds (span : cursor.span = [code ':', code ':']) (first : cursor.gap = none) :
      Separates cursor
        (.leave (some { cursor with span := [], gap := some cursor.groups.length }))
  | gap {after : List UInt8} (span : cursor.span = code ':' :: code ':' :: after)
      (more : after ≠ []) (first : cursor.gap = none) :
      Separates cursor (.again { cursor with span := after, gap := some cursor.groups.length })

theorem group_separator_separates (cursor : GroupCursor) :
    Separates cursor (groupSeparator cursor) := by
  unfold groupSeparator
  cases span : cursor.span with
  | nil => exact .ends span
  | cons c rest =>
      by_cases colon : c = code ':'
      · subst colon
        dsimp only
        rw [if_neg (not_ne_iff.mpr rfl)]
        cases rest with
        | nil => exact .fails
        | cons next after =>
            dsimp only
            by_cases double : next = code ':'
            · subst double
              by_cases first : cursor.gap = none
              · simp only [if_true, first, ne_eq, not_true_eq_false, if_false]
                by_cases last : after = []
                · subst last
                  rw [if_pos rfl]
                  exact .gapEnds span first
                · rw [if_neg last]
                  exact .gap span last first
              · simp only [if_true, ne_eq, first, not_false_eq_true]
                exact .fails
            · simp only [if_neg double]
              exact .colon span (List.cons_ne_nil _ _)
      · dsimp only
        rw [if_pos colon]
        exact .fails

/-- What a turn does: it stands at the end, fails, or takes a group. -/
inductive Turns (cursor : GroupCursor) : Turn GroupCursor (Option GroupCursor) → Prop where
  | fails : Turns cursor (.leave none)
  | done (span : cursor.span = []) : Turns cursor (.leave (some cursor))
  | takes {group : Group} {rest : List UInt8} {turn : Turn GroupCursor (Option GroupCursor)}
      (span : cursor.span = group.digits ++ rest) (room : cursor.groups.length < 8)
      (separates : Separates
        { cursor with span := rest, groups := cursor.groups ++ [group.value] } turn) :
      Turns cursor turn

theorem group_turn_turns {cursor : GroupCursor} {turn : Turn GroupCursor (Option GroupCursor)}
    (pass : groupTurn cursor = turn) : Turns cursor turn := by
  subst pass
  rcases group_turn_cases cursor with ⟨span, turned⟩ | turned | ⟨group, rest, span, room, turned⟩
  · rw [turned]
    exact .done span
  · rw [turned]
    exact .fails
  · rw [turned]
    exact .takes span room (group_separator_separates _)

theorem joined_cons {group : Group} {groups : List Group} (more : groups ≠ []) :
    joined (group :: groups) = group.digits ++ code ':' :: joined groups := by
  obtain ⟨next, later, rfl⟩ := List.exists_cons_of_ne_nil more
  rfl

theorem joined_ne_nil {groups : List Group} (more : groups ≠ []) : joined groups ≠ [] := by
  obtain ⟨group, later, rfl⟩ := List.exists_cons_of_ne_nil more
  cases later with
  | nil => exact group.present
  | cons next later => exact List.append_ne_nil_of_left_ne_nil group.present _

/-- What the scan has passed between two states: groups, or groups around the gap. -/
structure Scanned (cursor final : GroupCursor) (before after : List Group) : Prop where
  groups : final.groups = cursor.groups ++ (before ++ after).map Group.value
  room : before ++ after ≠ [] → final.groups.length ≤ 8
  text : (after = [] ∧ final.gap = cursor.gap ∧ cursor.span = joined before) ∨
    (cursor.gap = none ∧ before ≠ [] ∧
      final.gap = some (cursor.groups.length + before.length) ∧
      cursor.span = joined before ++ [code ':', code ':'] ++ joined after)

/-- What the scan accepts is made of groups. -/
theorem ends_scanned {cursor final : GroupCursor} (ends : Ends groupTurn cursor (some final)) :
    ∃ before after, Scanned cursor final before after := by
  generalize result : (some final : Option GroupCursor) = reached at ends
  induction ends with
  | @leave cursor reached pass =>
      subst result
      cases group_turn_turns pass with
      | done span => exact ⟨[], [], by simp, by simp, Or.inl ⟨rfl, rfl, span⟩⟩
      | @takes group rest _ span room separates =>
          cases separates with
          | ends behind =>
              refine ⟨[group], [], by simp, fun _ => by simp; omega, Or.inl ⟨rfl, rfl, ?_⟩⟩
              rw [span, show rest = [] from behind, List.append_nil, joined]
          | gapEnds behind first =>
              refine ⟨[group], [], by simp, fun _ => by simp; omega,
                Or.inr ⟨first, List.cons_ne_nil _ _, by simp, ?_⟩⟩
              rw [span, show rest = [code ':', code ':'] from behind, joined, joined,
                List.append_nil]
  | @again cursor next reached pass later ih =>
      obtain ⟨before, after, passed⟩ := ih result
      cases group_turn_turns pass with
      | @takes group rest _ span room separates =>
          cases separates with
          | @colon left behind more =>
              obtain ⟨groups, most, text⟩ := passed
              have rest_eq : rest = code ':' :: left := behind
              have grown : final.groups =
                  cursor.groups ++ ((group :: before) ++ after).map Group.value := by
                rw [groups]
                simp
              have before_present : before ≠ [] := by
                rcases text with ⟨-, -, last⟩ | ⟨-, present, -⟩
                · rintro rfl
                  exact more last
                · exact present
              refine ⟨group :: before, after, grown, fun _ => most ?_, ?_⟩
              · exact List.append_ne_nil_of_left_ne_nil before_present _
              rw [joined_cons before_present, span, rest_eq]
              rcases text with ⟨none, sameGap, last⟩ | ⟨first, -, found, last⟩
              · exact Or.inl ⟨none, sameGap, by rw [show left = joined before from last]⟩
              · refine Or.inr ⟨first, List.cons_ne_nil _ _, ?_, ?_⟩
                · rw [found]
                  simp
                  omega
                · rw [show left = _ from last]
                  simp
          | @gap left behind more first =>
              obtain ⟨groups, most, text⟩ := passed
              rcases text with ⟨rfl, sameGap, last⟩ | ⟨none, -⟩
              · have left_eq : left = joined before := last
                have before_present : before ≠ [] := by
                  rintro rfl
                  exact more left_eq
                refine ⟨[group], before, ?_, fun _ => most ?_, ?_⟩
                · rw [groups]
                  simp
                · simpa using before_present
                · refine Or.inr ⟨first, List.cons_ne_nil _ _, ?_, ?_⟩
                  · rw [sameGap]
                    simp
                  · rw [span, show rest = code ':' :: code ':' :: left from behind, left_eq,
                      joined]
                    simp
              · cases none

/-- A group starts with a digit. -/
theorem joined_head {groups : List Group} (more : groups ≠ []) :
    ∃ c rest, joined groups = c :: rest ∧ hexVal c ≠ none := by
  obtain ⟨group, later, rfl⟩ := List.exists_cons_of_ne_nil more
  obtain ⟨c, digits, taken⟩ := List.exists_cons_of_ne_nil group.present
  have hex := group.hex c (by rw [taken]; exact List.mem_cons_self)
  cases later with
  | nil => exact ⟨c, digits, taken, hex⟩
  | cons next later =>
      exact ⟨c, digits ++ code ':' :: joined (next :: later), by rw [joined, taken]; rfl, hex⟩

theorem separator_colon (cursor : GroupCursor) (groups : List Group) (tail : List UInt8)
    (span : cursor.span = code ':' :: (joined groups ++ tail)) (more : groups ≠ []) :
    groupSeparator cursor = .again { cursor with span := joined groups ++ tail } := by
  obtain ⟨c, rest, head, hex⟩ := joined_head more
  have single : c ≠ code ':' := by
    rintro rfl
    exact hex (by decide)
  rw [head, List.cons_append] at span ⊢
  simp only [groupSeparator, span, ne_eq, not_true_eq_false, if_false, if_neg single]

theorem separator_gap (cursor : GroupCursor) (after : List UInt8)
    (span : cursor.span = code ':' :: code ':' :: after) (first : cursor.gap = none) :
    groupSeparator cursor =
      if after = [] then
        .leave (some { cursor with span := after, gap := some cursor.groups.length })
      else .again { cursor with span := after, gap := some cursor.groups.length } := by
  simp only [groupSeparator, span, first, ne_eq, not_true_eq_false, if_false, if_true]

/-- The groups before the end are passed one by one. -/
theorem ends_joined (cursor : GroupCursor) (groups : List Group)
    (span : cursor.span = joined groups) (room : cursor.groups.length + groups.length ≤ 8) :
    Ends groupTurn cursor (some { cursor with
      span := [], groups := cursor.groups ++ groups.map Group.value }) := by
  induction groups generalizing cursor with
  | nil =>
      have empty : cursor.span = [] := span
      refine .leave ?_
      rw [groupTurn, if_pos empty, ← empty, List.map_nil, List.append_nil]
  | cons group groups ih =>
      rw [List.length_cons] at room
      cases groups with
      | nil =>
          refine .leave ?_
          rw [group_turn_group (show cursor.span = group.digits ++ [] by
            rw [span, joined, List.append_nil]) (by simp [Stops]) (by omega)]
          rfl
      | cons next groups =>
          have more : next :: groups ≠ [] := List.cons_ne_nil _ _
          rw [joined_cons more] at span
          refine .again (?_ : groupTurn cursor = .again { cursor with
            span := joined (next :: groups), groups := cursor.groups ++ [group.value] }) ?_
          · rw [group_turn_group span (stops_colon _) (by omega)]
            have colon := separator_colon { cursor with
              span := code ':' :: joined (next :: groups)
              groups := cursor.groups ++ [group.value] } (next :: groups) []
              (by rw [List.append_nil]) more
            rw [List.append_nil] at colon
            exact colon
          · have later := ih { cursor with
              span := joined (next :: groups), groups := cursor.groups ++ [group.value] } rfl
              (by rw [List.length_append, List.length_singleton]; omega)
            rwa [List.append_assoc] at later

/-- The groups around the gap are passed one by one. -/
theorem ends_gap (cursor : GroupCursor) (before after : List Group) (present : before ≠ [])
    (span : cursor.span = joined before ++ [code ':', code ':'] ++ joined after)
    (first : cursor.gap = none)
    (room : cursor.groups.length + before.length + after.length ≤ 8) :
    Ends groupTurn cursor (some {
      span := []
      groups := cursor.groups ++ (before ++ after).map Group.value
      gap := some (cursor.groups.length + before.length) }) := by
  induction before generalizing cursor with
  | nil => exact absurd rfl present
  | cons group before ih =>
      rw [List.length_cons] at room
      cases before with
      | nil =>
          have taken : groupTurn cursor = groupSeparator { cursor with
              span := code ':' :: code ':' :: joined after
              groups := cursor.groups ++ [group.value] } :=
            group_turn_group (by rw [span, joined]; simp) (stops_colon _) (by omega)
          have number : (cursor.groups ++ [group.value]).length = cursor.groups.length + 1 := by
            rw [List.length_append, List.length_singleton]
          have turned := taken.trans (separator_gap { cursor with
              span := code ':' :: code ':' :: joined after
              groups := cursor.groups ++ [group.value] } (joined after) rfl first)
          dsimp only at turned
          rw [number] at turned
          by_cases last : joined after = []
          · have none : after = [] := not_ne_iff.mp fun more => joined_ne_nil more last
            rw [if_pos last, last] at turned
            rw [none]
            exact .leave turned
          · rw [if_neg last] at turned
            have later := ends_joined { cursor with
              span := joined after
              groups := cursor.groups ++ [group.value]
              gap := some (cursor.groups.length + 1) } after rfl (by
                rw [number]
                simp only [List.length_nil] at room
                omega)
            rw [List.append_assoc] at later
            exact .again turned later
      | cons next before =>
          have more : next :: before ≠ [] := List.cons_ne_nil _ _
          rw [joined_cons more] at span
          have turned : groupTurn cursor = .again { cursor with
              span := joined (next :: before) ++ ([code ':', code ':'] ++ joined after)
              groups := cursor.groups ++ [group.value] } := by
            rw [group_turn_group (show cursor.span = group.digits ++ code ':' ::
              (joined (next :: before) ++ ([code ':', code ':'] ++ joined after)) by
                rw [span]; simp) (stops_colon _) (by omega)]
            exact separator_colon _ (next :: before) ([code ':', code ':'] ++ joined after) rfl more
          have later := ih { cursor with
              span := joined (next :: before) ++ ([code ':', code ':'] ++ joined after)
              groups := cursor.groups ++ [group.value] } more
            (by rw [List.append_assoc]) first (by
              rw [List.length_append, List.length_singleton]
              omega)
          refine .again turned ?_
          simpa [Nat.add_assoc, Nat.add_comm 1] using later

theorem group_turn_decreasing :
    MeasuredLoop.Decreasing groupTurn fun cursor => cursor.span.length := by
  intro cursor next pass
  cases group_turn_turns pass with
  | @takes group rest _ span room separates =>
      dsimp only
      rw [span, List.length_append]
      cases separates with
      | @colon left behind more =>
          rw [show rest = code ':' :: left from behind, List.length_cons]
          dsimp only
          omega
      | @gap left behind more first =>
          rw [show rest = code ':' :: code ':' :: left from behind, List.length_cons,
            List.length_cons]
          dsimp only
          omega

theorem group_loop_iff (cursor : GroupCursor) (result : Option GroupCursor) :
    groupLoop cursor = result ↔ Ends groupTurn cursor result :=
  MeasuredLoop.run_eq_iff group_turn_decreasing (Nat.lt_succ_self _) result

end Scan

section Write

theorem octets_append (left right : List UInt16) :
    octets (left ++ right) = octets left ++ octets right := List.flatMap_append

theorem octets_length (groups : List UInt16) : (octets groups).length = 2 * groups.length := by
  induction groups with
  | nil => rfl
  | cons n groups ih =>
      rw [octets, List.flatMap_cons, List.length_append, ← octets, ih, List.length_cons]
      simp only [List.length_cons, List.length_nil]
      omega

/-- Groups are written into the part of the array that they fill. -/
theorem assign_from_window (slot : Nat) (groups : List UInt16) (before window after : List UInt8)
    (start : before.length = 2 * slot) (size : window.length = 2 * groups.length) :
    assignFrom slot groups (before ++ window ++ after) = before ++ octets groups ++ after := by
  induction groups generalizing slot before window with
  | nil =>
      obtain rfl : window = [] := List.length_eq_zero_iff.mp size
      rfl
  | cons n groups ih =>
      rw [List.length_cons] at size
      match window, size with
      | high :: low :: window, size =>
          simp only [List.length_cons] at size
          have written : ((before ++ high :: low :: window ++ after).set (2 * slot)
              (n >>> 8).toUInt8).set (2 * slot + 1) (n &&& 0xFF).toUInt8 =
                (before ++ [(n >>> 8).toUInt8, (n &&& 0xFF).toUInt8]) ++ window ++ after := by
            rw [← start]
            simp
          rw [assignFrom, written, ih (slot + 1) _ window (by simp; omega) (by omega)]
          simp [octets]

theorem write_full {cursor : GroupCursor} {out : List UInt8} (sized : out.length = 16)
    (eight : cursor.groups.length = 8) (none : cursor.gap = none) :
    writeGroups (some cursor) out = (true, octets cursor.groups) := by
  have written := assign_from_window 0 cursor.groups [] out [] rfl (by omega)
  simp only [List.nil_append, List.append_nil] at written
  simp only [writeGroups, none, eight, ne_eq, not_true_eq_false, if_false, written]

/-- The gap is filled with zeros. -/
theorem write_gap (cursor : GroupCursor) {out : List UInt8} {left right : List UInt16}
    (sized : out.length = 16) (groups : cursor.groups = left ++ right)
    (gap : cursor.gap = some left.length) (few : left.length + right.length ≤ 7) :
    writeGroups (some cursor) out = (true, octets (left ++
      List.replicate (8 - (left.length + right.length)) 0 ++ right)) := by
  have count : cursor.groups.length = left.length + right.length := by
    rw [groups, List.length_append]
  let zeros : List UInt16 := List.replicate (8 - (left.length + right.length)) 0
  have zeros_length : zeros.length = 8 - (left.length + right.length) := List.length_replicate
  have first := assign_from_window 0 left [] (out.take (2 * left.length))
    (out.drop (2 * left.length)) rfl (by rw [List.length_take]; omega)
  rw [List.nil_append, List.take_append_drop, List.nil_append] at first
  have second := assign_from_window left.length zeros (octets left)
    ((out.drop (2 * left.length)).take (2 * zeros.length))
    ((out.drop (2 * left.length)).drop (2 * zeros.length)) (octets_length left)
    (by rw [List.length_take, List.length_drop]; omega)
  rw [List.append_assoc, List.take_append_drop] at second
  have third := assign_from_window (left.length + zeros.length) right (octets (left ++ zeros))
    ((out.drop (2 * left.length)).drop (2 * zeros.length)) []
    (by rw [octets_length, List.length_append])
    (by rw [List.length_drop, List.length_drop]; omega)
  rw [List.append_nil, List.append_nil] at third
  have room : ¬ cursor.groups.length ≥ 8 := by omega
  simp only [writeGroups, gap, if_neg room]
  rw [groups, List.take_left, List.drop_left, List.length_append, ← zeros_length]
  have same : List.replicate zeros.length 0 = zeros := congrArg (List.replicate · 0) zeros_length
  have slots : left.length + zeros.length + (left.length + right.length - left.length) = 8 := by
    omega
  rw [same, first, second, ← octets_append, third, ← octets_append, decide_eq_true slots]

end Write

section Accepted

theorem Denotes.length {text : List UInt8} {groups : List UInt16} (denotes : Denotes text groups) :
    groups.length = 8 := by
  cases denotes with
  | full groups eight => rw [List.length_map, eight]
  | compressed left right few =>
      simp only [List.length_append, List.length_map, List.length_replicate]
      omega

/-- A text in the grammar is accepted with the address it denotes. -/
theorem denoted_accepted {text out : List UInt8} {groups : List UInt16}
    (denotes : Denotes text groups) (sized : out.length = 16) :
    addressFromString text out = (true, octets groups) := by
  cases denotes with
  | full groups eight =>
      have more : groups ≠ [] := by
        rintro rfl
        cases eight
      obtain ⟨c, rest, head, hex⟩ := joined_head more
      have plain : c ≠ code ':' := by
        rintro rfl
        exact hex (by decide)
      have scanned := (group_loop_iff { span := joined groups } _).mpr
        (ends_joined { span := joined groups } groups rfl (by simp [eight]))
      unfold addressFromString
      rw [if_neg (by rw [head]; simp [plain]), if_neg (by rw [head]; simp [plain]), scanned]
      exact write_full sized (by simp [eight]) rfl
  | compressed left right few =>
      have room : (left.map Group.value).length + (right.map Group.value).length ≤ 7 := by
        simpa using few
      cases left with
      | nil =>
          have start : (joined [] ++ [code ':', code ':'] ++ joined right).take 2 =
              [code ':', code ':'] := rfl
          have behind : (joined [] ++ [code ':', code ':'] ++ joined right).drop 2 =
              joined right := rfl
          unfold addressFromString
          rw [if_pos start, behind]
          by_cases last : joined right = []
          · have none : right = [] := not_ne_iff.mp fun more => joined_ne_nil more last
            rw [if_pos last, none]
            rfl
          · rw [List.length_nil, Nat.zero_add] at few
            have scanned := (group_loop_iff { span := joined right, gap := some 0 } _).mpr
              (ends_joined { span := joined right, gap := some 0 } right rfl (by simp; omega))
            rw [if_neg last, scanned]
            have written := write_gap
              { span := [], groups := right.map Group.value, gap := some 0 } sized
              (List.nil_append _).symm rfl room
            simpa using written
      | cons group left =>
          have more : group :: left ≠ [] := List.cons_ne_nil _ _
          obtain ⟨c, rest, head, hex⟩ := joined_head more
          have plain : c ≠ code ':' := by
            rintro rfl
            exact hex (by decide)
          have scanned := (group_loop_iff
            { span := joined (group :: left) ++ [code ':', code ':'] ++ joined right } _).mpr
              (ends_gap _ (group :: left) right more rfl rfl (by simp at few ⊢; omega))
          unfold addressFromString
          rw [if_neg (by rw [head]; simp [plain]), if_neg (by rw [head]; simp [plain]), scanned]
          have written := write_gap
            { span := []
              groups := (group :: left).map Group.value ++ right.map Group.value
              gap := some ((group :: left).map Group.value).length } sized rfl rfl room
          simpa using written

/-- Any other text is refused, and nothing is written. -/
theorem undenoted_refused {text : List UInt8} (out : List UInt8)
    (foreign : ∀ groups, ¬ Denotes text groups) :
    addressFromString text out = (false, out) := by
  unfold addressFromString
  by_cases start : text.take 2 = [code ':', code ':']
  · have split : text = joined [] ++ [code ':', code ':'] ++ text.drop 2 := by
      rw [joined, List.nil_append, ← start, List.take_append_drop]
    rw [if_pos start]
    by_cases last : text.drop 2 = []
    · rw [last] at split
      exact absurd (split ▸ Denotes.compressed [] [] (by decide)) (foreign _)
    rw [if_neg last]
    cases scanned : groupLoop { span := text.drop 2, gap := some 0 } with
    | none => rfl
    | some final =>
        obtain ⟨before, after, groups, -, passed⟩ := ends_scanned ((group_loop_iff _ _).mp scanned)
        rcases passed with ⟨rfl, gap, behind⟩ | ⟨first, -⟩
        · by_cases full : final.groups.length ≥ 8
          · simp only [writeGroups, gap, if_pos full]
          · rw [groups] at full
            have few : ([] : List Group).length + before.length ≤ 7 := by
              simp at full ⊢
              omega
            have denotes := Denotes.compressed [] before few
            rw [← show text.drop 2 = joined before from behind, ← split] at denotes
            exact absurd denotes (foreign _)
        · cases first
  rw [if_neg start]
  by_cases colon : text.head? = some (code ':')
  · rw [if_pos colon]
  rw [if_neg colon]
  cases scanned : groupLoop { span := text } with
  | none => rfl
  | some final =>
      obtain ⟨before, after, groups, -, passed⟩ := ends_scanned ((group_loop_iff _ _).mp scanned)
      rcases passed with ⟨rfl, gap, whole⟩ | ⟨-, -, gap, whole⟩
      · by_cases eight : final.groups.length = 8
        · rw [groups] at eight
          have denotes := Denotes.full before (by simpa using eight)
          rw [← show text = joined before from whole] at denotes
          exact absurd denotes (foreign _)
        · simp only [writeGroups, show final.gap = none from gap, ne_eq, eight, not_false_eq_true,
            if_true]
      · by_cases full : final.groups.length ≥ 8
        · simp only [writeGroups, gap, if_pos full]
        · rw [groups] at full
          have few : before.length + after.length ≤ 7 := by
            simp at full ⊢
            omega
          have denotes := Denotes.compressed before after few
          rw [← show text = _ from whole] at denotes
          exact absurd denotes (foreign _)

end Accepted

/-- The parser accepts exactly the grammar, writes the address that the text denotes, and
otherwise leaves the array as it was. -/
theorem address_grammar (text : List UInt8) (out : { octets : List UInt8 // octets.length = 16 }) :
    ((addressFromString text out.val).1 = true ↔ ∃ groups, Denotes text groups) ∧
    (∀ groups, Denotes text groups → (addressFromString text out.val).2 = octets groups) ∧
    ((addressFromString text out.val).1 = false → (addressFromString text out.val).2 = out.val) := by
  by_cases inside : ∃ groups, Denotes text groups
  · obtain ⟨groups, denotes⟩ := inside
    have accepted := denoted_accepted denotes out.property
    refine ⟨iff_of_true (by rw [accepted]) ⟨groups, denotes⟩, ?_, ?_⟩
    · intro other same
      rw [denoted_accepted same out.property]
    · intro refused
      rw [accepted] at refused
      cases refused
  · have refused := undenoted_refused out.val (not_exists.mp inside)
    refine ⟨iff_of_false (by rw [refused]; exact Bool.false_ne_true) inside, ?_, ?_⟩
    · exact fun groups denotes => absurd ⟨groups, denotes⟩ inside
    · intro
      rw [refused]

end PcapAnalyzer.Ip.V6
