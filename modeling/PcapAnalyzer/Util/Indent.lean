import PcapAnalyzer.Library.JsonIndent
import PcapAnalyzer.Library.MeasuredLoop
import PcapAnalyzer.Util.Text

/-!
# Indentation

`indent` puts a margin in front of every line. The rest of a text behind its last line end is a
line if there is any.
-/

namespace PcapAnalyzer

open MeasuredLoop (Turn Decreasing)

set_option autoImplicit false

structure IndentCursor where
  rest : List UInt8
  out : List UInt8 := []

/-- A pass of the loop of `indent`: a line, or what is left behind the last line end. -/
def indentTurn (margin : List UInt8) (cursor : IndentCursor) :
    Turn IndentCursor (List UInt8) :=
  if cursor.rest = [] then .leave cursor.out else
  match cutAt (code '\n') cursor.rest with
  | none => .leave (cursor.out ++ margin ++ cursor.rest)
  | some (line, after) =>
      .again { rest := after, out := cursor.out ++ margin ++ line ++ [code '\n'] }

def indent (str margin : List UInt8) : List UInt8 :=
  if str = [] then [] else
  MeasuredLoop.run (indentTurn margin) IndentCursor.out (str.length + 1) { rest := str }

/-- The lines of a text, each with its end. -/
def linesOf : List UInt8 → List (List UInt8)
  | [] => []
  | byte :: text =>
      if byte = code '\n' then [byte] :: linesOf text
      else match linesOf text with
        | [] => [[byte]]
        | line :: lines => (byte :: line) :: lines

section Lines

theorem lines_of_open {text : List UInt8} (present : text ≠ []) (open_ : code '\n' ∉ text) :
    linesOf text = [text] := by
  induction text with
  | nil => exact absurd rfl present
  | cons byte text ih =>
      obtain ⟨first, others⟩ := not_or.mp fun either => open_ (List.mem_cons.mpr either)
      rw [linesOf, if_neg (Ne.symm first)]
      by_cases empty : text = []
      · rw [empty]
        rfl
      · rw [ih empty others]

theorem lines_of_line {line : List UInt8} (open_ : code '\n' ∉ line) (text : List UInt8) :
    linesOf (line ++ code '\n' :: text) = (line ++ [code '\n']) :: linesOf text := by
  induction line with
  | nil => rw [List.nil_append, linesOf, if_pos rfl, List.nil_append]
  | cons byte line ih =>
      obtain ⟨first, others⟩ := not_or.mp fun either => open_ (List.mem_cons.mpr either)
      rw [List.cons_append, linesOf, if_neg (Ne.symm first), ih others]
      rfl

theorem lines_flatten (text : List UInt8) : (linesOf text).flatten = text := by
  induction text with
  | nil => rfl
  | cons byte text ih =>
      rw [linesOf]
      split_ifs
      · rw [List.flatten_cons, ih]
        rfl
      · cases lines : linesOf text with
        | nil =>
            rw [lines] at ih
            rw [← ih]
            rfl
        | cons line more =>
            rw [lines] at ih
            simp only
            rw [List.flatten_cons, List.cons_append, ← List.flatten_cons, ih]

end Lines

section Loop

theorem cut_at_none {c : UInt8} {view : List UInt8} (none : cutAt c view = none) :
    c ∉ view := by
  unfold cutAt at none
  split at none
  · next ends =>
      intro member
      have all := List.dropWhile_eq_nil_iff.mp ends c member
      simp at all
  · cases none

theorem cut_at_some {c : UInt8} {view line after : List UInt8}
    (cut : cutAt c view = some (line, after)) : view = line ++ c :: after ∧ c ∉ line := by
  unfold cutAt at cut
  split at cut
  · cases cut
  · next byte rest found =>
      have whole := List.takeWhile_append_dropWhile (p := fun b => decide (b ≠ c)) (l := view)
      cases cut
      have stops := List.head?_dropWhile_not (fun b => decide (b ≠ c)) view
      rw [found] at stops whole
      have same : byte = c := by simpa using stops
      rw [same] at whole
      refine ⟨whole.symm, fun member => ?_⟩
      have inside := List.mem_takeWhile_imp member
      simp at inside

theorem indent_turn_decreasing (margin : List UInt8) :
    Decreasing (indentTurn margin) fun cursor => cursor.rest.length := by
  intro cursor next pass
  unfold indentTurn at pass
  split_ifs at pass
  split at pass
  · cases pass
  · next line after cut =>
      cases pass
      have whole := congrArg List.length (cut_at_some cut).1
      simp only [List.length_append, List.length_cons] at whole
      change after.length < cursor.rest.length
      omega

/-- What the loop puts out for the lines that are left. -/
theorem indent_run (margin : List UInt8) (cursor : IndentCursor) (fuel : Nat)
    (enough : cursor.rest.length < fuel) :
    MeasuredLoop.run (indentTurn margin) IndentCursor.out fuel cursor =
      cursor.out ++ ((linesOf cursor.rest).map (margin ++ ·)).flatten := by
  induction fuel generalizing cursor with
  | zero => exact absurd enough (Nat.not_lt_zero _)
  | succ fuel ih =>
      cases pass : indentTurn margin cursor with
      | leave result =>
          rw [MeasuredLoop.run_leave (indent_turn_decreasing margin) enough pass]
          unfold indentTurn at pass
          split_ifs at pass with ends
          · cases pass
            rw [ends]
            simp [linesOf]
          · split at pass
            · next none =>
                cases pass
                rw [lines_of_open ends (cut_at_none none)]
                simp
            · cases pass
      | again next =>
          have smaller := indent_turn_decreasing margin cursor next pass
          simp only at smaller
          rw [MeasuredLoop.run, pass]
          change MeasuredLoop.run (indentTurn margin) IndentCursor.out fuel next = _
          rw [ih next (by omega)]
          unfold indentTurn at pass
          split_ifs at pass
          split at pass
          · cases pass
          · next line after cut =>
              obtain ⟨whole, open_⟩ := cut_at_some cut
              cases pass
              rw [whole, lines_of_line open_]
              simp

end Loop

/-- Every line gets the margin, and nothing else changes. -/
theorem indent_lines (str margin : List UInt8) :
    indent str margin = ((linesOf str).map (margin ++ ·)).flatten := by
  unfold indent
  split_ifs with empty
  · rw [empty]
    rfl
  · exact indent_run margin { rest := str } _ (Nat.lt_succ_self _)

section Spread

open Json (spread)

theorem lines_of_ne_nil {text : List UInt8} (present : text ≠ []) : linesOf text ≠ [] := by
  intro none
  have whole := lines_flatten text
  rw [none] at whole
  exact present whole.symm

/-- Behind the first margin, margins stand behind the line ends. -/
theorem indent_spread {str : List UInt8} (present : str ≠ []) (margin : List UInt8) :
    indent str margin = margin ++ spread margin str := by
  rw [indent_lines]
  induction str with
  | nil => exact absurd rfl present
  | cons byte text ih =>
      by_cases empty : text = []
      · rw [empty]
        unfold linesOf spread
        split_ifs <;> simp_all [linesOf, spread]
      · have later := ih empty
        have lines := lines_of_ne_nil empty
        by_cases line : byte = code '\n'
        · have ends : byte = Json.newline := line
          rw [linesOf, if_pos line, List.map_cons, List.flatten_cons, later, ends,
            Json.spread_line empty]
          simp
        · rw [linesOf, if_neg line, Json.spread_solid line]
          cases found : linesOf text with
          | nil => exact absurd found lines
          | cons first more =>
              rw [found, List.map_cons, List.flatten_cons, List.append_assoc] at later
              have same := List.append_cancel_left later
              rw [← same]
              simp

/-- Indenting with blanks puts them in front of every line and of nothing else, and a JSON text
stands for the same value afterwards. -/
theorem indent_keeps_json {str margin : List UInt8}
    (blank : ∀ byte ∈ margin, Json.isSpace byte = true) {value : Json.Value}
    (document : Json.Document str value) :
    (linesOf str).flatten = str ∧
      indent str margin = ((linesOf str).map (margin ++ ·)).flatten ∧
      Json.Document (indent str margin) value := by
  refine ⟨lines_flatten str, indent_lines str margin, ?_⟩
  obtain ⟨rest, read, ends⟩ := Json.document_spread blank document
  have present : str ≠ [] := by
    rintro rfl
    exact absurd rfl read.present
  refine ⟨rest, ?_, ends⟩
  rwa [indent_spread present, Json.skip_blank blank]

end Spread

/-- An array over three lines with a line end behind it. -/
def shortArray : List UInt8 := text "[\n1\n]\n".toList

theorem indent_keeps_json_short :
    Json.Document shortArray (.array [.number (text "1".toList)]) ∧
      indent shortArray (text "  ".toList) = text "  [\n  1\n  ]\n".toList ∧
      Json.Document (indent shortArray (text "  ".toList)) (.array [.number (text "1".toList)]) := by
  have digits : Json.Integer (text "1".toList) := by
    refine ⟨⟨by decide, ?_⟩, by decide⟩
    exact fun byte member => by
      obtain rfl := List.mem_singleton.mp member
      decide
  have number : Json.Number (text "1".toList) := .intro (.inl rfl) digits .none .none
  have document : Json.Document shortArray (.array [.number (text "1".toList)]) :=
    ⟨_, .array (.last (.number number) rfl), rfl⟩
  have blank : ∀ byte ∈ text "  ".toList, Json.isSpace byte = true :=
    List.all_eq_true.mp (by decide)
  exact ⟨document, by decide, (indent_keeps_json blank document).2.2⟩

end PcapAnalyzer
