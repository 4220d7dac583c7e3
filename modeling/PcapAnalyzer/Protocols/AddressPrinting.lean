import PcapAnalyzer.Protocols.AddressGrammar
import PcapAnalyzer.Util.Printing

/-!
# Printed addresses

The two `printIp`. The one of IPv6 looks for the longest run of zero groups with an index that
it moves inside of its own loop, and prints a double colon for the run. Whatever run it finds,
the text is in the grammar of the parser and denotes the address.
-/

namespace PcapAnalyzer.Ip

open MeasuredLoop (Turn Decreasing)

set_option autoImplicit false

namespace V4

def printIp (ip : List UInt8) : List UInt8 :=
  decimal (ip.getD 0 0).toNat ++ [code '.'] ++ decimal (ip.getD 1 0).toNat ++ [code '.'] ++
    decimal (ip.getD 2 0).toNat ++ [code '.'] ++ decimal (ip.getD 3 0).toNat

/-- `printIp` of an address in host order. -/
def printIpWord (ip : UInt32) : List UInt8 :=
  decimal ((ip >>> 24) &&& 0xFF).toNat ++ [code '.'] ++
    decimal ((ip >>> 16) &&& 0xFF).toNat ++ [code '.'] ++
    decimal ((ip >>> 8) &&& 0xFF).toNat ++ [code '.'] ++ decimal (ip &&& 0xFF).toNat

/-- The digits of an octet are read in one go. -/
theorem octet_loop_digits (digits rest : List UInt8) (cursor : OctetCursor)
    (decimal : ∀ byte ∈ digits, isdigit byte = true) (short : cursor.digits + digits.length ≤ 3)
    (small : digits.foldl (fun value c => value * 10 + (c - code '0').toNat) cursor.value ≤ 255) :
    octetLoop (digits ++ rest) cursor = octetLoop rest { cursor with
      value := digits.foldl (fun value c => value * 10 + (c - code '0').toNat) cursor.value
      digits := cursor.digits + digits.length } := by
  induction digits generalizing cursor with
  | nil => rfl
  | cons digit digits ih =>
      obtain ⟨first, others⟩ := List.forall_mem_cons.mp decimal
      rw [List.foldl_cons] at small
      rw [List.length_cons] at short
      have reached := decimal_value_le digits (cursor.value * 10 + (digit - code '0').toNat)
      have fits : ¬ (cursor.value * 10 + (digit - code '0').toNat > 255 ∨
          cursor.digits + 1 > 3) := by
        omega
      rw [List.cons_append, octetLoop, if_pos first]
      simp only [if_neg fits]
      rw [ih { cursor with
        value := cursor.value * 10 + (digit - code '0').toNat
        digits := cursor.digits + 1 } others (by dsimp only; omega) small]
      simp only [List.foldl_cons, List.length_cons, Nat.add_assoc, Nat.add_comm 1]

/-- A printed octet is read back. -/
theorem octet_loop_decimal (byte : UInt8) (rest : List UInt8) {cursor : OctetCursor}
    (start : cursor.value = 0 ∧ cursor.digits = 0) :
    octetLoop (decimal byte.toNat ++ rest) cursor = octetLoop rest { cursor with
      value := byte.toNat, digits := (decimal byte.toNat).length } := by
  have bound := byte.toNat_lt
  have short : (decimal byte.toNat).length ≤ 3 := decimal_length_le (by decide) (by omega)
  have value := decimal_value byte.toNat
  rw [← start.1] at value
  rw [octet_loop_digits _ rest cursor (decimal_digits _) (by omega) (by rw [value]; omega), value,
    start.2, Nat.zero_add]

theorem store_octet_byte (byte : UInt8) (cursor : OctetCursor) (value : cursor.value = byte.toNat) :
    storeOctet cursor =
      { octets := cursor.octets + 1, out := cursor.out.set cursor.octets byte } := by
  rw [storeOctet, value, UInt8.ofNat_toNat]

/-- An octet with the dot behind it. -/
theorem octet_loop_dot (byte : UInt8) (rest : List UInt8) (octets : Nat) (out : List UInt8)
    (room : octets ≤ 3) :
    octetLoop (decimal byte.toNat ++ code '.' :: rest) { octets := octets, out := out } =
      octetLoop rest { octets := octets + 1, out := out.set octets byte } := by
  have present : ¬ ((decimal byte.toNat).length = 0 ∨ octets > 3) := by
    rintro (none | full)
    · exact decimal_ne_nil _ (List.length_eq_zero_iff.mp none)
    · omega
  rw [octet_loop_decimal byte _ ⟨rfl, rfl⟩, octetLoop, if_neg (by decide), if_pos rfl,
    if_neg present, store_octet_byte byte _ rfl]

theorem octet_loop_last (byte : UInt8) (out : List UInt8) :
    octetLoop (decimal byte.toNat) { octets := 3, out := out } = (true, out.set 3 byte) := by
  have present : ¬ ((decimal byte.toNat).length = 0 ∨ 3 > 3) := by
    rintro (none | full)
    · exact decimal_ne_nil _ (List.length_eq_zero_iff.mp none)
    · omega
  rw [← List.append_nil (decimal byte.toNat), octet_loop_decimal byte [] ⟨rfl, rfl⟩, octetLoop,
    if_neg present, store_octet_byte byte _ rfl]
  rfl

/-- A printed address parses back. -/
theorem printed_parses {ip out : List UInt8} (address : ip.length = 4) (sized : out.length = 4) :
    addressFromString (printIp ip) out = (true, ip) := by
  match ip, out with
  | [first, second, third, last], [_, _, _, _] =>
      simp only [printIp, addressFromString, List.getD_cons_zero, List.getD_cons_succ,
        List.append_assoc, List.cons_append, List.nil_append]
      rw [octet_loop_dot _ _ 0 _ (by decide), octet_loop_dot _ _ 1 _ (by decide),
        octet_loop_dot _ _ 2 _ (by decide), octet_loop_last]
      rfl

/-- Both printers write the same text. -/
theorem print_ip_word (ip : UInt32) : printIpWord ip =
    printIp [((ip >>> 24) &&& 0xFF).toUInt8, ((ip >>> 16) &&& 0xFF).toUInt8,
      ((ip >>> 8) &&& 0xFF).toUInt8, (ip &&& 0xFF).toUInt8] := by
  have octet (word : UInt32) : (word &&& 0xFF).toUInt8.toNat = (word &&& 0xFF).toNat := by
    rw [UInt32.toNat_toUInt8, UInt32.toNat_and]
    have small : word.toNat &&& (0xFF : UInt32).toNat ≤ 255 := Nat.and_le_right
    exact Nat.mod_eq_of_lt (Nat.lt_succ_of_le small)
  simp only [printIpWord, printIp, List.getD_cons_zero, List.getD_cons_succ, octet]

/-- What the parser accepts has dots in it. -/
theorem accepted_dot {text : List UInt8} {cursor : OctetCursor} (few : cursor.octets < 3)
    (accepted : (octetLoop text cursor).1 = true) : code '.' ∈ text := by
  induction text generalizing cursor with
  | nil =>
      rw [octetLoop] at accepted
      split_ifs at accepted
      have last : cursor.octets + 1 = 4 := of_decide_eq_true accepted
      omega
  | cons c text ih =>
      by_cases dot : c = code '.'
      · exact dot ▸ List.mem_cons_self
      · rw [octetLoop, if_neg dot] at accepted
        dsimp only at accepted
        refine List.mem_cons_of_mem _ ?_
        split_ifs at accepted
        refine ih ?_ accepted
        exact few

end V4

namespace V6

/-- `ip[i] == 0 && ip[i + 1] == 0`. -/
def zeroGroup (ip : List UInt8) (i : Nat) : Bool := ip.getD i 0 = 0 && ip.getD (i + 1) 0 = 0

def zerosTurn (ip : List UInt8) (i : Nat) : Turn Nat Nat :=
  if i + 2 < 16 ∧ zeroGroup ip (i + 2) then .again (i + 2) else .leave i

/-- The last group of the run of zeros that starts at `i`. -/
def zerosEnd (ip : List UInt8) (i : Nat) : Nat :=
  MeasuredLoop.run (zerosTurn ip) id (16 - i + 1) i

/-- `bestStart` and `bestLen`. The length is that up to the last group. -/
structure ZeroRun where
  start : Option Nat := none
  len : Nat := 0

structure RunCursor where
  i : Nat := 0
  best : ZeroRun := {}

def runTurn (ip : List UInt8) (cursor : RunCursor) : Turn RunCursor ZeroRun :=
  if cursor.i ≥ 16 then .leave cursor.best else
  if !zeroGroup ip cursor.i then .again { cursor with i := cursor.i + 2 } else
  let i := zerosEnd ip cursor.i
  let len := i - cursor.i
  .again {
    i := i + 2
    best := if len > cursor.best.len then { start := some cursor.i, len := len } else cursor.best }

/-- A run of one group only is none. -/
def zeroRun (ip : List UInt8) : ZeroRun :=
  let best := MeasuredLoop.run (runTurn ip) RunCursor.best 17 {}
  if best.len < 2 then { best with start := none } else best

structure PrintCursor where
  i : Nat := 0
  os : List UInt8 := []

def printTurn (ip : List UInt8) (best : ZeroRun) (cursor : PrintCursor) :
    Turn PrintCursor (List UInt8) :=
  if cursor.i ≥ 16 then .leave cursor.os else
  if best.start = some cursor.i then
    let os := cursor.os ++ [code ':']
    let i := cursor.i + best.len
    let os := if i + 2 = 16 then os ++ [code ':'] else os
    .again { i := i + 2, os := os }
  else
    let os := if cursor.i ≠ 0 then cursor.os ++ [code ':'] else cursor.os
    .again {
      i := cursor.i + 2
      os := os ++ hexByte (ip.getD cursor.i 0) ++ hexByte (ip.getD (cursor.i + 1) 0) }

def printIp (ip : List UInt8) : List UInt8 :=
  MeasuredLoop.run (printTurn ip (zeroRun ip)) PrintCursor.os 17 {}

section Runs

variable {ip : List UInt8}

theorem zeros_turn_decreasing : Decreasing (zerosTurn ip) fun i => 16 - i := by
  intro i next pass
  unfold zerosTurn at pass
  split_ifs at pass with more
  cases pass
  dsimp only
  omega

/-- From `i` on zero groups have been passed. -/
def Passed (ip : List UInt8) (i stop : Nat) : Prop :=
  ∃ k, stop = i + 2 * k ∧ (k = 0 ∨ i + 2 * k < 16) ∧
    ∀ j, 1 ≤ j → j ≤ k → zeroGroup ip (i + 2 * j) = true

theorem zeros_end_spec (ip : List UInt8) (i : Nat) : Passed ip i (zerosEnd ip i) := by
  refine MeasuredLoop.run_invariant zeros_turn_decreasing (Passed ip i) (Passed ip i) ?_ ?_ _ i
    (Nat.lt_succ_self _) ⟨0, rfl, Or.inl rfl, by omega⟩
  · rintro _ next ⟨k, rfl, -, zero⟩ pass
    unfold zerosTurn at pass
    split_ifs at pass with more
    cases pass
    refine ⟨k + 1, by omega, by omega, fun j positive below => ?_⟩
    rcases Nat.lt_or_ge k j with last | earlier
    · obtain rfl : j = k + 1 := by omega
      exact more.2
    · exact zero j positive earlier
  · rintro stop result held pass
    unfold zerosTurn at pass
    split_ifs at pass
    cases pass
    exact held

/-- A run of at least two zero groups. -/
structure IsRun (ip : List UInt8) (best : ZeroRun) (a b : Nat) : Prop where
  start : best.start = some (2 * a)
  len : best.len = 2 * b
  several : 1 ≤ b
  inside : a + b < 8
  zero : ∀ j, a ≤ j → j ≤ a + b → zeroGroup ip (2 * j) = true

theorem run_turn_decreasing : Decreasing (runTurn ip) fun cursor => 16 - cursor.i := by
  intro cursor next pass
  obtain ⟨k, stop, -⟩ := zeros_end_spec ip cursor.i
  unfold runTurn at pass
  split_ifs at pass with last other
  · cases pass
    dsimp only
    omega
  · cases pass
    dsimp only
    omega

/-- Whatever the search finds is a run of zero groups. -/
theorem run_search_spec (ip : List UInt8) :
    let best := MeasuredLoop.run (runTurn ip) RunCursor.best 17 {}
    best = {} ∨ ∃ a b, IsRun ip best a b := by
  refine MeasuredLoop.run_invariant run_turn_decreasing
    (fun cursor => cursor.i % 2 = 0 ∧ (cursor.best = {} ∨ ∃ a b, IsRun ip cursor.best a b))
    (fun best => best = {} ∨ ∃ a b, IsRun ip best a b) ?_ ?_ 17 {} (by decide)
    ⟨rfl, Or.inl rfl⟩
  · rintro cursor next ⟨even, held⟩ pass
    obtain ⟨k, stop, inside, zero⟩ := zeros_end_spec ip cursor.i
    unfold runTurn at pass
    split_ifs at pass with last other
    · cases pass
      exact ⟨by dsimp only; omega, held⟩
    · cases pass
      refine ⟨by dsimp only; omega, ?_⟩
      dsimp only
      by_cases longer : zerosEnd ip cursor.i - cursor.i > cursor.best.len
      · rw [if_pos longer]
        refine Or.inr ⟨cursor.i / 2, k, ?_⟩
        have start : cursor.i = 2 * (cursor.i / 2) := by omega
        refine ⟨congrArg some start, by dsimp only; omega, by omega, by omega, ?_⟩
        intro j low high
        rcases Nat.eq_or_lt_of_le low with rfl | later
        · rw [← start]
          simpa using other
        · have passed := zero (j - cursor.i / 2) (by omega) (by omega)
          rwa [show cursor.i + 2 * (j - cursor.i / 2) = 2 * j by omega] at passed
      · rw [if_neg longer]
        exact held
  · rintro cursor result ⟨-, held⟩ pass
    unfold runTurn at pass
    split_ifs at pass
    cases pass
    exact held

theorem zero_run_spec (ip : List UInt8) :
    (zeroRun ip).start = none ∨ ∃ a b, IsRun ip (zeroRun ip) a b := by
  have found := run_search_spec ip
  dsimp only at found
  unfold zeroRun
  dsimp only
  split_ifs with short
  · exact Or.inl rfl
  · rcases found with none | run
    · rw [none]
      exact Or.inl rfl
    · exact Or.inr run

end Runs

section Print

variable {ip : List UInt8} {best : ZeroRun}

theorem hex_val_digit {d : Nat} (small : d < 16) : hexVal (code (Nat.digitChar d)) = some d := by
  have all : ∀ d : Fin 16, hexVal (code (Nat.digitChar d)) = some d.val := by decide
  exact all ⟨d, small⟩

theorem hex_byte_hex (byte : UInt8) : ∀ c ∈ hexByte byte, hexVal c ≠ none := by
  have bound := byte.toNat_lt
  intro c member
  rw [hexByte, List.mem_cons, List.mem_singleton] at member
  rcases member with rfl | rfl
  · rw [hex_val_digit (by omega)]
    exact Option.some_ne_none _
  · rw [hex_val_digit (by omega)]
    exact Option.some_ne_none _

/-- The group that is printed for two octets. -/
def printedGroup (ip : List UInt8) (j : Nat) : Group where
  digits := hexByte (ip.getD (2 * j) 0) ++ hexByte (ip.getD (2 * j + 1) 0)
  hex := List.forall_mem_append.mpr ⟨hex_byte_hex _, hex_byte_hex _⟩
  present := List.cons_ne_nil _ _
  short := le_rfl

def groupValue (ip : List UInt8) (j : Nat) : UInt16 :=
  UInt16.ofNat ((ip.getD (2 * j) 0).toNat * 256 + (ip.getD (2 * j + 1) 0).toNat)

theorem printed_group_value (ip : List UInt8) (j : Nat) :
    (printedGroup ip j).value = groupValue ip j := by
  have high := (ip.getD (2 * j) 0).toNat_lt
  have low := (ip.getD (2 * j + 1) 0).toNat_lt
  rw [Group.value, groupValue]
  congr 1
  simp only [hexNumber, printedGroup, hexByte, List.cons_append, List.nil_append, List.foldl_cons,
    List.foldl_nil]
  rw [hex_val_digit (by omega), hex_val_digit (by omega), hex_val_digit (by omega),
    hex_val_digit (by omega)]
  simp only [Option.getD_some]
  omega

def printedGroups (ip : List UInt8) (start count : Nat) : List Group :=
  (List.range' start count).map (printedGroup ip)

theorem printed_groups_succ (ip : List UInt8) (start count : Nat) :
    printedGroups ip start (count + 1) =
      printedGroups ip start count ++ [printedGroup ip (start + count)] := by
  rw [printedGroups, List.range'_concat, List.map_append, Nat.one_mul]
  rfl

theorem printed_groups_ne_nil {start count : Nat} (some_left : count ≠ 0) :
    printedGroups ip start count ≠ [] := by
  rw [printedGroups, Ne, List.map_eq_nil_iff, List.range'_eq_nil_iff]
  exact some_left

theorem joined_append_one (groups : List Group) (group : Group) :
    joined (groups ++ [group]) =
      (if groups = [] then [] else joined groups ++ [code ':']) ++ group.digits := by
  induction groups with
  | nil => rfl
  | cons first groups ih =>
      cases groups with
      | nil => simp [joined]
      | cons next groups =>
          rw [List.cons_append, joined_cons (by simp), ih, if_neg (List.cons_ne_nil _ _),
            if_neg (List.cons_ne_nil _ _), joined_cons (List.cons_ne_nil _ _)]
          simp

/-- What has been written before a turn: the groups so far, or those in front of the run, the
run, and the groups so far behind it. -/
inductive Written (ip : List UInt8) (best : ZeroRun) (cursor : PrintCursor) : Prop where
  | before {c : Nat} (i : cursor.i = 2 * c) (within : c ≤ 8)
      (os : cursor.os = joined (printedGroups ip 0 c))
      (ahead : ∀ a b, IsRun ip best a b → c ≤ a)
  | behind {a b c : Nat} (run : IsRun ip best a b) (i : cursor.i = 2 * (a + b + 1 + c))
      (within : a + b + 1 + c ≤ 8)
      (os : cursor.os = joined (printedGroups ip 0 a) ++ [code ':'] ++
        if c = 0 ∧ a + b + 1 < 8 then [] else
          [code ':'] ++ joined (printedGroups ip (a + b + 1) c))

theorem print_turn_decreasing : Decreasing (printTurn ip best) fun cursor => 16 - cursor.i := by
  intro cursor next pass
  unfold printTurn at pass
  split_ifs at pass with last here
  all_goals
    cases pass
    dsimp only
    omega

theorem print_turn_written (found : best.start = none ∨ ∃ a b, IsRun ip best a b)
    {cursor next : PrintCursor} (written : Written ip best cursor)
    (pass : printTurn ip best cursor = .again next) : Written ip best next := by
  unfold printTurn at pass
  by_cases last : cursor.i ≥ 16
  · rw [if_pos last] at pass
    cases pass
  rw [if_neg last] at pass
  by_cases here : best.start = some cursor.i
  · -- the run starts here, so it has not been passed
    rw [if_pos here] at pass
    cases pass
    rcases found with none | ⟨a, b, run⟩
    · rw [none] at here
      cases here
    have start : 2 * a = cursor.i := Option.some.inj (run.start.symm.trans here)
    have inside := run.inside
    have len := run.len
    cases written with
    | @before c i within os ahead =>
        obtain rfl : c = a := by omega
        refine .behind run (c := 0) (by dsimp only; omega) (by omega) ?_
        dsimp only
        rw [os]
        by_cases full : c + b + 1 < 8
        · rw [if_neg (by omega), if_pos ⟨rfl, full⟩, List.append_nil]
        · rw [if_pos (by omega), if_neg fun both => full both.2]
          simp [printedGroups, joined]
    | @behind a' b' c run' i within os =>
        have same : 2 * a = 2 * a' := Option.some.inj (run.start.symm.trans run'.start)
        omega
  · rw [if_neg here] at pass
    cases pass
    cases written with
    | @before c i within os ahead =>
        refine .before (c := c + 1) (by dsimp only; omega) (by omega) ?_ ?_
        · dsimp only
          rw [printed_groups_succ, joined_append_one, os, i, Nat.zero_add, List.append_assoc]
          refine congrArg (· ++ (printedGroup ip c).digits) ?_
          by_cases first : c = 0
          · rw [first]
            rfl
          · rw [if_pos (by omega), if_neg (printed_groups_ne_nil first)]
        · intro a b run
          have apart : a ≠ c := by
            rintro rfl
            exact here (run.start.trans (congrArg some i.symm))
          have earlier := ahead a b run
          omega
    | @behind a b c run i within os =>
        refine .behind run (c := c + 1) (by dsimp only; omega) (by omega) ?_
        dsimp only
        rw [if_pos (by omega), if_neg fun both => Nat.succ_ne_zero c both.1, printed_groups_succ,
          joined_append_one, os, i, List.append_assoc _ (hexByte _)]
        change _ ++ (printedGroup ip (a + b + 1 + c)).digits = _
        by_cases first : c = 0
        · rw [if_pos ⟨first, by omega⟩, first]
          simp [printedGroups]
        · rw [if_neg fun both => first both.1, if_neg (printed_groups_ne_nil first)]
          simp

/-- What has been written at the end. -/
theorem print_ip_written (ip : List UInt8) :
    (printIp ip = joined (printedGroups ip 0 8)) ∨
    ∃ a b, IsRun ip (zeroRun ip) a b ∧ printIp ip = joined (printedGroups ip 0 a) ++
      [code ':', code ':'] ++ joined (printedGroups ip (a + b + 1) (8 - (a + b + 1))) := by
  refine MeasuredLoop.run_invariant print_turn_decreasing (Written ip (zeroRun ip))
    (fun os => os = joined (printedGroups ip 0 8) ∨
      ∃ a b, IsRun ip (zeroRun ip) a b ∧ os = joined (printedGroups ip 0 a) ++
        [code ':', code ':'] ++ joined (printedGroups ip (a + b + 1) (8 - (a + b + 1))))
    (fun _ _ written pass => print_turn_written (zero_run_spec ip) written pass) ?_ 17 {}
    (by decide) (.before (c := 0) rfl (by decide) rfl fun _ _ _ => Nat.zero_le _)
  intro cursor os written pass
  unfold printTurn at pass
  split_ifs at pass with last
  cases pass
  cases written with
  | @before c i within os ahead =>
      obtain rfl : c = 8 := by omega
      exact Or.inl os
  | @behind a b c run i within os =>
      obtain rfl : c = 8 - (a + b + 1) := by omega
      refine Or.inr ⟨a, b, run, ?_⟩
      rw [os, if_neg (by omega)]
      simp

end Print

section RoundTrip

variable {ip : List UInt8}

theorem printed_values (ip : List UInt8) (start count : Nat) :
    (printedGroups ip start count).map Group.value =
      (List.range' start count).map (groupValue ip) := by
  rw [printedGroups, List.map_map]
  exact List.map_congr_left fun j _ => printed_group_value ip j

theorem zero_group_value {j : Nat} (zero : zeroGroup ip (2 * j) = true) : groupValue ip j = 0 := by
  simp only [zeroGroup, Bool.and_eq_true, decide_eq_true_eq] at zero
  rw [groupValue, zero.1, zero.2]
  rfl

/-- The printed text denotes the groups of the address. -/
theorem print_ip_denotes (ip : List UInt8) :
    Denotes (printIp ip) ((List.range' 0 8).map (groupValue ip)) := by
  rcases print_ip_written ip with full | ⟨a, b, run, compressed⟩
  · rw [full, ← printed_values]
    exact .full _ (by simp [printedGroups])
  · have inside := run.inside
    have several := run.several
    have denotes := Denotes.compressed (printedGroups ip 0 a)
      (printedGroups ip (a + b + 1) (8 - (a + b + 1))) (by simp [printedGroups]; omega)
    rw [← compressed, printed_values, printed_values] at denotes
    have missing : 8 - ((printedGroups ip 0 a).length +
        (printedGroups ip (a + b + 1) (8 - (a + b + 1))).length) = b + 1 := by
      simp only [printedGroups, List.length_map, List.length_range']
      omega
    have zeros : List.replicate (b + 1) 0 = (List.range' a (b + 1)).map (groupValue ip) := by
      symm
      rw [List.eq_replicate_iff]
      refine ⟨by simp, ?_⟩
      intro value member
      obtain ⟨j, within, rfl⟩ := List.mem_map.mp member
      rw [List.mem_range'_1] at within
      exact zero_group_value (run.zero j within.1 (by omega))
    rw [missing, zeros, ← List.map_append, ← List.map_append] at denotes
    have whole : List.range' 0 a ++ List.range' a (b + 1) ++
        List.range' (a + b + 1) (8 - (a + b + 1)) = List.range' 0 8 := by
      have front : List.range' 0 a ++ List.range' a (b + 1) = List.range' 0 (a + b + 1) := by
        simpa only [Nat.zero_add, Nat.add_assoc] using
          List.range'_append_1 (s := 0) (m := a) (n := b + 1)
      have back := List.range'_append_1 (s := 0) (m := a + b + 1) (n := 8 - (a + b + 1))
      rw [Nat.zero_add] at back
      rw [front, back, Nat.add_sub_cancel' (by omega)]
    rwa [whole] at denotes

theorem group_octets (high low : UInt8) :
    octets [UInt16.ofNat (high.toNat * 256 + low.toNat)] = [high, low] := by
  have highBound := high.toNat_lt
  have lowBound := low.toNat_lt
  have word : (UInt16.ofNat (high.toNat * 256 + low.toNat)).toNat =
      high.toNat * 256 + low.toNat := by
    rw [UInt16.toNat_ofNat']
    omega
  simp only [octets, List.flatMap_cons, List.flatMap_nil, List.append_nil, List.cons.injEq,
    and_true]
  constructor
  · rw [← UInt8.toNat_inj, UInt16.toNat_toUInt8, UInt16.toNat_shiftRight, word,
      show (8 : UInt16).toNat % 16 = 8 from rfl, Nat.shiftRight_eq_div_pow]
    omega
  · rw [← UInt8.toNat_inj, UInt16.toNat_toUInt8, UInt16.toNat_and, word,
      show (0xFF : UInt16).toNat = 2 ^ 8 - 1 from rfl, Nat.and_two_pow_sub_one_eq_mod]
    omega

theorem octet_pairs (n : Nat) {bytes : List UInt8} (size : bytes.length = 2 * n) :
    (List.range n).flatMap (fun j => [bytes.getD (2 * j) 0, bytes.getD (2 * j + 1) 0]) = bytes := by
  induction n generalizing bytes with
  | zero => exact (List.length_eq_zero_iff.mp size).symm
  | succ n ih =>
      match bytes, size with
      | high :: low :: bytes, size =>
          simp only [List.length_cons] at size
          rw [List.range_succ_eq_map, List.flatMap_cons, List.flatMap_map]
          simp only [Nat.succ_eq_add_one, Nat.mul_add, Nat.mul_zero, Nat.mul_one,
            List.getD_cons_zero, List.getD_cons_succ, Nat.zero_add, Nat.add_right_comm]
          rw [ih (by omega)]
          rfl

theorem octets_groups (address : ip.length = 16) :
    octets ((List.range' 0 8).map (groupValue ip)) = ip := by
  have pairs : octets ((List.range' 0 8).map (groupValue ip)) =
      (List.range' 0 8).flatMap fun j => [ip.getD (2 * j) 0, ip.getD (2 * j + 1) 0] := by
    rw [octets, List.flatMap_map]
    congr 1
    funext j
    have pair := group_octets (ip.getD (2 * j) 0) (ip.getD (2 * j + 1) 0)
    rwa [octets, List.flatMap_singleton] at pair
  rw [pairs, ← List.range_eq_range', octet_pairs 8 address]

/-- A printed address parses back. -/
theorem printed_parses {out : List UInt8} (address : ip.length = 16) (sized : out.length = 16) :
    addressFromString (printIp ip) out = (true, ip) := by
  rw [denoted_accepted (print_ip_denotes ip) sized, octets_groups address]

theorem joined_mem {groups : List Group} {c : UInt8} (member : c ∈ joined groups) :
    hexVal c ≠ none ∨ c = code ':' := by
  induction groups with
  | nil => cases member
  | cons group groups ih =>
      by_cases more : groups = []
      · rw [more, joined] at member
        exact Or.inl (group.hex c member)
      · rw [joined_cons more, List.mem_append, List.mem_cons] at member
        rcases member with digit | colon | later
        · exact Or.inl (group.hex c digit)
        · exact Or.inr colon
        · exact ih later

theorem denotes_mem {text : List UInt8} {groups : List UInt16} (denotes : Denotes text groups)
    {c : UInt8} (member : c ∈ text) : hexVal c ≠ none ∨ c = code ':' := by
  cases denotes with
  | full groups => exact joined_mem member
  | compressed left right =>
      simp only [List.mem_append, List.mem_cons, List.not_mem_nil, or_false] at member
      rcases member with (first | colon | colon) | second
      · exact joined_mem first
      · exact Or.inr colon
      · exact Or.inr colon
      · exact joined_mem second

/-- What the parser accepts has no dot in it. -/
theorem accepted_no_dot {text out : List UInt8} (accepted : (addressFromString text out).1 = true) :
    code '.' ∉ text := by
  have inside : ∃ groups, Denotes text groups := by
    by_contra outside
    rw [undenoted_refused out (not_exists.mp outside)] at accepted
    cases accepted
  have foreign : ¬ (hexVal (code '.') ≠ none ∨ code '.' = code ':') := by decide
  obtain ⟨groups, denotes⟩ := inside
  exact fun dot => foreign (denotes_mem denotes dot)

end RoundTrip

end V6

end PcapAnalyzer.Ip
