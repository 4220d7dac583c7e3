import PcapAnalyzer.Library.MeasuredLoop
import PcapAnalyzer.Protocols.Ip
import PcapAnalyzer.Util.Text

/-!
# Addresses and protocols in text

The two `addressFromString` write into an array their caller gives them, and the one of IPv4
may leave octets behind in it when it fails.
-/

namespace PcapAnalyzer.Ip

open MeasuredLoop (Turn)

set_option autoImplicit false

def protocolFromName (name : List UInt8) : Option UInt8 :=
  if isEquals name (text ['t', 'c', 'p']) then some protocolTcp
  else if isEquals name (text ['u', 'd', 'p']) then some protocolUdp
  else if isEquals name (text ['i', 'c', 'm', 'p']) then some protocolIcmp
  else if isEquals name (text ['i', 'c', 'm', 'p', 'v', '6']) then some protocolIcmpv6
  else (parseUint name 255).map UInt64.toUInt8

namespace V4

structure OctetCursor where
  octets : Nat := 0
  value : Nat := 0
  digits : Nat := 0
  out : List UInt8

/-- `out[octets++] = value`. -/
def storeOctet (cursor : OctetCursor) : OctetCursor :=
  { octets := cursor.octets + 1
    out := cursor.out.set cursor.octets (UInt8.ofNat cursor.value) }

/-- `for (i <= text.size())`: the end of the text closes the last octet as a dot does. -/
def octetLoop : List UInt8 → OctetCursor → Bool × List UInt8
  | [], cursor =>
      if cursor.digits = 0 ∨ cursor.octets > 3 then (false, cursor.out) else
      let cursor := storeOctet cursor
      (cursor.octets = 4, cursor.out)
  | c :: rest, cursor =>
      if isdigit c then
        let value := cursor.value * 10 + (c - code '0').toNat
        if value > 255 ∨ cursor.digits + 1 > 3 then (false, cursor.out) else
        octetLoop rest { cursor with value := value, digits := cursor.digits + 1 }
      else if c = code '.' then
        if cursor.digits = 0 ∨ cursor.octets > 3 then (false, cursor.out) else
        octetLoop rest (storeOctet cursor)
      else (false, cursor.out)

def addressFromString (text out : List UInt8) : Bool × List UInt8 := octetLoop text { out := out }

theorem octet_loop_length (text : List UInt8) (cursor : OctetCursor) :
    (octetLoop text cursor).2.length = cursor.out.length := by
  induction text generalizing cursor with
  | nil =>
      rw [octetLoop]
      split_ifs
      · rfl
      · exact List.length_set
  | cons c rest ih =>
      simp only [octetLoop]
      split_ifs
      · rfl
      · exact ih _
      · rfl
      · rw [ih, storeOctet, List.length_set]
      · rfl

theorem address_from_string_length (text out : List UInt8) :
    (addressFromString text out).2.length = out.length := octet_loop_length text _

end V4

namespace V6

def hexVal (c : UInt8) : Option Nat :=
  if code '0' ≤ c ∧ c ≤ code '9' then some (c - code '0').toNat
  else if code 'a' ≤ c ∧ c ≤ code 'f' then some ((c - code 'a').toNat + 10)
  else if code 'A' ≤ c ∧ c ≤ code 'F' then some ((c - code 'A').toNat + 10)
  else none

/-- The digits of one group. A fifth one is a failure. -/
def digitLoop : List UInt8 → Nat → Nat → Option (Nat × Nat × List UInt8)
  | [], value, digits => some (value, digits, [])
  | c :: rest, value, digits =>
      match hexVal c with
      | none => some (value, digits, c :: rest)
      | some d =>
          if digits + 1 > 4 then none else digitLoop rest (value * 16 + d) (digits + 1)

/-- `count` is the number of groups. -/
structure GroupCursor where
  span : List UInt8
  groups : List UInt16 := []
  gap : Option Nat := none

/-- What stands behind a group: the end, or a colon or two and more. -/
def groupSeparator (cursor : GroupCursor) : Turn GroupCursor (Option GroupCursor) :=
  match cursor.span with
  | [] => .leave (some cursor)
  | c :: rest =>
      if c ≠ code ':' then .leave none else
      match rest with
      | [] => .leave none
      | next :: after =>
          if next = code ':' then
            if cursor.gap ≠ none then .leave none else
            let cursor := { cursor with span := after, gap := some cursor.groups.length }
            if after = [] then .leave (some cursor) else .again cursor
          else .again { cursor with span := rest }

def groupTurn (cursor : GroupCursor) : Turn GroupCursor (Option GroupCursor) :=
  if cursor.span = [] then .leave (some cursor) else
  match digitLoop cursor.span 0 0 with
  | none => .leave none
  | some (value, digits, rest) =>
      if digits = 0 ∨ cursor.groups.length ≥ 8 then .leave none else
      groupSeparator
        { cursor with span := rest, groups := cursor.groups ++ [UInt16.ofNat value] }

/-- `while (i < text.size())`. A turn takes a digit at least, so one turn for each character
and one for the end are enough. -/
def groupLoop (cursor : GroupCursor) : Option GroupCursor :=
  MeasuredLoop.run groupTurn (fun _ => none) (cursor.span.length + 1) cursor

/-- `assign(slot++, n)` for each `n`. -/
def assignFrom : Nat → List UInt16 → List UInt8 → List UInt8
  | _, [], out => out
  | slot, n :: rest, out =>
      assignFrom (slot + 1) rest
        ((out.set (2 * slot) (n >>> 8).toUInt8).set (2 * slot + 1) (n &&& 0xFF).toUInt8)

/-- What follows the scan. The gap stands for the groups that are missing. -/
def writeGroups (scanned : Option GroupCursor) (out : List UInt8) : Bool × List UInt8 :=
  match scanned with
  | none => (false, out)
  | some cursor =>
      let count := cursor.groups.length
      match cursor.gap with
      | none => if count ≠ 8 then (false, out) else (true, assignFrom 0 cursor.groups out)
      | some gap =>
          if count ≥ 8 then (false, out) else
          let out := assignFrom 0 (cursor.groups.take gap) out
          let out := assignFrom gap (List.replicate (8 - count) 0) out
          let slot := gap + (8 - count)
          (slot + (count - gap) = 8, assignFrom slot (cursor.groups.drop gap) out)

def addressFromString (text out : List UInt8) : Bool × List UInt8 :=
  if text.take 2 = [code ':', code ':'] then
    if text.drop 2 = [] then (true, List.replicate 16 0) else
    writeGroups (groupLoop { span := text.drop 2, gap := some 0 }) out
  else if text.head? = some (code ':') then (false, out)
  else writeGroups (groupLoop { span := text }) out

theorem assign_from_length (slot : Nat) (groups : List UInt16) (out : List UInt8) :
    (assignFrom slot groups out).length = out.length := by
  induction groups generalizing slot out with
  | nil => rfl
  | cons n rest ih => rw [assignFrom, ih, List.length_set, List.length_set]

theorem write_groups_length (scanned : Option GroupCursor) (out : List UInt8) :
    (writeGroups scanned out).2.length = out.length := by
  cases scanned with
  | none => rfl
  | some cursor =>
      simp only [writeGroups]
      cases cursor.gap with
      | none =>
          simp only
          split_ifs
          · rfl
          · exact assign_from_length _ _ _
      | some gap =>
          simp only
          split_ifs
          · rfl
          · simp only [assign_from_length]

theorem address_from_string_length (text : List UInt8) {out : List UInt8}
    (sized : out.length = 16) : (addressFromString text out).2.length = 16 := by
  unfold addressFromString
  split_ifs
  · rfl
  · rw [write_groups_length, sized]
  · exact sized
  · rw [write_groups_length, sized]

end V6

end PcapAnalyzer.Ip
