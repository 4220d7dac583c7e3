import PcapAnalyzer.Capture.Callbacks
import PcapAnalyzer.Capture.LinkType
import PcapAnalyzer.Capture.RecordJson
import PcapAnalyzer.Library.Limits

/-!
# The packets section

What `cli` writes with `--packets --json`: an array whose records are printed by the callback of
`readAllPackets`.
-/

namespace PcapAnalyzer.Cli

open Json (Written)
open Limits (limited remaining)
open Pcap (Capture Reader Record)
open Pcap.Reader (recordJson)

set_option autoImplicit false

/-- The stream of the section and `packets_written`. -/
structure PacketsOutput where
  out : List UInt8
  packetsWritten : Nat := 0

namespace PacketsOutput

def write (output : PacketsOutput) (reader : Reader) : PacketsOutput :=
  { out := output.out ++ (if output.packetsWritten > 0 then text ",\n".toList else []) ++
      reader.printJson reader.capture
    packetsWritten := output.packetsWritten + 1 }

/-- The callback. -/
def onPacket (printLimit : Nat) (reader : Reader) (output : PacketsOutput) : PacketsOutput :=
  if printLimit ≠ 0 ∧ printLimit ≤ output.packetsWritten then output else output.write reader

end PacketsOutput

/-- The section, from its bracket to its bracket. -/
def writePackets (printLimit : Nat) (reader : Reader) : PacketsOutput :=
  let output := (reader.readAllPacketsWith (PacketsOutput.onPacket printLimit)
    { out := text "[\n".toList }).2
  { output with out := output.out ++ text "]\n".toList }

section Rows

/-- The rows behind the first. -/
theorem write_more (readers : List Reader) (output : PacketsOutput)
    (started : 0 < output.packetsWritten) : readers.foldl PacketsOutput.write output =
      { out := output.out ++ readers.flatMap fun seen =>
          text ",\n".toList ++ seen.printJson seen.capture
        packetsWritten := output.packetsWritten + readers.length } := by
  induction readers generalizing output with
  | nil => simp
  | cons seen readers ih =>
      rw [List.foldl_cons, ih _ (Nat.succ_pos _)]
      simp only [PacketsOutput.write, gt_iff_lt, started, if_true, List.flatMap_cons,
        List.length_cons, List.append_assoc]
      congr 1
      omega

/-- The texts of packets as pieces of JSON. -/
theorem records_written (readers : List Reader) : ∃ items : List Written,
    (∀ item ∈ items, item.sound) ∧
    items.map Json.Printed.value =
      readers.map (fun seen => recordJson seen.decoder.decoded seen.capture) ∧
    readers.map (fun seen => seen.printJson seen.capture) =
      items.map fun item => item.text ++ [Json.newline] := by
  induction readers with
  | nil => exact ⟨[], List.forall_mem_nil _, rfl, rfl⟩
  | cons seen readers ih =>
      obtain ⟨written, sound, value, printed⟩ := seen.print_json_written seen.capture
      obtain ⟨items, sounds, values, texts⟩ := ih
      refine ⟨written :: items, List.forall_mem_cons.mpr ⟨sound, sounds⟩, ?_, ?_⟩
      · rw [List.map_cons, List.map_cons, value, values]
      · rw [List.map_cons, List.map_cons, printed, texts]

/-- All rows between brackets are an array. -/
theorem rows_document (readers : List Reader) :
    Json.Document
      ((readers.foldl PacketsOutput.write { out := text "[\n".toList }).out ++ text "]\n".toList)
      (.array (readers.map fun seen => recordJson seen.decoder.decoded seen.capture)) := by
  obtain ⟨items, sound, values, texts⟩ := records_written readers
  have document := Json.document_spaced Reader.line_blank Reader.line_blank items sound Reader.line_blank
  rw [values] at document
  convert document using 1
  cases readers with
  | nil =>
      obtain rfl := List.map_eq_nil_iff.mp texts.symm
      rfl
  | cons seen readers =>
      cases items with
      | nil => cases texts
      | cons item items =>
          simp only [List.map_cons, List.cons.injEq] at texts
          have more : (readers.flatMap fun seen =>
              text ",\n".toList ++ seen.printJson seen.capture) =
                items.flatMap fun item =>
                  Json.comma :: ([Json.newline] ++ (item.text ++ [Json.newline])) := by
            rw [← List.flatMap_map (fun seen : Reader => seen.printJson seen.capture)
              (fun row => text ",\n".toList ++ row), texts.2, List.flatMap_map]
            rfl
          rw [List.foldl_cons, write_more _ _ (Nat.succ_pos 0), more]
          simp only [PacketsOutput.write, texts.1, Json.spacedRows, List.append_assoc,
            List.cons_append, List.nil_append]
          rfl

theorem written_count (readers : List Reader) (output : PacketsOutput) :
    (readers.foldl PacketsOutput.write output).packetsWritten =
      output.packetsWritten + readers.length := by
  induction readers generalizing output with
  | nil => rfl
  | cons seen readers ih =>
      rw [List.foldl_cons, ih, List.length_cons, PacketsOutput.write]
      exact (Nat.add_right_comm _ _ _).trans (Nat.add_assoc _ _ _)

end Rows

section Section

variable (data : List UInt8) (config : Config)

/-- The accepted packets of a capture file are numbered from one. -/
theorem new_numbered : let reader := Reader.new data config
    reader.acceptedPackets.map (fun seen => seen.decoder.decoded) =
      List.range' 1 reader.acceptedPackets.length := by
  intro reader
  have started : reader.decoder.decoded = 0 := by
    simp only [reader, Reader.new, Reader.readFileHeader]
    split_ifs <;> rfl
  unfold Reader.acceptedPackets
  split_ifs
  · rfl
  · have numbered := Reader.accepted_numbered reader
      (Pcap.completeRecords reader.endian reader.span).1
    rw [started] at numbered
    exact numbered

/-- The callback prints the packets up to the limit, whatever the limit is. -/
theorem callback_writes (limit : Nat) (reader : Reader) (output : PacketsOutput) :
    (reader.readAllPacketsWith (PacketsOutput.onPacket limit) output).2 =
      (remaining limit output.packetsWritten reader.acceptedPackets).foldl
        PacketsOutput.write output := by
  rw [Reader.read_all_with]
  exact Limits.fold_skipping PacketsOutput.write PacketsOutput.packetsWritten (fun _ _ => rfl) _ _ _

/-- The array of the packets, numbered from one. -/
def packetsJson (captures : List Capture) : Json.Value :=
  .array (captures.zipIdx.map fun (capture, i) => recordJson (i + 1) capture)

theorem numbered_rows (readers : List Reader)
    (numbered : readers.map (fun seen => seen.decoder.decoded) = List.range' 1 readers.length) :
    readers.map (fun seen => recordJson seen.decoder.decoded seen.capture) =
      (readers.map Reader.capture).zipIdx.map fun (capture, i) => recordJson (i + 1) capture := by
  apply List.ext_getElem?
  intro i
  have held := congrArg (fun numbers => numbers[i]?) numbered
  simp only [List.getElem?_map, List.getElem?_zipIdx, Option.map_map] at held ⊢
  cases seen : readers[i]? with
  | none => rfl
  | some reader =>
      obtain ⟨inside, -⟩ := List.getElem?_eq_some_iff.mp seen
      rw [seen, List.getElem?_range' inside] at held
      have number : reader.decoder.decoded = i + 1 := by
        simpa [Nat.add_comm] using held
      simp [number]

theorem limited_numbered (limit : Nat) (readers : List Reader)
    (numbered : readers.map (fun seen => seen.decoder.decoded) = List.range' 1 readers.length) :
    (limited limit readers).map (fun seen => seen.decoder.decoded) =
      List.range' 1 (limited limit readers).length := by
  rw [← Limits.limited_map, numbered]
  unfold limited
  split_ifs
  · rfl
  · rw [List.length_take]
    rcases le_total readers.length limit with short | long
    · rw [List.take_range'_of_length_le short, min_eq_right short]
    · rw [List.take_range'_of_length_ge long, min_eq_left long]

/-- With `--json` the section is the array of the decoded packets up to the limit, each with its
number and the header of its record; printing does not disturb the reading. -/
theorem packets_json_reads (limit : Nat) :
    let reader := Reader.new data config
    let records := (Pcap.completeRecords reader.endian reader.span).1
    ∃ captures : List Capture,
      captures.map (fun capture => capture.pkt) = reader.decodedPackets ∧
      (reader.headerErr = .none → captures.map (fun capture => capture.packetHeader) =
        ((reader.results records).filter fun result => result.2 = .none).map
          fun result => result.1.header) ∧
      (writePackets limit reader).packetsWritten = (limited limit captures).length ∧
      Json.Document (writePackets limit reader).out (packetsJson (limited limit captures)) ∧
      (reader.readAllPacketsWith (PacketsOutput.onPacket limit) { out := text "[\n".toList }).1 =
        reader.readAllPackets := by
  intro reader records
  have numbered : reader.acceptedPackets.map (fun seen => seen.decoder.decoded) = _ :=
    new_numbered data config
  have written := callback_writes limit reader { out := text "[\n".toList }
  rw [Limits.remaining_start] at written
  refine ⟨reader.acceptedPackets.map Reader.capture, ?_, ?_, ?_, ?_, ?_⟩
  · rw [List.map_map]
    exact reader.accepted_packets_decoded
  · intro valid
    rw [Reader.acceptedPackets, if_neg (by simpa using valid), List.map_map]
    exact (Reader.accepted_captures reader records).1
  · rw [writePackets, written, Limits.limited_map, List.length_map, written_count, Nat.zero_add]
  · rw [writePackets, written, packetsJson, Limits.limited_map,
      ← numbered_rows _ (limited_numbered limit _ numbered)]
    exact rows_document _
  · rw [Reader.read_all_with]

end Section

end PcapAnalyzer.Cli
