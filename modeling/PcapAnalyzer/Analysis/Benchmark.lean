import PcapAnalyzer.Library.Stopwatch

/-!
# Benchmarks

The phases of a run and their watches. Phases that are entered for every packet are measured on
demand only.
-/

namespace PcapAnalyzer

open Stopwatch (Mark Watches)

set_option autoImplicit false

inductive Phase where
  | total
  | fileHeader
  | packetHeader
  | decode
  | decodePacket
  | flowLookup
  | tcpReassembly
  | appDecode
  deriving DecidableEq

structure Benchmark where
  phases : Watches Phase := {}
  bytes : Nat := 0
  detailed : Bool := false

namespace Benchmark

def isPerPacket (phase : Phase) : Bool := phase ≠ .total && phase ≠ .fileHeader

def measures (benchmark : Benchmark) (phase : Phase) : Bool :=
  benchmark.detailed || !isPerPacket phase

section Clock

/- `clock` is what the steady clock says when it is read for the first time, the second time and
so on. -/
variable (clock : Nat → Nat)

def play (marks : List (Mark Phase)) (benchmark : Benchmark) : Benchmark :=
  { benchmark with phases := Stopwatch.play clock benchmark.measures marks benchmark.phases }

def start (phase : Phase) (benchmark : Benchmark) : Benchmark :=
  { benchmark with
    phases := Stopwatch.mark clock benchmark.measures benchmark.phases (.start phase) }

def stop (phase : Phase) (benchmark : Benchmark) : Benchmark :=
  { benchmark with
    phases := Stopwatch.mark clock benchmark.measures benchmark.phases (.stop phase) }

@[simp] theorem play_nil (benchmark : Benchmark) : benchmark.play clock [] = benchmark := rfl

theorem play_play (left right : List (Mark Phase)) (benchmark : Benchmark) :
    (benchmark.play clock left).play clock right = benchmark.play clock (left ++ right) := by
  simp only [play, Stopwatch.play_append]
  rfl

/-- Starting and stopping are playing one mark. -/
theorem start_eq (phase : Phase) (benchmark : Benchmark) :
    benchmark.start clock phase = benchmark.play clock [.start phase] := rfl

theorem stop_eq (phase : Phase) (benchmark : Benchmark) :
    benchmark.stop clock phase = benchmark.play clock [.stop phase] := rfl

end Clock

/-- `calls` and `elapsedNs` of a phase. -/
def calls (benchmark : Benchmark) (phase : Phase) : Nat := (benchmark.phases.states phase).calls

def elapsedNs (benchmark : Benchmark) (phase : Phase) : Nat :=
  (benchmark.phases.states phase).elapsed

end Benchmark

end PcapAnalyzer
