import PcapAnalyzer.Analysis.Reporting

/-!
# Runs with a filter

A filter acts on single packets, while flows are made of both directions. A run with a filter is
the run without it over the packets that pass, and a conversation of which the filter takes both
directions comes out as without a filter.
-/

namespace PcapAnalyzer.Decoder

open Pcap (Capture)

set_option autoImplicit false

/-- The same configuration without the filter. -/
def unfiltered (config : Config) : Config := { config with filter := {} }

def withoutFilter (decoder : Decoder) : Decoder :=
  { decoder with config := unfiltered decoder.config }

instance (config : Config) (input : Input) : Decidable (Undecoded config input) :=
  inferInstanceAs (Decidable (_ ≠ _))

/-- The packet gets past the filter, or does not get so far. -/
def passes (config : Config) (input : Input) : Bool :=
  decide (Undecoded config input) || !filtered config.filter (decodedCapture config input).pkt

section Steps

variable {config : Config} {decoder : Decoder}

theorem filtered_none (pkt : Packet) : filtered {} pkt = false := by
  have zero : ({} : FlowKey).isNonZero = false := by decide
  simp [filtered, zero]

theorem decode_flow_without_filter (decoder : Decoder) (capture : Capture) (key : FlowKey)
    (isNew : Bool) : decoder.withoutFilter.decodeFlow capture key isNew =
      (decoder.decodeFlow capture key isNew).withoutFilter := by
  unfold decodeFlow
  cases found : decoder.flowTable.flows.lookup key with
  | none =>
      have foundToo : decoder.withoutFilter.flowTable.flows.lookup key = none := found
      simp only [foundToo]
  | some flow =>
      have foundToo : decoder.withoutFilter.flowTable.flows.lookup key = some flow := found
      simp only [foundToo]
      rfl

theorem decode_capture_without_filter {decoder : Decoder} {capture : Capture}
    (passing : filtered decoder.config.filter capture.pkt = false) :
    decoder.withoutFilter.decodeCapture capture =
      ((decoder.decodeCapture capture).1, (decoder.decodeCapture capture).2.withoutFilter) := by
  have none : filtered decoder.withoutFilter.config.filter capture.pkt = false :=
    filtered_none capture.pkt
  have posted : ({ decoder.withoutFilter with
      flowTable := (decoder.flowTable.addPacket capture).2 } : Decoder) =
        ({ decoder with flowTable := (decoder.flowTable.addPacket capture).2 } :
          Decoder).withoutFilter := rfl
  have sameTable : decoder.withoutFilter.flowTable = decoder.flowTable := rfl
  unfold decodeCapture
  simp only [none, passing, sameTable, posted, Bool.false_eq_true, if_false,
    decode_flow_without_filter]
  split_ifs <;> rfl

/-- A packet that passes is decoded as without the filter. -/
theorem step_passing (sound : Sound config decoder) {input : Input}
    (passing : passes config input = true) :
    step decoder.withoutFilter input = (step decoder input).withoutFilter := by
  have soundToo : Sound (unfiltered config) decoder.withoutFilter :=
    ⟨congrArg unfiltered sound.sameConfig, sound.active, sound.idle, sound.owned⟩
  by_cases undecoded : Undecoded config input
  · rw [step_undecoded sound undecoded, step_undecoded soundToo undecoded]
  · simp only [passes, undecoded, decide_false, Bool.false_or, Bool.not_eq_true'] at passing
    have passed : filtered decoder.config.filter (decodedCapture config input).pkt = false := by
      rw [sound.sameConfig]
      exact passing
    rw [step_decoded sound undecoded, step_decoded soundToo undecoded]
    exact congrArg Prod.snd (decode_capture_without_filter passed)

/-- One that does not pass changes nothing. -/
theorem step_refused (sound : Sound config decoder) {input : Input}
    (refused : passes config input = false) : step decoder input = decoder := by
  simp only [passes, Bool.or_eq_false_iff, decide_eq_false_iff_not, Bool.not_eq_false'] at refused
  rw [step_decoded sound refused.1]
  simp [decodeCapture, sound.sameConfig, refused.2]

/-- A run with a filter is the run without it over the packets that pass. -/
theorem run_passing (sound : Sound config decoder) (inputs : List Input) :
    (inputs.foldl step decoder).withoutFilter =
      (inputs.filter (passes config)).foldl step decoder.withoutFilter := by
  induction inputs generalizing decoder with
  | nil => rfl
  | cons input inputs ih =>
      rw [List.foldl_cons, ih (step_sound sound input)]
      cases passing : passes config input with
      | true =>
          rw [List.filter_cons_of_pos passing, List.foldl_cons, step_passing sound passing]
      | false =>
          rw [List.filter_cons_of_neg (by simp [passing]), step_refused sound passing]

end Steps

section Conversations

variable {config : Config} {key : FlowKey}

theorem matches_of_zero {filter : FlowKey} (zero : filter.isNonZero = false) (pkt : FlowKey) :
    filter.matchesPkt pkt = true := by
  simp only [FlowKey.isNonZero, ne_eq, Bool.or_eq_false_iff, decide_eq_false_iff_not,
    not_not] at zero
  simp [FlowKey.matchesPkt, zero]

/-- A packet passes or not by the key of its conversation if the filter does not tell the two
directions apart. -/
theorem passes_by_key (bothWays : config.filter.matchesPkt key = config.filter.matchesPkt key.swap)
    {input : Input} (own : packetKey config input = some key) :
    passes config input = config.filter.matchesPkt key := by
  unfold packetKey at own
  simp only at own
  split_ifs at own with outside
  simp only [Bool.or_eq_true, decide_eq_true_eq, not_or, not_not] at outside
  have decoded : ¬ Undecoded config input := fun failed => failed outside.1
  cases found : FlowTable.keyFromPacket (decodedCapture config input).pkt {} with
  | error err =>
      simp only [decodedCapture] at found
      simp [found] at own
  | ok raw =>
      have normal : raw.normalize.2 = key := by
        simp only [decodedCapture] at found
        simpa [found] using own
      have same : config.filter.matchesPkt raw = config.filter.matchesPkt key := by
        rw [FlowKey.normalize] at normal
        split_ifs at normal
        · rw [← normal, FlowKey.swap_swap] at bothWays
          rw [← normal, bothWays]
        · rw [← normal]
      simp only [passes, decoded, decide_false, Bool.false_or, filtered, found, same]
      cases zero : config.filter.isNonZero with
      | false => simp [matches_of_zero zero]
      | true => simp

/-- A conversation of which the filter takes both directions is decoded as without the filter, and
one of which it takes neither is not there. -/
theorem filtered_view (inputs : List Input)
    (bothWays : config.filter.matchesPkt key = config.filter.matchesPkt key.swap) :
    view key (run config inputs) =
      if config.filter.matchesPkt key = true then view key (run (unfiltered config) inputs)
      else view key (new config) := by
  have passing := congrArg (view key) (run_passing (new_sound config) inputs)
  have alone : ∀ inputs : List Input, view key (run (unfiltered config) inputs) =
      view key (run (unfiltered config) (ofKey config key inputs)) :=
    fun inputs => Unwinding.view_run_eq (isolated (unfiltered config) key) inputs _ _
      (new_sound (unfiltered config)) (new_sound (unfiltered config)) rfl
  have kept : ofKey config key (inputs.filter (passes config)) =
      (ofKey config key inputs).filter fun _ => config.filter.matchesPkt key := by
    unfold ofKey
    rw [List.filter_filter, List.filter_filter]
    apply List.filter_congr
    intro input _
    by_cases own : packetKey config input = some key
    · rw [passes_by_key bothWays own]
      exact Bool.and_comm _ _
    · simp [own]
  have result : view key (run config inputs) =
      view key (run (unfiltered config) (inputs.filter (passes config))) := passing
  rw [result, alone, kept]
  split_ifs with taken
  · rw [alone inputs, taken, List.filter_true]
  · rw [Bool.not_eq_true] at taken
    rw [taken, List.filter_false]
    rfl

/-- A filter by protocol alone takes whole conversations. -/
theorem protocol_filter_both_ways {filter : FlowKey} (ports : filter.srcPort = 0 ∧ filter.dstPort = 0)
    (addresses : filter.srcIp.anyNonZero = false ∧ filter.dstIp.anyNonZero = false)
    (key : FlowKey) : filter.matchesPkt key = filter.matchesPkt key.swap := by
  simp [FlowKey.matchesPkt, ports, addresses, FlowKey.swap]

end Conversations

/-- A run with a filter is the run without it over the packets that pass: the same flows,
application state, names and count. Under every key of which the filter takes both directions or
neither it holds what the run without a filter holds, or nothing. -/
theorem filter_keeps_conversations (config : Config) (inputs : List Input) :
    let kept := run config inputs
    let selected := run (unfiltered config) (inputs.filter (passes config))
    (kept.flowTable = selected.flowTable ∧ kept.appDecoder = selected.appDecoder ∧
      kept.dnsTable = selected.dnsTable ∧ kept.decoded = selected.decoded) ∧
    ∀ key : FlowKey, config.filter.matchesPkt key = config.filter.matchesPkt key.swap →
      view key kept =
        if config.filter.matchesPkt key = true then view key (run (unfiltered config) inputs)
        else view key (new config) := by
  intro kept selected
  have same : kept.withoutFilter = selected := run_passing (new_sound config) inputs
  refine ⟨?_, fun key bothWays => filtered_view inputs bothWays⟩
  rw [← same]
  exact ⟨rfl, rfl, rfl, rfl⟩

/-- An echo request from 10.0.0.1 to 10.0.0.2, without checksums. -/
def pingFrame : List UInt8 :=
  [2, 0, 0, 0, 0, 1, 2, 0, 0, 0, 0, 2, 0x08, 0x00,
    0x45, 0, 0, 28, 0, 0, 0, 0, 64, 1, 0, 0, 10, 0, 0, 1, 10, 0, 0, 2,
    8, 0, 0, 0, 0, 7, 0, 1]

def pingAt (tsUs : UInt64) : Input :=
  { span := pingFrame
    capture :=
      { tsUs := tsUs
        packetHeader := { inclLen := 42, origLen := 42 }
        pkt := { datalink := .ethernet {} } } }

/-- A filter for UDP leaves the conversations over UDP as they are, and no other. -/
theorem filter_keeps_conversations_udp :
    let config : Config := { verifyChecksum := false, filter := { protocol := 17 } }
    let inputs := [queryAt 0, pingAt 5, queryAt 7]
    (run config inputs).decoded = 2 ∧ (run (unfiltered config) inputs).decoded = 3 ∧
      ∀ key : FlowKey, key.protocol = 17 →
        view key (run config inputs) = view key (run (unfiltered config) inputs) := by
  intro config inputs
  refine ⟨by decide +kernel, by decide +kernel, fun key udp => ?_⟩
  have bothWays : config.filter.matchesPkt key = config.filter.matchesPkt key.swap :=
    protocol_filter_both_ways ⟨rfl, rfl⟩ ⟨by decide, by decide⟩ key
  have taken : config.filter.matchesPkt key = true := by
    have none : config.filter.srcIp.anyNonZero = false ∧ config.filter.dstIp.anyNonZero = false :=
      by decide
    simp only [FlowKey.matchesPkt, none]
    simp [config, udp]
  have kept := (filter_keeps_conversations config inputs).2 key bothWays
  rwa [if_pos taken] at kept

end PcapAnalyzer.Decoder
