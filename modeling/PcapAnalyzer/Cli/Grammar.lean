import Mathlib.Data.List.Induction
import PcapAnalyzer.Cli.FilterOptions

/-!
# The grammar of the command line

A command line is a list of switches, of options with a value and of paths, each written in one
of its spellings. What it asks for is said field by field: a switch counts if it is given, and
of an option that is given more than once the last value counts.
-/

namespace PcapAnalyzer.Cli

set_option autoImplicit false

inductive Switch where
  | flows | http | dns | summary | bench | packets | json | all | noChecksum
  deriving DecidableEq

namespace Switch

def names : Switch → List String
  | .flows => ["-f", "--flows"]
  | .http => ["-H", "--http"]
  | .dns => ["-d", "--dns"]
  | .summary => ["-s", "--summary"]
  | .bench => ["-b", "--bench"]
  | .packets => ["-p", "--packets"]
  | .json => ["-j", "--json"]
  | .all => ["-a", "--all"]
  | .noChecksum => ["-C", "--no-checksum"]

def apply (out : Options) : Switch → Options
  | .flows => { out with showFlows := true }
  | .http => { out with showHttp := true }
  | .dns => { out with showDns := true }
  | .summary => { out with showSummary := true }
  | .bench => { out with showBench := true }
  | .packets => { out with showPackets := true }
  | .json => { out with json := true }
  | .all => { out with
      showSummary := true, showFlows := true, showHttp := true, showDns := true, showBench := true }
  | .noChecksum => { out with config := { out.config with verifyChecksum := false } }

end Switch

/-- An option with the value it is given. -/
inductive Setting where
  | out (directory : Arg)
  | limit (count : UInt64)
  | timeout (seconds : UInt64)
  | idle (seconds : UInt64)
  | address (destination : Bool) (ip : FilterIp)
  | port (destination : Bool) (number : UInt16)
  | proto (number : UInt8)

namespace Setting

def names : Setting → List String
  | .out _ => ["-o", "--out"]
  | .limit _ => ["-n", "--limit"]
  | .timeout _ => ["-t", "--timeout"]
  | .idle _ => ["-i", "--idle"]
  | .address destination _ => [if destination then "--dst-ip" else "--src-ip"]
  | .port destination _ => [if destination then "--dst-port" else "--src-port"]
  | .proto _ => ["--proto"]

/-- The text stands for the value. -/
def Reads (value : Arg) : Setting → Prop
  | .out directory => value = directory ∧ directory ≠ []
  | .limit count => parseUint value maxCount = some count
  | .timeout seconds => parseUint value maxSeconds = some seconds
  | .idle seconds => parseUint value maxSeconds = some seconds
  | .address _ ip => filterIp value = some ip
  | .port _ number => filterPort value = some number ∧ number ≠ 0
  | .proto number => Ip.protocolFromName value = some number ∧ number ≠ 0

/-- What an option does, unless it is an address of the other version. -/
def apply (state : ArgState) : Setting → Option ArgState
  | .out directory => some { state with out := { state.out with outDir := directory } }
  | .limit count => some { state with out := { state.out with printLimit := count } }
  | .timeout seconds =>
      some (state.withConfig { state.out.config with flowActiveTimeoutUs := seconds * 1000000 })
  | .idle seconds =>
      some (state.withConfig { state.out.config with flowIdleTimeoutUs := seconds * 1000000 })
  | .address destination ip =>
      if state.ipVersion ≠ 0 ∧ state.ipVersion ≠ ip.version then none else
      let filter := { state.out.config.filter with isIpv4 := ip.isIpv4 }
      some (({ state with ipVersion := ip.version } : ArgState).withFilter
        (if destination then { filter with dstIp := Address.copy ip.bytes }
        else { filter with srcIp := Address.copy ip.bytes }))
  | .port destination number =>
      let filter := state.out.config.filter
      some (state.withFilter
        (if destination then { filter with dstPort := number }
        else { filter with srcPort := number }))
  | .proto number => some (state.withFilter { state.out.config.filter with protocol := number })

end Setting

/-- One thing that a command line says. -/
inductive Item where
  | switch (chosen : Switch)
  | setting (given : Setting)
  | path (file : Arg)

namespace Item

def apply (state : ArgState) : Item → Option ArgState
  | .switch chosen => some { state with out := chosen.apply state.out }
  | .setting given => given.apply state
  | .path file =>
      if state.out.path = [] then some { state with out := { state.out with path := file } }
      else none

end Item

/-- One after the other. -/
def applyAll (items : List Item) (state : ArgState) : Option ArgState :=
  items.foldlM Item.apply state

/-- Not an option; the single dash counts as a path. -/
def IsPath (arg : Arg) : Prop := ¬ (arg.head? = some (code '-') ∧ arg.length > 1)

instance (arg : Arg) : Decidable (IsPath arg) :=
  inferInstanceAs (Decidable (¬ (_ ∧ _)))

/-- The arguments say these things. -/
inductive Writes : List Item → List Arg → Prop where
  | nil : Writes [] []
  | switch {chosen : Switch} {arg : Arg} {items : List Item} {args : List Arg}
      (named : isOneOf chosen.names arg = true) (rest : Writes items args) :
      Writes (.switch chosen :: items) (arg :: args)
  | setting {given : Setting} {arg value : Arg} {items : List Item} {args : List Arg}
      (named : isOneOf given.names arg = true) (reads : given.Reads value)
      (rest : Writes items args) : Writes (.setting given :: items) (arg :: value :: args)
  | path {file : Arg} {items : List Item} {args : List Arg} (isPath : IsPath file)
      (rest : Writes items args) : Writes (.path file :: items) (file :: args)

/-- How the loop ends: at the end of the arguments, or at a flag that ends it. -/
inductive Ends : List Arg → Options → Options → Prop where
  | finished {out options : Options} (passed : finishArgs out = .ok options) : Ends [] out options
  | help {flag : Arg} {rest : List Arg} {out : Options}
      (named : isOneOf ["-h", "--help"] flag = true) :
      Ends (flag :: rest) out { out with help := true }
  | version {flag : Arg} {rest : List Arg} {out : Options}
      (named : isOneOf ["-V", "--version"] flag = true) :
      Ends (flag :: rest) out { out with version := true }

section Steps

variable {arg value : Arg} {args : List Arg} {state next : ArgState} {out : Options}

theorem matches_flag_iff {shortFlag longFlag : String} :
    matchesFlag arg shortFlag longFlag = isOneOf [shortFlag, longFlag] arg := by
  simp [matchesFlag, isOneOf]

theorem plain_option_iff {after : Options} : plainOption arg out = some after ↔
    ∃ chosen : Switch, isOneOf chosen.names arg = true ∧ after = chosen.apply out := by
  constructor
  · intro plain
    unfold plainOption at plain
    simp only [matches_flag_iff] at plain
    split_ifs at plain with flows http dns summary bench packets json all noChecksum
    · exact ⟨.flows, flows, (Option.some.inj plain).symm⟩
    · exact ⟨.http, http, (Option.some.inj plain).symm⟩
    · exact ⟨.dns, dns, (Option.some.inj plain).symm⟩
    · exact ⟨.summary, summary, (Option.some.inj plain).symm⟩
    · exact ⟨.bench, bench, (Option.some.inj plain).symm⟩
    · exact ⟨.packets, packets, (Option.some.inj plain).symm⟩
    · exact ⟨.json, json, (Option.some.inj plain).symm⟩
    · exact ⟨.all, all, (Option.some.inj plain).symm⟩
    · exact ⟨.noChecksum, noChecksum, (Option.some.inj plain).symm⟩
  · rintro ⟨chosen, named, rfl⟩
    obtain ⟨name, member, rfl⟩ := is_one_of_iff.mp named
    cases chosen <;>
      simp only [Switch.names, List.mem_cons, List.not_mem_nil, or_false] at member <;>
      rcases member with rfl | rfl <;> rfl

/-- A flag that ends the loop is no other option, and neither is a path. -/
theorem switch_no_end {chosen : Switch} (named : isOneOf chosen.names arg = true) :
    isOneOf ["-h", "--help", "-V", "--version"] arg = false ∧ valueWanted arg = none := by
  obtain ⟨name, member, rfl⟩ := is_one_of_iff.mp named
  cases chosen <;>
    simp only [Switch.names, List.mem_cons, List.not_mem_nil, or_false] at member <;>
    rcases member with rfl | rfl <;> exact ⟨rfl, rfl⟩

theorem setting_no_end {given : Setting} (named : isOneOf given.names arg = true) :
    isOneOf ["-h", "--help", "-V", "--version"] arg = false ∧ plainOption arg out = none ∧
      (valueWanted arg).isSome = true := by
  obtain ⟨name, member, rfl⟩ := is_one_of_iff.mp named
  cases given with
  | out | limit | timeout | idle =>
      simp only [Setting.names, List.mem_cons, List.not_mem_nil, or_false] at member
      rcases member with rfl | rfl <;> exact ⟨rfl, rfl, rfl⟩
  | address destination ip =>
      simp only [Setting.names, List.mem_singleton] at member
      subst member
      cases destination <;> exact ⟨rfl, rfl, rfl⟩
  | port destination number =>
      simp only [Setting.names, List.mem_singleton] at member
      subst member
      cases destination <;> exact ⟨rfl, rfl, rfl⟩
  | proto number =>
      simp only [Setting.names, List.mem_singleton] at member
      subst member
      exact ⟨rfl, rfl, rfl⟩

theorem address_option_iff (destination : Bool) (sides : isDestination arg = destination) :
    addressOption arg value state = .ok next ↔
      ∃ ip, filterIp value = some ip ∧
        (Setting.address destination ip).apply state = some next := by
  subst sides
  unfold addressOption
  rw [parse_filter_ip_eq]
  cases found : filterIp value with
  | none => simp
  | some ip =>
      simp only [Option.map_some, Setting.apply, Option.some.injEq, exists_eq_left']
      rw [← FilterIp.version]
      by_cases mixed : state.ipVersion ≠ 0 ∧ state.ipVersion ≠ ip.version
      · simp [if_pos mixed]
      · simp only [if_neg mixed, Except.ok.injEq, Option.some.injEq]

theorem port_option_iff (destination : Bool) (sides : isDestination arg = destination) :
    portOption arg value state = .ok next ↔
      ∃ number, (filterPort value = some number ∧ number ≠ 0) ∧
        (Setting.port destination number).apply state = some next := by
  subst sides
  unfold portOption filterPort
  cases found : parseUint value 65535 with
  | none => simp
  | some port =>
      have small := parse_uint_le (by decide) found
      have zero : port.toUInt16 = 0 ↔ port = 0 := by
        rw [UInt64.le_iff_toNat_le] at small
        rw [← UInt64.toNat_inj, ← UInt16.toNat_inj, UInt64.toNat_toUInt16]
        simp only [UInt64.reduceToNat, UInt64.toNat_zero, UInt16.toNat_zero] at small ⊢
        omega
      by_cases none : port = 0
      · simp [none]
      · simp [none, zero, Setting.apply]

theorem protocol_option_iff : protocolOption value state = .ok next ↔
    ∃ number, (Ip.protocolFromName value = some number ∧ number ≠ 0) ∧
      (Setting.proto number).apply state = some next := by
  unfold protocolOption
  cases found : Ip.protocolFromName value with
  | none => simp
  | some number =>
      by_cases zero : number = 0
      · simp [zero]
      · simp [zero, Setting.apply]

theorem directory_option_iff : directoryOption value state = .ok next ↔
    ∃ directory, (value = directory ∧ directory ≠ []) ∧
      (Setting.out directory).apply state = some next := by
  unfold directoryOption
  by_cases empty : value = []
  · simp [empty]
  · simp [empty, Setting.apply]

theorem limit_option_iff : limitOption value state = .ok next ↔
    ∃ count, parseUint value maxCount = some count ∧
      (Setting.limit count).apply state = some next := by
  unfold limitOption
  cases found : parseUint value maxCount <;> simp [Setting.apply]

theorem seconds_option_iff {what : String} {use : UInt64 → ArgState} :
    secondsOption what value use = .ok next ↔
      ∃ seconds, parseUint value maxSeconds = some seconds ∧ use (seconds * 1000000) = next := by
  unfold secondsOption
  cases found : parseUint value maxSeconds <;> simp

theorem timeout_option_iff : timeoutOption value state = .ok next ↔
    ∃ seconds, parseUint value maxSeconds = some seconds ∧
      (Setting.timeout seconds).apply state = some next := by
  simp only [timeoutOption, seconds_option_iff, Setting.apply, Option.some.injEq]

theorem idle_option_iff : idleOption value state = .ok next ↔
    ∃ seconds, parseUint value maxSeconds = some seconds ∧
      (Setting.idle seconds).apply state = some next := by
  simp only [idleOption, seconds_option_iff, Setting.apply, Option.some.injEq]

/-- What the name of a setting has the loop do. -/
theorem value_option_named {given : Setting} (named : isOneOf given.names arg = true)
    (reads : given.Reads value) (applied : given.apply state = some next) :
    valueOption arg value state = .ok next := by
  obtain ⟨name, member, rfl⟩ := is_one_of_iff.mp named
  cases given with
  | out directory =>
      have passed := directory_option_iff.mpr ⟨directory, reads, applied⟩
      simp only [Setting.names, List.mem_cons, List.not_mem_nil, or_false] at member
      rcases member with rfl | rfl <;> exact passed
  | limit count =>
      have passed := limit_option_iff.mpr ⟨count, reads, applied⟩
      simp only [Setting.names, List.mem_cons, List.not_mem_nil, or_false] at member
      rcases member with rfl | rfl <;> exact passed
  | timeout seconds =>
      have passed := timeout_option_iff.mpr ⟨seconds, reads, applied⟩
      simp only [Setting.names, List.mem_cons, List.not_mem_nil, or_false] at member
      rcases member with rfl | rfl <;> exact passed
  | idle seconds =>
      have passed := idle_option_iff.mpr ⟨seconds, reads, applied⟩
      simp only [Setting.names, List.mem_cons, List.not_mem_nil, or_false] at member
      rcases member with rfl | rfl <;> exact passed
  | address destination ip =>
      simp only [Setting.names, List.mem_singleton] at member
      subst member
      cases destination with
      | false => exact (address_option_iff false rfl).mpr ⟨ip, reads, applied⟩
      | true => exact (address_option_iff true rfl).mpr ⟨ip, reads, applied⟩
  | port destination number =>
      simp only [Setting.names, List.mem_singleton] at member
      subst member
      cases destination with
      | false => exact (port_option_iff false rfl).mpr ⟨number, reads, applied⟩
      | true => exact (port_option_iff true rfl).mpr ⟨number, reads, applied⟩
  | proto number =>
      simp only [Setting.names, List.mem_singleton] at member
      subst member
      exact protocol_option_iff.mpr ⟨number, reads, applied⟩

theorem value_option_reads (wanted : (valueWanted arg).isSome = true)
    (passed : valueOption arg value state = .ok next) :
    ∃ given : Setting, isOneOf given.names arg = true ∧ given.Reads value ∧
      given.apply state = some next := by
  obtain ⟨name, member, rfl⟩ := is_one_of_iff.mp (value_wanted_iff.mp wanted)
  simp only [otherValued, filterNames, List.cons_append, List.nil_append, List.mem_cons,
    List.not_mem_nil, or_false] at member
  rcases member with rfl | rfl | rfl | rfl | rfl | rfl | rfl | rfl | rfl | rfl | rfl | rfl | rfl
  iterate 2
    obtain ⟨directory, reads, applied⟩ := directory_option_iff.mp passed
    exact ⟨.out directory, rfl, reads, applied⟩
  iterate 2
    obtain ⟨count, reads, applied⟩ := limit_option_iff.mp passed
    exact ⟨.limit count, rfl, reads, applied⟩
  iterate 2
    obtain ⟨seconds, reads, applied⟩ := timeout_option_iff.mp passed
    exact ⟨.timeout seconds, rfl, reads, applied⟩
  iterate 2
    obtain ⟨seconds, reads, applied⟩ := idle_option_iff.mp passed
    exact ⟨.idle seconds, rfl, reads, applied⟩
  · obtain ⟨ip, reads, applied⟩ := (address_option_iff false rfl).mp passed
    exact ⟨.address false ip, rfl, reads, applied⟩
  · obtain ⟨ip, reads, applied⟩ := (address_option_iff true rfl).mp passed
    exact ⟨.address true ip, rfl, reads, applied⟩
  · obtain ⟨number, reads, applied⟩ := (port_option_iff false rfl).mp passed
    exact ⟨.port false number, rfl, reads, applied⟩
  · obtain ⟨number, reads, applied⟩ := (port_option_iff true rfl).mp passed
    exact ⟨.port true number, rfl, reads, applied⟩
  · obtain ⟨number, reads, applied⟩ := protocol_option_iff.mp passed
    exact ⟨.proto number, rfl, reads, applied⟩

theorem path_unnamed (isPath : IsPath arg) {names : List String}
    (dashed : ∀ name ∈ names, ¬ IsPath (text name.toList)) : isOneOf names arg = false := by
  rw [← Bool.not_eq_true, is_one_of_iff]
  rintro ⟨name, member, rfl⟩
  exact dashed name member isPath

theorem path_no_end (isPath : IsPath arg) :
    isOneOf ["-h", "--help", "-V", "--version"] arg = false ∧ plainOption arg out = none ∧
      valueWanted arg = none := by
  refine ⟨path_unnamed isPath (by decide), ?_, ?_⟩
  · rw [Option.eq_none_iff_forall_ne_some]
    intro after plain
    obtain ⟨chosen, named, -⟩ := plain_option_iff.mp plain
    have unnamed : isOneOf chosen.names arg = false :=
      path_unnamed isPath (by cases chosen <;> decide)
    rw [unnamed] at named
    cases named
  · rw [← Option.not_isSome_iff_eq_none, value_wanted_iff, Bool.not_eq_true]
    exact path_unnamed isPath (by decide)

end Steps

section Loop

variable {arg value : Arg} {args : List Arg} {state next : ArgState} {options : Options}

theorem goes_on (runs : isOneOf ["-h", "--help", "-V", "--version"] arg = false) :
    matchesFlag arg "-h" "--help" = false ∧ matchesFlag arg "-V" "--version" = false := by
  rw [← Bool.not_eq_true, ends_iff, not_or, Bool.not_eq_true, Bool.not_eq_true] at runs
  exact runs

theorem arg_loop_switch {chosen : Switch} (named : isOneOf chosen.names arg = true) :
    argLoop (arg :: args) state =
      argLoop args { state with out := chosen.apply state.out } := by
  obtain ⟨help, version⟩ := goes_on (switch_no_end named).1
  have plain : plainOption arg state.out = some (chosen.apply state.out) :=
    plain_option_iff.mpr ⟨chosen, named, rfl⟩
  rw [argLoop.eq_def]
  simp only [help, version, plain, Bool.false_eq_true, if_false]

theorem arg_loop_setting {given : Setting} (named : isOneOf given.names arg = true)
    (reads : given.Reads value) (applied : given.apply state = some next) :
    argLoop (arg :: value :: args) state = argLoop args next := by
  obtain ⟨runs, plain, wanted⟩ := @setting_no_end arg state.out given named
  obtain ⟨help, version⟩ := goes_on runs
  obtain ⟨what, wanted⟩ := Option.isSome_iff_exists.mp wanted
  rw [argLoop.eq_def]
  simp only [help, version, plain, wanted, value_option_named named reads applied,
    Bool.false_eq_true, if_false]

theorem arg_loop_path (isPath : IsPath arg) (first : state.out.path = []) :
    argLoop (arg :: args) state =
      argLoop args { state with out := { state.out with path := arg } } := by
  obtain ⟨runs, plain, wanted⟩ := @path_no_end arg state.out isPath
  obtain ⟨help, version⟩ := goes_on runs
  rw [argLoop.eq_def]
  unfold IsPath at isPath
  simp only [help, version, plain, wanted, if_neg isPath, first, Bool.false_eq_true, if_false,
    if_true]

/-- What is written is read, one thing after the other. -/
theorem arg_loop_written {items : List Item} {before : List Arg} {after : ArgState}
    (writes : Writes items before) (applied : applyAll items state = some after)
    (rest : List Arg) : argLoop (before ++ rest) state = argLoop rest after := by
  induction writes generalizing state with
  | nil =>
      obtain rfl : state = after := Option.some.inj applied
      rfl
  | switch named _ ih =>
      rw [List.cons_append, arg_loop_switch named]
      exact ih applied
  | @setting given arg value items args named reads _ ih =>
      rw [applyAll, List.foldlM_cons] at applied
      obtain ⟨next, stepped, later⟩ := Option.bind_eq_some_iff.mp applied
      rw [List.cons_append, List.cons_append, arg_loop_setting named reads stepped]
      exact ih later
  | @path file items args isPath _ ih =>
      rw [applyAll, List.foldlM_cons] at applied
      obtain ⟨next, stepped, later⟩ := Option.bind_eq_some_iff.mp applied
      simp only [Item.apply] at stepped
      split_ifs at stepped with first
      cases stepped
      rw [List.cons_append, arg_loop_path isPath first]
      exact ih later

theorem arg_loop_ends (ends : Ends args state.out options) : argLoop args state = .ok options := by
  cases ends with
  | finished passed => exact passed
  | help named =>
      rw [argLoop.eq_def]
      simp only [matches_flag_iff, named, if_true]
  | @version flag rest _ named =>
      have help : isOneOf ["-h", "--help"] flag = false := by
        obtain ⟨name, member, rfl⟩ := is_one_of_iff.mp named
        simp only [List.mem_cons, List.not_mem_nil, or_false] at member
        rcases member with rfl | rfl <;> rfl
      rw [argLoop.eq_def]
      simp only [matches_flag_iff, named, help, Bool.false_eq_true, if_false, if_true]

/-- The arguments say something and end the loop with these options. -/
def Outcome (args : List Arg) (state : ArgState) (options : Options) : Prop :=
  ∃ items before rest after, args = before ++ rest ∧ Writes items before ∧
    applyAll items state = some after ∧ Ends rest after.out options

theorem Outcome.start (ends : Ends args state.out options) : Outcome args state options :=
  ⟨[], [], args, state, rfl, .nil, rfl, ends⟩

theorem apply_cons {item : Item} {items : List Item} {after : ArgState}
    (stepped : item.apply state = some next) (later : applyAll items next = some after) :
    applyAll (item :: items) state = some after := by
  rw [applyAll, List.foldlM_cons]
  exact Option.bind_eq_some_iff.mpr ⟨next, stepped, later⟩

theorem arg_loop_says (passed : argLoop args state = .ok options) :
    Outcome args state options := by
  fun_induction argLoop args state with
  | case1 state => exact .start (.finished passed)
  | case2 arg rest state help =>
      cases passed
      exact .start (.help (matches_flag_iff ▸ help))
  | case3 arg rest state help version =>
      cases passed
      exact .start (.version (matches_flag_iff ▸ version))
  | case4 arg state help version out rest plain ih =>
      obtain ⟨chosen, named, rfl⟩ := plain_option_iff.mp plain
      obtain ⟨items, before, rest, after, rfl, writes, applied, ends⟩ := ih passed
      exact ⟨.switch chosen :: items, arg :: before, rest, after, rfl, .switch named writes,
        apply_cons rfl applied, ends⟩
  | case5 arg state help version what wanted plain => cases passed
  | case6 arg state help version what value rest wanted plain err failed => cases passed
  | case7 arg state help version what value rest wanted plain next taken ih =>
      obtain ⟨given, named, reads, stepped⟩ :=
        value_option_reads (Option.isSome_of_eq_some wanted) taken
      obtain ⟨items, before, rest, after, rfl, writes, applied, ends⟩ := ih passed
      exact ⟨.setting given :: items, arg :: value :: before, rest, after, rfl,
        .setting named reads writes, apply_cons stepped applied, ends⟩
  | case8 arg state help version rest wanted plain dash => cases passed
  | case9 arg state help version rest wanted plain dash path ih =>
      obtain ⟨items, before, rest, after, rfl, writes, applied, ends⟩ := ih passed
      exact ⟨.path arg :: items, arg :: before, rest, after, rfl, .path dash writes,
        apply_cons (if_pos path) applied, ends⟩
  | case10 arg state help version rest wanted plain dash path => cases passed

end Loop

namespace Item

def isSwitch (chosen : Switch) : Item → Bool
  | .switch other => other = chosen
  | _ => false

def file : Item → Option Arg
  | .path file => some file
  | _ => none

def directory : Item → Option Arg
  | .setting (.out directory) => some directory
  | _ => none

def limit : Item → Option UInt64
  | .setting (.limit count) => some count
  | _ => none

def timeout : Item → Option UInt64
  | .setting (.timeout seconds) => some seconds
  | _ => none

def idle : Item → Option UInt64
  | .setting (.idle seconds) => some seconds
  | _ => none

def ip : Item → Option FilterIp
  | .setting (.address _ ip) => some ip
  | _ => none

def ipOf (destination : Bool) : Item → Option FilterIp
  | .setting (.address side ip) => if side = destination then some ip else none
  | _ => none

def portOf (destination : Bool) : Item → Option UInt16
  | .setting (.port side number) => if side = destination then some number else none
  | _ => none

def proto : Item → Option UInt8
  | .setting (.proto number) => some number
  | _ => none

end Item

def flagged (items : List Item) (chosen : Switch) : Bool := items.any (Item.isSwitch chosen)

/-- Of several values the last one counts. -/
def last {Value : Type} (value : Item → Option Value) (items : List Item) : Option Value :=
  (items.filterMap value).getLast?

/-- What the items ask for, before anything is selected for want of a selection. -/
def asked (items : List Item) : Options where
  path := (last Item.file items).getD []
  showFlows := flagged items .flows || flagged items .all
  showHttp := flagged items .http || flagged items .all
  showDns := flagged items .dns || flagged items .all
  showSummary := flagged items .summary || flagged items .all
  showBench := flagged items .bench || flagged items .all
  showPackets := flagged items .packets
  json := flagged items .json
  outDir := (last Item.directory items).getD []
  printLimit := (last Item.limit items).getD 0
  config :=
    { verifyChecksum := !flagged items .noChecksum
      flowActiveTimeoutUs := ((last Item.timeout items).map (· * 1000000)).getD 0
      flowIdleTimeoutUs := ((last Item.idle items).map (· * 1000000)).getD defaultIdleTimeoutUs
      filter :=
        { isIpv4 := ((last Item.ip items).map FilterIp.isIpv4).getD false
          srcIp := addressOrZero (last (Item.ipOf false) items)
          dstIp := addressOrZero (last (Item.ipOf true) items)
          srcPort := (last (Item.portOf false) items).getD 0
          dstPort := (last (Item.portOf true) items).getD 0
          protocol := (last Item.proto items).getD 0 } }

/-- All addresses are of one version, and only the last path names a file. -/
structure Acceptable (items : List Item) : Prop where
  oneVersion : ∀ ip ∈ items.filterMap Item.ip, ∀ other ∈ items.filterMap Item.ip,
    ip.version = other.version
  onePath : ∀ file ∈ (items.filterMap Item.file).dropLast, file = []

section Meaning

variable {items : List Item} {item : Item}

theorem last_append_one {Value : Type} (value : Item → Option Value) (items : List Item)
    (item : Item) : last value (items ++ [item]) = (value item).or (last value items) := by
  unfold last
  rw [List.filterMap_append, List.getLast?_append]
  cases found : value item <;> simp [List.filterMap, found]

theorem flagged_append_one (items : List Item) (item : Item) (chosen : Switch) :
    flagged (items ++ [item]) chosen = (flagged items chosen || item.isSwitch chosen) := by
  simp [flagged]

/-- The state of the loop behind the items. -/
def reached (items : List Item) : ArgState where
  ipVersion := ((last Item.ip items).map FilterIp.version).getD 0
  out := asked items

/-- The item may follow the others. -/
structure Fits (items : List Item) (item : Item) : Prop where
  version : ∀ ip, item.ip = some ip → ∀ other ∈ items.filterMap Item.ip, other.version = ip.version
  path : item.file.isSome = true → ∀ file ∈ items.filterMap Item.file, file = []

theorem acceptable_append_one :
    Acceptable (items ++ [item]) ↔ Acceptable items ∧ Fits items item := by
  constructor
  · rintro ⟨oneVersion, onePath⟩
    simp only [List.filterMap_append, List.mem_append] at oneVersion
    refine ⟨⟨fun ip member other otherMember =>
      oneVersion ip (.inl member) other (.inl otherMember), ?_⟩, ?_, ?_⟩
    · intro file member
      refine onePath file ?_
      rw [List.filterMap_append]
      cases value : item.file with
      | none => simpa [value] using member
      | some other =>
          simpa [value] using List.dropLast_subset _ member
    · intro ip given other member
      exact oneVersion other (.inl member) ip (.inr (by simp [given]))
    · intro given file member
      obtain ⟨other, given⟩ := Option.isSome_iff_exists.mp given
      refine onePath file ?_
      simpa [List.filterMap_append, given] using member
  · rintro ⟨⟨oneVersion, onePath⟩, version, path⟩
    constructor
    · simp only [List.filterMap_append, List.mem_append]
      rintro ip (earlier | now) other (otherEarlier | otherNow)
      · exact oneVersion ip earlier other otherEarlier
      · exact version other (by simpa using otherNow) ip earlier
      · exact (version ip (by simpa using now) other otherEarlier).symm
      · have same : some ip = some other :=
          (show item.ip = some ip by simpa using now).symm.trans (by simpa using otherNow)
        cases same
        rfl
    · intro file member
      rw [List.filterMap_append] at member
      cases value : item.file with
      | none => exact onePath file (by simpa [value] using member)
      | some other =>
          exact path (by rw [value]; rfl) file (by simpa [value] using member)

theorem asked_switch (items : List Item) (chosen : Switch) :
    asked (items ++ [.switch chosen]) = chosen.apply (asked items) := by
  cases chosen <;>
    simp [asked, Switch.apply, last_append_one, flagged_append_one, Item.isSwitch, Item.file,
      Item.directory, Item.limit, Item.timeout, Item.idle, Item.ip, Item.ipOf, Item.portOf,
      Item.proto]

theorem fits_plain (noIp : item.ip = none) (noFile : item.file = none) : Fits items item := by
  constructor
  · intro ip given
    rw [noIp] at given
    cases given
  · intro given
    rw [noFile] at given
    cases given

/-- The version that the loop remembers is that of all addresses so far. -/
theorem version_fits (acceptable : Acceptable items) (ip : FilterIp) :
    (∀ other ∈ items.filterMap Item.ip, other.version = ip.version) ↔
      ¬ ((reached items).ipVersion ≠ 0 ∧ (reached items).ipVersion ≠ ip.version) := by
  unfold reached last
  cases given : (items.filterMap Item.ip).getLast? with
  | none =>
      rw [List.getLast?_eq_none_iff] at given
      simp [given]
  | some newest =>
      have member := List.mem_of_getLast? given
      have positive := version_positive newest
      simp only [Option.map_some, Option.getD_some, ne_eq, positive, not_false_eq_true, true_and,
        not_not]
      constructor
      · intro same
        exact same newest member
      · intro same other otherMember
        exact (acceptable.oneVersion other otherMember newest member).trans same

theorem path_fits (acceptable : Acceptable items) :
    (∀ file ∈ items.filterMap Item.file, file = []) ↔ (reached items).out.path = [] := by
  unfold reached asked last
  have onePath := acceptable.onePath
  rcases List.eq_nil_or_concat' (items.filterMap Item.file) with none | ⟨earlier, file, split⟩
  · simp [none]
  · rw [split, List.dropLast_concat] at onePath
    simp only [split, List.mem_append, List.mem_singleton, List.getLast?_concat, Option.getD_some]
    constructor
    · intro all
      exact all file (.inr rfl)
    · rintro empty other (before | rfl)
      · exact onePath other before
      · exact empty

theorem apply_reached {after : ArgState} (acceptable : Acceptable items) :
    item.apply (reached items) = some after ↔
      Fits items item ∧ after = reached (items ++ [item]) := by
  have plain (same : item.apply (reached items) = some (reached (items ++ [item])))
      (fits : Fits items item) : item.apply (reached items) = some after ↔
        Fits items item ∧ after = reached (items ++ [item]) := by
    rw [same, Option.some.injEq]
    exact ⟨fun equal => ⟨fits, equal.symm⟩, fun both => both.2.symm⟩
  have refused (stuck : item.apply (reached items) = none) (unfit : ¬ Fits items item) :
      item.apply (reached items) = some after ↔
        Fits items item ∧ after = reached (items ++ [item]) := by
    rw [stuck]
    exact ⟨fun taken => (Option.some_ne_none _ taken.symm).elim, fun both => absurd both.1 unfit⟩
  cases item with
  | switch chosen =>
      refine plain ?_ (fits_plain rfl rfl)
      simp only [Item.apply, reached, asked_switch, last_append_one, Item.ip, Option.none_or]
  | path file =>
      have fits : Fits items (.path file) ↔ (reached items).out.path = [] := by
        rw [← path_fits acceptable]
        refine ⟨fun fits => fits.path rfl, fun first => ⟨fun ip given => ?_, fun _ => first⟩⟩
        cases given
      by_cases first : (reached items).out.path = []
      · refine plain ?_ (fits.mpr first)
        simp only [Item.apply, if_pos first]
        simp [reached, asked, last_append_one, flagged_append_one, Item.isSwitch, Item.file,
          Item.directory, Item.limit, Item.timeout, Item.idle, Item.ip, Item.ipOf, Item.portOf,
          Item.proto]
      · exact refused (if_neg first) (mt fits.mp first)
  | setting given =>
      cases given with
      | out | limit | timeout | idle | proto =>
          refine plain ?_ (fits_plain rfl rfl)
          simp [Item.apply, Setting.apply, ArgState.withFilter, ArgState.withConfig, reached, asked,
            last_append_one, flagged_append_one, Item.isSwitch, Item.file, Item.directory,
            Item.limit, Item.timeout, Item.idle, Item.ip, Item.ipOf, Item.portOf, Item.proto]
      | port destination number =>
          refine plain ?_ (fits_plain rfl rfl)
          cases destination <;>
            simp [Item.apply, Setting.apply, ArgState.withFilter, ArgState.withConfig, reached,
              asked, last_append_one, flagged_append_one, Item.isSwitch, Item.file, Item.directory,
              Item.limit, Item.timeout, Item.idle, Item.ip, Item.ipOf, Item.portOf, Item.proto]
      | address destination ip =>
          have fits : Fits items (.setting (.address destination ip)) ↔
              ¬ ((reached items).ipVersion ≠ 0 ∧ (reached items).ipVersion ≠ ip.version) := by
            rw [← version_fits acceptable]
            refine ⟨fun fits => fits.version ip rfl, fun same => ⟨?_, fun none => by cases none⟩⟩
            rintro other given
            cases given
            exact same
          by_cases mixed : (reached items).ipVersion ≠ 0 ∧ (reached items).ipVersion ≠ ip.version
          · exact refused (if_pos mixed) fun fitting => fits.mp fitting mixed
          · refine plain ?_ (fits.mpr mixed)
            simp only [Item.apply, Setting.apply, if_neg mixed]
            cases destination <;>
              simp [ArgState.withFilter, ArgState.withConfig, reached, asked, last_append_one,
                flagged_append_one, Item.isSwitch, Item.file, Item.directory, Item.limit,
                Item.timeout, Item.idle, Item.ip, Item.ipOf, Item.portOf, Item.proto,
                addressOrZero]

/-- The loop accepts exactly the acceptable items, and fills in what they ask for. -/
theorem apply_all_iff {after : ArgState} :
    applyAll items {} = some after ↔ Acceptable items ∧ after = reached items := by
  induction items using List.reverseRecOn generalizing after with
  | nil =>
      have start : ({} : ArgState) = reached [] := rfl
      have empty : Acceptable [] := ⟨by simp, by simp⟩
      simp only [applyAll, List.foldlM_nil, empty, true_and, ← start]
      exact ⟨fun same => (Option.some.inj same).symm, fun same => congrArg some same.symm⟩
  | append_singleton items item ih =>
      have last : applyAll (items ++ [item]) {} =
          (applyAll items {}).bind fun state => item.apply state := by
        simp [applyAll, List.foldlM_append]
      rw [last, acceptable_append_one, Option.bind_eq_some_iff]
      constructor
      · rintro ⟨state, applied, stepped⟩
        obtain ⟨acceptable, rfl⟩ := ih.mp applied
        obtain ⟨fits, same⟩ := (apply_reached acceptable).mp stepped
        exact ⟨⟨acceptable, fits⟩, same⟩
      · rintro ⟨⟨acceptable, fits⟩, same⟩
        exact ⟨_, ih.mpr ⟨acceptable, rfl⟩, (apply_reached acceptable).mpr ⟨fits, same⟩⟩

/-- No option is given a second value. -/
structure Once (items : List Item) : Prop where
  file : (items.filterMap Item.file).length ≤ 1
  directory : (items.filterMap Item.directory).length ≤ 1
  limit : (items.filterMap Item.limit).length ≤ 1
  timeout : (items.filterMap Item.timeout).length ≤ 1
  idle : (items.filterMap Item.idle).length ≤ 1
  ip : ∀ destination, (items.filterMap (Item.ipOf destination)).length ≤ 1
  port : ∀ destination, (items.filterMap (Item.portOf destination)).length ≤ 1
  proto : (items.filterMap Item.proto).length ≤ 1

variable {others : List Item}

theorem last_perm {Value : Type} {value : Item → Option Value} (perm : items.Perm others)
    (once : (items.filterMap value).length ≤ 1) : last value items = last value others := by
  have same := perm.filterMap value
  unfold last
  generalize items.filterMap value = values at once same
  rcases values with _ | ⟨only, _ | ⟨second, rest⟩⟩
  · rw [same.nil_eq]
  · rw [List.singleton_perm.mp same]
  · simp at once

theorem flagged_perm (perm : items.Perm others) (chosen : Switch) :
    flagged items chosen = flagged others chosen := by
  rw [Bool.eq_iff_iff, flagged, flagged, List.any_eq_true, List.any_eq_true]
  simp only [perm.mem_iff]

theorem version_perm (perm : items.Perm others) (acceptable : Acceptable items) :
    (last Item.ip items).map FilterIp.isIpv4 = (last Item.ip others).map FilterIp.isIpv4 := by
  have same := perm.filterMap Item.ip
  unfold last
  cases first : (items.filterMap Item.ip).getLast? with
  | none =>
      rw [List.getLast?_eq_none_iff] at first
      rw [first] at same
      rw [← same.nil_eq]
      rfl
  | some ip =>
      have member := List.mem_of_getLast? first
      cases second : (others.filterMap Item.ip).getLast? with
      | none =>
          rw [List.getLast?_eq_none_iff] at second
          rw [second] at same
          rw [same.eq_nil] at member
          cases member
      | some other =>
          have otherMember := same.mem_iff.mpr (List.mem_of_getLast? second)
          exact congrArg some (version_inj (acceptable.oneVersion ip member other otherMember))

/-- The order does not matter where every option is given one value. -/
theorem asked_perm (perm : items.Perm others) (once : Once items) (acceptable : Acceptable items) :
    Acceptable others ∧ asked items = asked others := by
  constructor
  · constructor
    · intro ip member other otherMember
      have same := perm.filterMap Item.ip
      exact acceptable.oneVersion ip (same.mem_iff.mpr member) other
        (same.mem_iff.mpr otherMember)
    · have short := (perm.filterMap Item.file).length_eq ▸ once.file
      have none : (others.filterMap Item.file).dropLast = [] := by
        rw [← List.length_eq_zero_iff, List.length_dropLast]
        omega
      rw [none]
      intro file member
      cases member
  · simp only [asked, flagged_perm perm, version_perm perm acceptable, last_perm perm once.file,
      last_perm perm once.directory, last_perm perm once.limit, last_perm perm once.timeout,
      last_perm perm once.idle, last_perm perm (once.ip _), last_perm perm (once.port _),
      last_perm perm once.proto]

end Meaning

/-- A command line is accepted exactly if it is written by the grammar, with addresses of one
version and one path, and it asks for what its items say: the switches that are given, and the
last value of every option. Where no option is given twice their order does not matter. -/
theorem parse_args_iff_written (args : List Arg) (options : Options) :
    (parseArgs args = .ok options ↔
      ∃ items before rest, args = before ++ rest ∧ Writes items before ∧ Acceptable items ∧
        Ends rest (asked items) options) ∧
    ∀ items others shuffled, Writes items args → Acceptable items → Once items →
      items.Perm others → Writes others shuffled → parseArgs shuffled = parseArgs args := by
  constructor
  · constructor
    · intro passed
      obtain ⟨items, before, rest, after, split, writes, applied, ends⟩ := arg_loop_says passed
      obtain ⟨acceptable, rfl⟩ := apply_all_iff.mp applied
      exact ⟨items, before, rest, split, writes, acceptable, ends⟩
    · rintro ⟨items, before, rest, rfl, writes, acceptable, ends⟩
      have applied := apply_all_iff.mpr ⟨acceptable, rfl⟩
      rw [parseArgs, arg_loop_written writes applied]
      exact arg_loop_ends ends
  · intro items others shuffled writes acceptable once perm othersWrite
    obtain ⟨acceptableToo, same⟩ := asked_perm perm once acceptable
    have read := arg_loop_written writes (apply_all_iff.mpr ⟨acceptable, rfl⟩) []
    have readToo := arg_loop_written othersWrite (apply_all_iff.mpr ⟨acceptableToo, rfl⟩) []
    rw [List.append_nil] at read readToo
    rw [parseArgs, parseArgs, read, readToo, argLoop, argLoop]
    exact congrArg finishArgs same.symm

/-- What `-n 7 -H x` says, and in another order `x --http --limit 7`. -/
def limitedItems : List Item := [.setting (.limit 7), .switch .http, .path (text ['x'])]

theorem parse_args_iff_written_shuffled :
    let short := [text ['-', 'n'], text ['7'], text ['-', 'H'], text ['x']]
    let long := [text ['x'], text ['-', '-', 'h', 't', 't', 'p'],
      text ['-', '-', 'l', 'i', 'm', 'i', 't'], text ['7']]
    ∃ options, parseArgs short = .ok options ∧ parseArgs long = .ok options ∧
      options.path = text ['x'] ∧ options.showHttp = true ∧ options.printLimit = 7 := by
  intro short long
  have limit : Setting.Reads (text ['7']) (.limit 7) := by
    unfold Setting.Reads
    decide +kernel
  have writes : Writes limitedItems short :=
    .setting (by decide +kernel) limit (.switch (by decide +kernel) (.path (by decide) .nil))
  have reversed : Writes limitedItems.reverse long :=
    .path (by decide) (.switch (by decide +kernel) (.setting (by decide +kernel) limit .nil))
  have acceptable : Acceptable limitedItems :=
    ⟨fun _ member => absurd member List.not_mem_nil,
      fun _ member => absurd member List.not_mem_nil⟩
  have once : Once limitedItems :=
    ⟨Nat.le_refl 1, Nat.zero_le 1, Nat.le_refl 1, Nat.zero_le 1, Nat.zero_le 1,
      fun _ => Nat.zero_le 1, fun _ => Nat.zero_le 1, Nat.zero_le 1⟩
  have parsed := (parse_args_iff_written short (asked limitedItems)).1.mpr
    ⟨limitedItems, short, [], (List.append_nil short).symm, writes, acceptable, .finished rfl⟩
  have same := (parse_args_iff_written short {}).2 limitedItems _ long writes acceptable once
    (List.reverse_perm limitedItems).symm reversed
  exact ⟨_, parsed, same.trans parsed, rfl, rfl, rfl⟩

end PcapAnalyzer.Cli
