import PcapAnalyzer.Cli.Arguments

/-!
# The filter a command line asks for

The filter options of a command line, read off the arguments one after another. An option
that is given again replaces what it said before.
-/

namespace PcapAnalyzer.Cli

set_option autoImplicit false

/-- An address as it was given. -/
structure FilterIp where
  isIpv4 : Bool
  bytes : List UInt8
  sized : bytes.length = if isIpv4 then 4 else 16

namespace FilterIp

def NonZero (ip : FilterIp) : Prop := ∃ byte ∈ ip.bytes, byte ≠ 0

def version (ip : FilterIp) : Nat := if ip.isIpv4 then 4 else 6

end FilterIp

inductive FilterOption where
  | srcIp (ip : FilterIp)
  | dstIp (ip : FilterIp)
  | srcPort (port : UInt16)
  | dstPort (port : UInt16)
  | proto (number : UInt8)

def filterIp (value : Arg) : Option FilterIp :=
  let v4 := Ip.V4.addressFromString value (List.replicate 4 0)
  let v6 := Ip.V6.addressFromString value (List.replicate 16 0)
  if v4.1 then some ⟨true, v4.2, Ip.V4.address_from_string_length value _⟩
  else if v6.1 then some ⟨false, v6.2, Ip.V6.address_from_string_length value rfl⟩
  else none

def filterPort (value : Arg) : Option UInt16 := (parseUint value 65535).map UInt64.toUInt16

def filterOption (arg value : Arg) : Option FilterOption :=
  if named arg "--src-ip" then (filterIp value).map .srcIp
  else if named arg "--dst-ip" then (filterIp value).map .dstIp
  else if named arg "--src-port" then (filterPort value).map .srcPort
  else if named arg "--dst-port" then (filterPort value).map .dstPort
  else if named arg "--proto" then (Ip.protocolFromName value).map .proto
  else none

/-- The options that take the argument behind them, whatever it looks like. -/
def otherValued : List String :=
  ["-o", "--out", "-n", "--limit", "-t", "--timeout", "-i", "--idle"]

def filterNames : List String := ["--src-ip", "--dst-ip", "--src-port", "--dst-port", "--proto"]

def isOneOf (names : List String) (arg : Arg) : Bool := names.any (named arg)

/-- The filter options in the order they are given. -/
def filterOptions : List Arg → List FilterOption
  | [] => []
  | arg :: rest =>
      if isOneOf ["-h", "--help", "-V", "--version"] arg then []
      else if isOneOf (otherValued ++ filterNames) arg then
        match rest with
        | [] => []
        | value :: rest => (filterOption arg value).toList ++ filterOptions rest
      else filterOptions rest

/-- The options that are in force. -/
structure Given where
  srcIp : Option FilterIp := none
  dstIp : Option FilterIp := none
  srcPort : Option UInt16 := none
  dstPort : Option UInt16 := none
  proto : Option UInt8 := none

namespace Given

def set (given : Given) : FilterOption → Given
  | .srcIp ip => { given with srcIp := some ip }
  | .dstIp ip => { given with dstIp := some ip }
  | .srcPort port => { given with srcPort := some port }
  | .dstPort port => { given with dstPort := some port }
  | .proto number => { given with proto := some number }

def of (args : List Arg) : Given := (filterOptions args).foldl set {}

def addresses (given : Given) : List FilterIp := given.srcIp.toList ++ given.dstIp.toList

end Given

def addressOrZero (ip : Option FilterIp) : Address :=
  match ip with
  | none => Address.zero
  | some ip => Address.copy ip.bytes

/-- The filter holds what has been given, and zeros elsewhere. -/
structure Holds (given : Given) (filter : FlowKey) : Prop where
  srcIp : filter.srcIp = addressOrZero given.srcIp
  dstIp : filter.dstIp = addressOrZero given.dstIp
  srcPort : filter.srcPort = given.srcPort.getD 0
  dstPort : filter.dstPort = given.dstPort.getD 0
  protocol : filter.protocol = given.proto.getD 0
  version : ∀ ip ∈ given.addresses, ip.isIpv4 = filter.isIpv4
  nonZero : given.srcPort ≠ some 0 ∧ given.dstPort ≠ some 0 ∧ given.proto ≠ some 0

/-- What the loop keeps: the version it remembers is that of every address. -/
structure Read (given : Given) (state : ArgState) : Prop where
  holds : Holds given state.out.config.filter
  version : ∀ ip ∈ given.addresses, ip.version = state.ipVersion

section Step

variable {given : Given} {state next : ArgState} {arg value : Arg}

theorem parse_filter_ip_eq (value : Arg) :
    parseFilterIp value = (filterIp value).map fun ip => (Address.copy ip.bytes, ip.isIpv4) := by
  simp only [parseFilterIp, filterIp]
  split_ifs <;> rfl

theorem named_iff {name : String} : named arg name = true ↔ arg = text name.toList :=
  decide_eq_true_iff

theorem version_inj {left right : FilterIp} (same : left.version = right.version) :
    left.isIpv4 = right.isIpv4 := by
  unfold FilterIp.version at same
  cases first : left.isIpv4 <;> cases second : right.isIpv4 <;> simp [first, second] at same ⊢

theorem version_positive (ip : FilterIp) : ip.version ≠ 0 := by
  unfold FilterIp.version
  split_ifs <;> decide

theorem mem_set_address {ip other : FilterIp} {destination : Bool}
    (member : other ∈ (given.set (if destination then .dstIp ip else .srcIp ip)).addresses) :
    other = ip ∨ other ∈ given.addresses := by
  cases destination with
  | true =>
      simp only [if_true, Given.set, Given.addresses, Option.toList_some, List.mem_append,
        List.mem_singleton] at member ⊢
      tauto
  | false =>
      simp only [Bool.false_eq_true, if_false, Given.set, Given.addresses, Option.toList_some,
        List.singleton_append, List.mem_cons, List.mem_append] at member ⊢
      tauto

/-- One more address of the version that is remembered. -/
theorem read_address (read : Read given state)
    (passed : addressOption arg value state = .ok next) :
    ∃ ip, filterIp value = some ip ∧
      Read (given.set (if isDestination arg then .dstIp ip else .srcIp ip)) next := by
  unfold addressOption at passed
  rw [parse_filter_ip_eq] at passed
  cases found : filterIp value with
  | none => simp [found] at passed
  | some ip =>
      refine ⟨ip, rfl, ?_⟩
      by_cases mixed : state.ipVersion ≠ 0 ∧ state.ipVersion ≠ ip.version
      · rw [FilterIp.version] at mixed
        simp [found, if_pos mixed] at passed
      have one : ∀ other ∈ given.addresses, other.version = ip.version := by
        intro other member
        by_contra different
        refine mixed ⟨?_, ?_⟩
        · rw [← read.version other member]
          exact version_positive other
        · rw [← read.version other member]
          exact different
      have versions : ∀ other ∈
          (given.set (if isDestination arg then .dstIp ip else .srcIp ip)).addresses,
          other.version = ip.version := by
        intro other member
        rcases mem_set_address member with rfl | before
        · rfl
        · exact one other before
      rw [FilterIp.version] at mixed
      simp only [found, Option.map_some, if_neg mixed, Except.ok.injEq] at passed
      subst passed
      obtain ⟨holds, -⟩ := read
      refine ⟨?_, versions⟩
      by_cases destination : isDestination arg = true
      · simp only [if_pos destination] at versions ⊢
        exact ⟨holds.srcIp, rfl, holds.srcPort, holds.dstPort, holds.protocol,
          fun other member => version_inj (versions other member), holds.nonZero⟩
      · simp only [if_neg destination] at versions ⊢
        exact ⟨rfl, holds.dstIp, holds.srcPort, holds.dstPort, holds.protocol,
          fun other member => version_inj (versions other member), holds.nonZero⟩

theorem read_port (read : Read given state) (passed : portOption arg value state = .ok next) :
    ∃ port, filterPort value = some port ∧
      Read (given.set (if isDestination arg then .dstPort port else .srcPort port)) next := by
  unfold portOption at passed
  cases found : parseUint value 65535 with
  | none => simp [found] at passed
  | some port =>
      have small := parse_uint_le (by decide) found
      refine ⟨port.toUInt16, by rw [filterPort, found, Option.map_some], ?_⟩
      by_cases zero : port = 0
      · simp [found, zero] at passed
      have positive : port.toUInt16 ≠ 0 := by
        rw [← UInt64.toNat_inj] at zero
        rw [UInt64.le_iff_toNat_le] at small
        rw [ne_eq, ← UInt16.toNat_inj, UInt64.toNat_toUInt16]
        simp only [UInt64.reduceToNat, UInt64.toNat_zero, UInt16.toNat_zero] at zero small ⊢
        omega
      simp only [found, if_neg zero, Except.ok.injEq] at passed
      subst passed
      obtain ⟨holds, version⟩ := read
      by_cases destination : isDestination arg = true
      · simp only [if_pos destination]
        exact ⟨⟨holds.srcIp, holds.dstIp, holds.srcPort, rfl, holds.protocol, holds.version,
          holds.nonZero.1, by simpa [Given.set] using positive, holds.nonZero.2.2⟩, version⟩
      · simp only [if_neg destination]
        exact ⟨⟨holds.srcIp, holds.dstIp, rfl, holds.dstPort, holds.protocol, holds.version,
          by simpa [Given.set] using positive, holds.nonZero.2⟩, version⟩

theorem read_protocol (read : Read given state)
    (passed : protocolOption value state = .ok next) :
    ∃ number, Ip.protocolFromName value = some number ∧
      Read (given.set (.proto number)) next := by
  unfold protocolOption at passed
  cases found : Ip.protocolFromName value with
  | none => simp [found] at passed
  | some number =>
      refine ⟨number, rfl, ?_⟩
      by_cases zero : number = 0
      · simp [found, zero] at passed
      simp only [found, if_neg zero, Except.ok.injEq] at passed
      subst passed
      obtain ⟨holds, version⟩ := read
      exact ⟨⟨holds.srcIp, holds.dstIp, holds.srcPort, holds.dstPort, rfl, holds.version,
        holds.nonZero.1, holds.nonZero.2.1, by simpa [Given.set] using zero⟩, version⟩

/-- The argument is one of these names, whatever the names are. -/
theorem is_one_of_iff {names : List String} :
    isOneOf names arg = true ↔ ∃ name ∈ names, arg = text name.toList := by
  simp only [isOneOf, List.any_eq_true, named_iff]

theorem other_valued_eq : isOneOf otherValued arg =
    (matchesFlag arg "-o" "--out" || matchesFlag arg "-n" "--limit" ||
      matchesFlag arg "-t" "--timeout" || matchesFlag arg "-i" "--idle") := by
  simp only [isOneOf, otherValued, List.any_cons, List.any_nil, Bool.or_false, matchesFlag,
    Bool.or_assoc]

theorem other_unfiltered (kind : isOneOf otherValued arg = true) :
    filterOption arg value = none := by
  obtain ⟨name, member, rfl⟩ := is_one_of_iff.mp kind
  simp only [otherValued, List.mem_cons, List.not_mem_nil, or_false] at member
  rcases member with rfl | rfl | rfl | rfl | rfl | rfl | rfl | rfl <;> rfl

theorem read_directory (read : Read given state)
    (passed : directoryOption value state = .ok next) : Read given next := by
  unfold directoryOption at passed
  split_ifs at passed
  cases passed
  exact ⟨read.holds, read.version⟩

theorem read_limit (read : Read given state) (passed : limitOption value state = .ok next) :
    Read given next := by
  unfold limitOption at passed
  cases count : parseUint value maxCount with
  | none => simp [count] at passed
  | some number =>
      simp only [count, Except.ok.injEq] at passed
      subst passed
      exact ⟨read.holds, read.version⟩

theorem read_seconds {what : String} {use : UInt64 → ArgState}
    (read : ∀ us, Read given (use us)) (passed : secondsOption what value use = .ok next) :
    Read given next := by
  unfold secondsOption at passed
  cases seconds : parseUint value maxSeconds with
  | none => simp [seconds] at passed
  | some sec =>
      simp only [seconds, Except.ok.injEq] at passed
      subst passed
      exact read _

theorem other_value (kind : isOneOf otherValued arg = true) (read : Read given state)
    (passed : valueOption arg value state = .ok next) : Read given next := by
  unfold valueOption at passed
  by_cases out : matchesFlag arg "-o" "--out" = true
  · rw [if_pos out] at passed
    exact read_directory read passed
  rw [if_neg out] at passed
  by_cases limit : matchesFlag arg "-n" "--limit" = true
  · rw [if_pos limit] at passed
    exact read_limit read passed
  rw [if_neg limit] at passed
  by_cases timeout : matchesFlag arg "-t" "--timeout" = true
  · rw [if_pos timeout, timeoutOption] at passed
    refine read_seconds ?_ passed
    exact fun _ => ⟨read.holds, read.version⟩
  rw [if_neg timeout] at passed
  by_cases idle : matchesFlag arg "-i" "--idle" = true
  · rw [if_pos idle, idleOption] at passed
    refine read_seconds ?_ passed
    exact fun _ => ⟨read.holds, read.version⟩
  simp [other_valued_eq, out, limit, timeout, idle] at kind

theorem filter_value (kind : isOneOf filterNames arg = true) (read : Read given state)
    (passed : valueOption arg value state = .ok next) :
    Read ((filterOption arg value).toList.foldl Given.set given) next := by
  obtain ⟨name, member, rfl⟩ := is_one_of_iff.mp kind
  simp only [filterNames, List.mem_cons, List.not_mem_nil, or_false] at member
  rcases member with rfl | rfl | rfl | rfl | rfl
  · obtain ⟨ip, found, after⟩ := read_address read passed
    have option : filterOption (text "--src-ip".toList) value = (filterIp value).map .srcIp := rfl
    rw [option, found]
    exact after
  · obtain ⟨ip, found, after⟩ := read_address read passed
    have option : filterOption (text "--dst-ip".toList) value = (filterIp value).map .dstIp := rfl
    rw [option, found]
    exact after
  · obtain ⟨port, found, after⟩ := read_port read passed
    have option : filterOption (text "--src-port".toList) value =
        (filterPort value).map .srcPort := rfl
    rw [option, found]
    exact after
  · obtain ⟨port, found, after⟩ := read_port read passed
    have option : filterOption (text "--dst-port".toList) value =
        (filterPort value).map .dstPort := rfl
    rw [option, found]
    exact after
  · obtain ⟨number, found, after⟩ := read_protocol read passed
    have option : filterOption (text "--proto".toList) value =
        (Ip.protocolFromName value).map .proto := rfl
    rw [option, found]
    exact after

theorem first_or_later {Value : Type} {c : Prop} [Decidable c] {first result : Value}
    {later : Option Value} (found : (if c then some first else later) = some result) :
    result = first ∨ later = some result := by
  by_cases holds : c
  · rw [if_pos holds] at found
    exact .inl (Option.some.inj found).symm
  · rw [if_neg holds] at found
    exact .inr found

/-- An option without a value is none of those with one, and leaves the filter alone. -/
theorem plain_option {out next : Options} (plain : plainOption arg out = some next) :
    isOneOf (otherValued ++ filterNames) arg = false ∧
      next.config.filter = out.config.filter := by
  constructor
  · by_contra valued
    rw [Bool.not_eq_false] at valued
    obtain ⟨name, member, rfl⟩ := is_one_of_iff.mp valued
    simp only [otherValued, filterNames, List.cons_append, List.nil_append, List.mem_cons,
      List.not_mem_nil, or_false] at member
    rcases member with rfl | rfl | rfl | rfl | rfl | rfl | rfl | rfl | rfl | rfl | rfl | rfl | rfl
      <;> cases plain
  · unfold plainOption at plain
    repeat
      rcases first_or_later plain with rfl | plain
      · rfl
    cases plain

theorem value_wanted_iff : (valueWanted arg).isSome = true ↔
    isOneOf (otherValued ++ filterNames) arg = true := by
  constructor
  · intro wanted
    by_contra unvalued
    simp only [isOneOf, otherValued, filterNames, List.cons_append, List.nil_append, List.any_cons,
      List.any_nil, Bool.not_eq_true, Bool.or_eq_false_iff] at unvalued
    simp [valueWanted, matchesFlag, unvalued] at wanted
  · intro valued
    obtain ⟨name, member, rfl⟩ := is_one_of_iff.mp valued
    simp only [otherValued, filterNames, List.cons_append, List.nil_append, List.mem_cons,
      List.not_mem_nil, or_false] at member
    rcases member with rfl | rfl | rfl | rfl | rfl | rfl | rfl | rfl | rfl | rfl | rfl | rfl | rfl
      <;> rfl

theorem ends_iff : isOneOf ["-h", "--help", "-V", "--version"] arg = true ↔
    matchesFlag arg "-h" "--help" = true ∨ matchesFlag arg "-V" "--version" = true := by
  simp only [isOneOf, List.any_cons, List.any_nil, Bool.or_false, Bool.or_eq_true, matchesFlag]
  tauto

end Step

section Run

variable {arg : Arg} {rest : List Arg}

theorem filter_options_end (ends : matchesFlag arg "-h" "--help" = true ∨
    matchesFlag arg "-V" "--version" = true) : filterOptions (arg :: rest) = [] := by
  unfold filterOptions
  rw [if_pos (ends_iff.mpr ends)]

theorem filter_options_plain (help : ¬ matchesFlag arg "-h" "--help" = true)
    (version : ¬ matchesFlag arg "-V" "--version" = true)
    (plain : isOneOf (otherValued ++ filterNames) arg = false) :
    filterOptions (arg :: rest) = filterOptions rest := by
  have runs := mt ends_iff.mp (not_or.mpr ⟨help, version⟩)
  rw [filterOptions.eq_def]
  simp only [if_neg runs, plain, Bool.false_eq_true, if_false]

theorem filter_options_value (help : ¬ matchesFlag arg "-h" "--help" = true)
    (version : ¬ matchesFlag arg "-V" "--version" = true) (value : Arg)
    (valued : isOneOf (otherValued ++ filterNames) arg = true) :
    filterOptions (arg :: value :: rest) =
      (filterOption arg value).toList ++ filterOptions rest := by
  have runs := mt ends_iff.mp (not_or.mpr ⟨help, version⟩)
  rw [filterOptions, if_neg runs, if_pos valued]

theorem finish_args_filter {out options : Options} (passed : finishArgs out = .ok options) :
    options.config.filter = out.config.filter := by
  unfold finishArgs at passed
  split_ifs at passed <;> cases passed <;> rfl

/-- The loop reads the filter options one after another. -/
theorem arg_loop_reads {args : List Arg} {state : ArgState} {given : Given} {options : Options}
    (read : Read given state) (passed : argLoop args state = .ok options) :
    Holds ((filterOptions args).foldl Given.set given) options.config.filter := by
  fun_induction argLoop args state generalizing given with
  | case1 state =>
      rw [finish_args_filter passed]
      exact read.holds
  | case2 arg rest state help =>
      cases passed
      rw [filter_options_end (.inl help)]
      exact read.holds
  | case3 arg rest state help version =>
      cases passed
      rw [filter_options_end (.inr version)]
      exact read.holds
  | case4 arg state help version out rest plain ih =>
      obtain ⟨unvalued, same⟩ := plain_option plain
      rw [filter_options_plain help version unvalued]
      apply ih _ passed
      exact ⟨same ▸ read.holds, read.version⟩
  | case5 arg state help version what wanted plain => cases passed
  | case6 arg state help version what value rest wanted plain err failed => cases passed
  | case7 arg state help version what value rest wanted plain next taken ih =>
      have valued := value_wanted_iff.mp (Option.isSome_of_eq_some wanted)
      rw [filter_options_value help version value valued, List.foldl_append]
      apply ih _ passed
      rw [isOneOf, List.any_append, Bool.or_eq_true] at valued
      rcases valued with other | filter
      · rw [other_unfiltered other]
        exact other_value other read taken
      · exact filter_value filter read taken
  | case8 arg state help version rest wanted plain dash => cases passed
  | case9 arg state help version rest wanted plain dash path ih =>
      have unvalued : isOneOf (otherValued ++ filterNames) arg = false := by
        rw [← Bool.not_eq_true, ← value_wanted_iff, wanted]
        simp
      rw [filter_options_plain help version unvalued]
      exact ih ⟨read.holds, read.version⟩ passed
  | case10 arg state help version rest wanted plain dash path => cases passed

/-- The filter of an accepted command line holds the options that are in force. -/
theorem parse_args_holds {args : List Arg} {options : Options}
    (passed : parseArgs args = .ok options) : Holds (Given.of args) options.config.filter := by
  refine arg_loop_reads ⟨⟨rfl, rfl, rfl, rfl, rfl, ?_, ?_⟩, ?_⟩ passed
  · intro ip member
    cases member
  · exact ⟨nofun, nofun, nofun⟩
  · intro ip member
    cases member

end Run

end PcapAnalyzer.Cli
