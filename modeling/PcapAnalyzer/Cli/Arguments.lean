import PcapAnalyzer.Decode.Decoder
import PcapAnalyzer.Protocols.AddressText

/-!
# The command line

`parseArgs` over the arguments behind the program's name. Usage and version texts are left out.
-/

namespace PcapAnalyzer.Cli

set_option autoImplicit false

/-- `const char*`, up to its terminator. -/
abbrev Arg : Type := List UInt8

/-- `config.print_limit` is kept beside the rest of the configuration. -/
structure Options where
  path : Arg := []
  showFlows : Bool := false
  showHttp : Bool := false
  showDns : Bool := false
  showSummary : Bool := false
  showBench : Bool := false
  showPackets : Bool := false
  json : Bool := false
  outDir : Arg := []
  printLimit : UInt64 := 0
  config : Config := {}
  help : Bool := false
  version : Bool := false

/-- What `parseArgs` complains about on `std::cerr`. -/
inductive ArgError where
  | requires (arg : Arg) (what : String)
  | emptyOutputDirectory
  | invalid (what : String) (value : Arg)
  | mixedAddressFilter
  | unknownOption (arg : Arg)
  | unexpectedArgument (arg : Arg)
  | noCaptureFile
  deriving DecidableEq

/-- `std::strcmp(arg, name) == 0`. -/
def named (arg : Arg) (name : String) : Bool := arg = text name.toList

def matchesFlag (arg : Arg) (shortFlag longFlag : String) : Bool :=
  named arg shortFlag || named arg longFlag

/-- `uint8_t out_ip[16]` and `is_ipv4`. -/
def parseFilterIp (value : Arg) : Option (Address × Bool) :=
  let v4 := Ip.V4.addressFromString value (List.replicate 4 0)
  if v4.1 then some (Address.copy v4.2, true) else
  let v6 := Ip.V6.addressFromString value (List.replicate 16 0)
  if v6.1 then some (Address.copy v6.2, false) else none

/-- The options without a value, but for those that end the loop. -/
def plainOption (arg : Arg) (out : Options) : Option Options :=
  if matchesFlag arg "-f" "--flows" then some { out with showFlows := true }
  else if matchesFlag arg "-H" "--http" then some { out with showHttp := true }
  else if matchesFlag arg "-d" "--dns" then some { out with showDns := true }
  else if matchesFlag arg "-s" "--summary" then some { out with showSummary := true }
  else if matchesFlag arg "-b" "--bench" then some { out with showBench := true }
  else if matchesFlag arg "-p" "--packets" then some { out with showPackets := true }
  else if matchesFlag arg "-j" "--json" then some { out with json := true }
  else if matchesFlag arg "-a" "--all" then
    some { out with
      showSummary := true
      showFlows := true
      showHttp := true
      showDns := true
      showBench := true }
  else if matchesFlag arg "-C" "--no-checksum" then
    some { out with config := { out.config with verifyChecksum := false } }
  else none

/-- What `nextValue` is asked for. -/
def valueWanted (arg : Arg) : Option String :=
  if matchesFlag arg "-o" "--out" then some "a directory"
  else if matchesFlag arg "-n" "--limit" then some "a count"
  else if matchesFlag arg "-t" "--timeout" then some "a number of seconds"
  else if matchesFlag arg "-i" "--idle" then some "a number of seconds"
  else if named arg "--src-ip" || named arg "--dst-ip" then some "an address"
  else if named arg "--src-port" || named arg "--dst-port" then some "a port"
  else if named arg "--proto" then some "a protocol"
  else none

/-- The local `ip_version` and the options filled in so far. -/
structure ArgState where
  ipVersion : Nat := 0
  out : Options := {}

namespace ArgState

def withConfig (state : ArgState) (config : Config) : ArgState :=
  { state with out := { state.out with config := config } }

def withFilter (state : ArgState) (filter : FlowKey) : ArgState :=
  state.withConfig { state.out.config with filter := filter }

end ArgState

/-- `UINT64_MAX / 1000000`. -/
def maxSeconds : UInt64 := 18446744073709551615 / 1000000

/-- `arg[2] == 'd'`. -/
def isDestination (arg : Arg) : Bool := arg[2]? = some (code 'd')

def addressOption (arg value : Arg) (state : ArgState) : Except ArgError ArgState :=
  match parseFilterIp value with
  | none => .error (.invalid "address" value)
  | some (ip, isIpv4) =>
      let version := if isIpv4 then 4 else 6
      if state.ipVersion ≠ 0 ∧ state.ipVersion ≠ version then .error .mixedAddressFilter else
      let filter := { state.out.config.filter with isIpv4 := isIpv4 }
      .ok (({ state with ipVersion := version } : ArgState).withFilter
        (if isDestination arg then { filter with dstIp := ip } else { filter with srcIp := ip }))

def portOption (arg value : Arg) (state : ArgState) : Except ArgError ArgState :=
  match parseUint value 65535 with
  | none => .error (.invalid "port" value)
  | some port =>
      if port = 0 then .error (.invalid "port" value) else
      let filter := state.out.config.filter
      .ok (state.withFilter
        (if isDestination arg then { filter with dstPort := port.toUInt16 }
        else { filter with srcPort := port.toUInt16 }))

def protocolOption (value : Arg) (state : ArgState) : Except ArgError ArgState :=
  match Ip.protocolFromName value with
  | none => .error (.invalid "protocol" value)
  | some proto =>
      if proto = 0 then .error (.invalid "protocol" value) else
      .ok (state.withFilter { state.out.config.filter with protocol := proto })

def directoryOption (value : Arg) (state : ArgState) : Except ArgError ArgState :=
  if value = [] then .error .emptyOutputDirectory else
  .ok { state with out := { state.out with outDir := value } }

/-- `SIZE_MAX`. -/
def maxCount : UInt64 := 18446744073709551615

def limitOption (value : Arg) (state : ArgState) : Except ArgError ArgState :=
  match parseUint value maxCount with
  | none => .error (.invalid "count" value)
  | some limit => .ok { state with out := { state.out with printLimit := limit } }

/-- A number of seconds, handed on in microseconds. -/
def secondsOption (what : String) (value : Arg) (use : UInt64 → ArgState) :
    Except ArgError ArgState :=
  match parseUint value maxSeconds with
  | none => .error (.invalid what value)
  | some sec => .ok (use (sec * 1000000))

def timeoutOption (value : Arg) (state : ArgState) : Except ArgError ArgState :=
  secondsOption "timeout" value fun us =>
    state.withConfig { state.out.config with flowActiveTimeoutUs := us }

def idleOption (value : Arg) (state : ArgState) : Except ArgError ArgState :=
  secondsOption "idle timeout" value fun us =>
    state.withConfig { state.out.config with flowIdleTimeoutUs := us }

/-- The options with a value. -/
def valueOption (arg value : Arg) (state : ArgState) : Except ArgError ArgState :=
  if matchesFlag arg "-o" "--out" then directoryOption value state
  else if matchesFlag arg "-n" "--limit" then limitOption value state
  else if matchesFlag arg "-t" "--timeout" then timeoutOption value state
  else if matchesFlag arg "-i" "--idle" then idleOption value state
  else if named arg "--src-ip" || named arg "--dst-ip" then addressOption arg value state
  else if named arg "--src-port" || named arg "--dst-port" then portOption arg value state
  else protocolOption value state

/-- What follows the loop. -/
def finishArgs (out : Options) : Except ArgError Options :=
  if !out.help && !out.version && out.path = [] then .error .noCaptureFile else
  if out.showFlows || out.showHttp || out.showDns || out.showSummary || out.showBench ||
      out.showPackets then .ok out
  else if out.outDir = [] then .ok { out with showSummary := true, showFlows := true }
  else .ok { out with
    showSummary := true
    showFlows := true
    showHttp := true
    showDns := true
    showBench := true
    showPackets := true }

def argLoop : List Arg → ArgState → Except ArgError Options
  | [], state => finishArgs state.out
  | arg :: rest, state =>
      if matchesFlag arg "-h" "--help" then .ok { state.out with help := true }
      else if matchesFlag arg "-V" "--version" then .ok { state.out with version := true }
      else
        match plainOption arg state.out, valueWanted arg, rest with
        | some out, _, rest => argLoop rest { state with out := out }
        | none, some what, [] => .error (.requires arg what)
        | none, some _, value :: rest =>
            match valueOption arg value state with
            | .error err => .error err
            | .ok state => argLoop rest state
        | none, none, rest =>
            if arg.head? = some (code '-') ∧ arg.length > 1 then .error (.unknownOption arg)
            else if state.out.path = [] then
              argLoop rest { state with out := { state.out with path := arg } }
            else .error (.unexpectedArgument arg)

def parseArgs (args : List Arg) : Except ArgError Options := argLoop args {}

end PcapAnalyzer.Cli
