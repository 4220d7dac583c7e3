import PcapAnalyzer.Capture.Reader

/-!
# The summary

The totals `printSummary` computes by asking for the application state of every flow,
in both directions.
-/

namespace PcapAnalyzer.Cli

set_option autoImplicit false

structure Totals where
  httpMessages : Nat := 0
  dnsMessages : Nat := 0
  decodeFailures : Nat := 0
  httpBodiesSkipped : Nat := 0
  deriving DecidableEq, Repr

namespace Totals

/-- What one direction contributes. -/
def of (apps : Applications) : Totals :=
  { httpMessages := apps.httpMessages.length
    dnsMessages := apps.dnsMessages.length
    decodeFailures := apps.decodeFailures
    httpBodiesSkipped := apps.httpBodiesSkipped }

def add (left right : Totals) : Totals :=
  { httpMessages := left.httpMessages + right.httpMessages
    dnsMessages := left.dnsMessages + right.dnsMessages
    decodeFailures := left.decodeFailures + right.decodeFailures
    httpBodiesSkipped := left.httpBodiesSkipped + right.httpBodiesSkipped }

end Totals

/-- `if (!apps) continue;`. -/
def addFlow (appDecoder : AppDecoder) (totals : Totals) (key : FlowKey) : Totals :=
  [false, true].foldl (fun totals reverse =>
    match appDecoder.getApplications key reverse with
    | none => totals
    | some apps => totals.add (.of apps)) totals

def printSummary (table : FlowTable) (appDecoder : AppDecoder) : Totals :=
  table.allFlows.foldl (fun totals entry => addFlow appDecoder totals entry.1) {}

end PcapAnalyzer.Cli
