import PcapAnalyzer.Analysis.Benchmark
import PcapAnalyzer.Analysis.DnsReport
import PcapAnalyzer.Analysis.DnsTable
import PcapAnalyzer.Analysis.FlowsJson
import PcapAnalyzer.Analysis.HttpReport
import PcapAnalyzer.Analysis.NamesByAddress
import PcapAnalyzer.Analysis.ProtocolBytes
import PcapAnalyzer.Analysis.Reporting
import PcapAnalyzer.Capture.Callbacks
import PcapAnalyzer.Capture.DecodeCalls
import PcapAnalyzer.Capture.FileEncoding
import PcapAnalyzer.Capture.FileRoundTrip
import PcapAnalyzer.Capture.GrowingCapture
import PcapAnalyzer.Capture.LinkType
import PcapAnalyzer.Capture.NoTrace
import PcapAnalyzer.Capture.Pcap
import PcapAnalyzer.Capture.Reader
import PcapAnalyzer.Capture.RecordJson
import PcapAnalyzer.Capture.Timing
import PcapAnalyzer.Cli.Arguments
import PcapAnalyzer.Cli.FilterAddresses
import PcapAnalyzer.Cli.FilterOptions
import PcapAnalyzer.Cli.Grammar
import PcapAnalyzer.Cli.PacketFilter
import PcapAnalyzer.Cli.PacketsOutput
import PcapAnalyzer.Cli.Summary
import PcapAnalyzer.Decode.AppDecoder
import PcapAnalyzer.Decode.CapturedStreams
import PcapAnalyzer.Decode.ChunkResume
import PcapAnalyzer.Decode.Datagrams
import PcapAnalyzer.Decode.Decoder
import PcapAnalyzer.Decode.DnsFraming
import PcapAnalyzer.Decode.EthernetFrame
import PcapAnalyzer.Decode.EthernetRoundTrip
import PcapAnalyzer.Decode.ExtensionChain
import PcapAnalyzer.Decode.FilteredRuns
import PcapAnalyzer.Decode.Footprint
import PcapAnalyzer.Decode.Fragments
import PcapAnalyzer.Decode.Frame
import PcapAnalyzer.Decode.HalfClose
import PcapAnalyzer.Decode.HttpDialogue
import PcapAnalyzer.Decode.HttpFlow
import PcapAnalyzer.Decode.HttpGrowth
import PcapAnalyzer.Decode.HttpPairing
import PcapAnalyzer.Decode.HttpReader
import PcapAnalyzer.Decode.HttpSegments
import PcapAnalyzer.Decode.Isolation
import PcapAnalyzer.Decode.Layers
import PcapAnalyzer.Decode.MemorySafety
import PcapAnalyzer.Decode.OversizedBody
import PcapAnalyzer.Decode.Packet
import PcapAnalyzer.Decode.PacketJson
import PcapAnalyzer.Decode.PollProgress
import PcapAnalyzer.Decode.Residue
import PcapAnalyzer.Decode.RoundTrip
import PcapAnalyzer.Decode.Session
import PcapAnalyzer.Decode.StreamFeed
import PcapAnalyzer.Decode.UdpChecksum
import PcapAnalyzer.Decode.WholeReads
import PcapAnalyzer.Flow.Accounting
import PcapAnalyzer.Flow.Closing
import PcapAnalyzer.Flow.Conversation
import PcapAnalyzer.Flow.EmptySegments
import PcapAnalyzer.Flow.FlowKey
import PcapAnalyzer.Flow.FlowTable
import PcapAnalyzer.Flow.Interleaving
import PcapAnalyzer.Flow.Listing
import PcapAnalyzer.Flow.OutOfOrder
import PcapAnalyzer.Flow.Reassembly
import PcapAnalyzer.Flow.TcpReassembler
import PcapAnalyzer.Flow.TcpRun
import PcapAnalyzer.Flow.Timestamps
import PcapAnalyzer.Flow.Tracking
import PcapAnalyzer.Library.BinarySearch
import PcapAnalyzer.Library.CheckedMemory
import PcapAnalyzer.Library.Framing
import PcapAnalyzer.Library.GrowingInput
import PcapAnalyzer.Library.IntervalBuffer
import PcapAnalyzer.Library.Json
import PcapAnalyzer.Library.JsonIndent
import PcapAnalyzer.Library.JsonPrinting
import PcapAnalyzer.Library.Ledger
import PcapAnalyzer.Library.Limits
import PcapAnalyzer.Library.Listings
import PcapAnalyzer.Library.MeasuredLoop
import PcapAnalyzer.Library.Multimaps
import PcapAnalyzer.Library.OnesComplement
import PcapAnalyzer.Library.Orientation
import PcapAnalyzer.Library.RunPrefixes
import PcapAnalyzer.Library.SerialNumber
import PcapAnalyzer.Library.Stopwatch
import PcapAnalyzer.Library.Tallies
import PcapAnalyzer.Library.Unwinding
import PcapAnalyzer.Protocols.Accepted
import PcapAnalyzer.Protocols.AddressGrammar
import PcapAnalyzer.Protocols.AddressPrinting
import PcapAnalyzer.Protocols.AddressText
import PcapAnalyzer.Protocols.CheckedAgreement
import PcapAnalyzer.Protocols.CheckedParsers
import PcapAnalyzer.Protocols.ChunkedEncoding
import PcapAnalyzer.Protocols.Dns
import PcapAnalyzer.Protocols.DnsCounts
import PcapAnalyzer.Protocols.DnsEncoding
import PcapAnalyzer.Protocols.DnsName
import PcapAnalyzer.Protocols.ExtensionHeaders
import PcapAnalyzer.Protocols.HostOrder
import PcapAnalyzer.Protocols.Http
import PcapAnalyzer.Protocols.HttpEncoding
import PcapAnalyzer.Protocols.HttpFraming
import PcapAnalyzer.Protocols.HttpStream
import PcapAnalyzer.Protocols.Ip
import PcapAnalyzer.Protocols.JsonOutput
import PcapAnalyzer.Protocols.JsonReading
import PcapAnalyzer.Protocols.LayerJson
import PcapAnalyzer.Protocols.Link
import PcapAnalyzer.Protocols.Numerals
import PcapAnalyzer.Protocols.Transport
import PcapAnalyzer.Util.CheckedChecksum
import PcapAnalyzer.Util.Checksum
import PcapAnalyzer.Util.Indent
import PcapAnalyzer.Util.InternetChecksum
import PcapAnalyzer.Util.Printing
import PcapAnalyzer.Util.Text
import PcapAnalyzer.Util.Wire
