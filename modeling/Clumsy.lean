import Clumsy.Theory.Run
import Clumsy.Theory.Refine
import Clumsy.Theory.Ledger
import Clumsy.Theory.Sweep
import Clumsy.Theory.Arithmetic
import Clumsy.Packet.Node
import Clumsy.Modules.Basic
import Clumsy.Modules.Lag
import Clumsy.Modules.Jitter
import Clumsy.Modules.Loss
import Clumsy.Modules.Bandwidth
import Clumsy.Modules.Duplicate
import Clumsy.Modules.Ood
import Clumsy.Modules.Rewrite
import Clumsy.Modules.Throttle
import Clumsy.Modules.Table
import Clumsy.Theory.Relabel
import Clumsy.Modules.Helpers
import Clumsy.Modules.Opaque
import Clumsy.Capture.Pipeline
import Clumsy.Capture.Loop
import Clumsy.Filter.Program
import Clumsy.Capture.Linux
import Clumsy.Capture.Accounting
import Clumsy.Capture.Session
import Clumsy.Capture.Threads
import Clumsy.Capture.Direction
import Clumsy.Capture.Lifecycle
import Clumsy.Filter.Lexer
import Clumsy.Filter.Parser
import Clumsy.Filter.Correct
import Clumsy.Filter.Combine
import Clumsy.Filter.Derive
import Clumsy.Backend.DivertStart
import Clumsy.Stats.Latency
import Clumsy.Scenario.Playback
import Clumsy.Pcap.Replay
import Clumsy.Pcap.Export
import Clumsy.Control.Framing
import Clumsy.Profiles.Save
import Clumsy.Profiles.File
import Clumsy.Modules.OodRun
import Clumsy.Modules.ThrottleRun
import Clumsy.Modules.BandwidthRun
import Clumsy.Modules.Overdue
import Clumsy.Capture.LagOrder
import Clumsy.Theory.JsonText
import Clumsy.Text.Print
import Clumsy.Modules.Specs
import Clumsy.Pcap.ReplayThread
import Clumsy.Http.Route
import Clumsy.Http.Response
import Clumsy.Http.Connections
import Clumsy.Control.Dispatch
import Clumsy.Scenario.Agree
import Clumsy.Theory.OnesComplement
import Clumsy.Packet.Checksum
import Clumsy.Capture.Windows
import Clumsy.Capture.Bounce
import Clumsy.Capture.Platforms
import Clumsy.Packet.Fragment
import Clumsy.Theory.Skips
import Clumsy.Modules.TamperBlock
import Clumsy.Modules.BitErrors
import Clumsy.Theory.Budget
import Clumsy.Modules.ResetRun
import Clumsy.Filter.Fields
import Clumsy.Filter.Literal
import Clumsy.Theory.Rank
import Clumsy.Stats.Percentile
import Clumsy.Capture.View
import Clumsy.Capture.OneShot
import Clumsy.Theory.LastWrite
import Clumsy.Filter.Collected
import Clumsy.Filter.Installable
import Clumsy.Filter.Vary
import Clumsy.Filter.Exact
import Clumsy.Filter.ProcessPorts
import Clumsy.Theory.FixedWindow
import Clumsy.Capture.StormGuard
import Clumsy.Capture.SentCount
import Clumsy.Pcap.Records
import Clumsy.Pcap.ReplayWait
import Clumsy.Pcap.ReplayRun
import Clumsy.Pcap.Limits
import Clumsy.Theory.JsonValue
import Clumsy.Text.Complete
import Clumsy.Text.Significant
import Clumsy.Theory.JsonTree
import Clumsy.Stats.Log
import Clumsy.Control.Switching
import Clumsy.Control.Transports
import Clumsy.Profiles.Names
import Clumsy.Scenario.LoadPlay
import Clumsy.Scenario.Repeat
import Clumsy.Http.Delivery
import Clumsy.Http.Percent
import Clumsy.Http.Token
import Clumsy.Control.Numbers
import Clumsy.Presets.Persist
import Clumsy.Theory.Memory
import Clumsy.Report.Html
import Clumsy.Text.Append
import Clumsy.Packet.Bounds
import Clumsy.Theory.Linked
import Clumsy.Packet.Links
import Clumsy.Platform.Handle
import Clumsy.Filter.Branches
import Clumsy.Report.Session
import Clumsy.Console.Capture
import Clumsy.Console.Coherent
import Clumsy.Console.Counts
import Clumsy.Theory.EventStream
import Clumsy.Control.Live
import Clumsy.Http.Stream
import Clumsy.Theory.Exposition
import Clumsy.Control.Metrics
