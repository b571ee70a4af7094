import AfsimNs3.Lib.Assoc
import AfsimNs3.Lib.Dict
import AfsimNs3.Lib.Machine
import AfsimNs3.Lib.Text
import AfsimNs3.Lib.Double
import AfsimNs3.Lib.Json
import AfsimNs3.Lib.Except
import AfsimNs3.Bridge.Models
import AfsimNs3.Bridge.State
import AfsimNs3.Bridge.StateSpec
import AfsimNs3.Bridge.Engine
import AfsimNs3.Bridge.Identity
import AfsimNs3.Adapter.Protocol
import AfsimNs3.Adapter.DeltaTracker
import AfsimNs3.Lib.Patch
import AfsimNs3.Adapter.Controller
import AfsimNs3.System.Records
import AfsimNs3.System.Mirror
import AfsimNs3.System.Rejection
import AfsimNs3.Adapter.TcpClient
import AfsimNs3.Plugin.Extension
import AfsimNs3.System.Closure
import AfsimNs3.Runner.Main
import AfsimNs3.System.LockStep
import AfsimNs3.Bridge.Effects
import AfsimNs3.Bridge.Server
import AfsimNs3.Bridge.ServerSpec
import AfsimNs3.System.Coalescing
import AfsimNs3.System.Publishing
import AfsimNs3.Adapter.Gates
import AfsimNs3.Adapter.Search
import AfsimNs3.Adapter.Values
import AfsimNs3.Bridge.Response
import AfsimNs3.Adapter.Fields
import AfsimNs3.Adapter.JsonFields
import AfsimNs3.Adapter.Scan
import AfsimNs3.Lib.Ctype
import AfsimNs3.Lib.Dumps
import AfsimNs3.System.Reading
import AfsimNs3.Adapter.GateRuns
import AfsimNs3.Bridge.Process
import AfsimNs3.Lib.Stateful
import AfsimNs3.System.Agreement
import AfsimNs3.System.Restart
import AfsimNs3.Bridge.Digest
import AfsimNs3.System.Requests
import AfsimNs3.Bridge.Worker
import AfsimNs3.System.Survival
import AfsimNs3.Bridge.References
import AfsimNs3.System.Snapshots
import AfsimNs3.System.Scenarios
import AfsimNs3.Lib.Lines
import AfsimNs3.System.Reconnection
import AfsimNs3.System.Messages
import AfsimNs3.Lib.Literals
import AfsimNs3.Lib.Utf8
import AfsimNs3.Lib.Loads
import AfsimNs3.Lib.Doc
import AfsimNs3.Adapter.Encoder
import AfsimNs3.Adapter.RoundTrip
import AfsimNs3.Lib.Worklist
import AfsimNs3.Runner.Paths
import AfsimNs3.System.Chains
import AfsimNs3.Bridge.Verdicts
import AfsimNs3.Adapter.EffectRuns
import AfsimNs3.Adapter.Profiles
import AfsimNs3.Lib.Mailbox
import AfsimNs3.Adapter.PendingEffects
import AfsimNs3.Adapter.EffectAccounts
import AfsimNs3.Bridge.Upserts
import AfsimNs3.Lib.Trace
import AfsimNs3.Plugin.Messaging
import AfsimNs3.Adapter.Baseline
import AfsimNs3.Adapter.Backlog
import AfsimNs3.Lib.Split
import AfsimNs3.Plugin.FlowIds
import AfsimNs3.Lib.Rounding
import AfsimNs3.Runner.Installation
import AfsimNs3.Runner.Times
import AfsimNs3.Adapter.Geo
import AfsimNs3.Lib.Rigid
import AfsimNs3.Adapter.Strings
import AfsimNs3.Adapter.Receive
import AfsimNs3.Adapter.Draws
import AfsimNs3.Lib.Octets
import AfsimNs3.Adapter.Containers
import AfsimNs3.Lib.Grammar
import AfsimNs3.Adapter.Bounds
import AfsimNs3.Bridge.Handler
import AfsimNs3.Bridge.ServiceTexts
import AfsimNs3.Bridge.Texts
import AfsimNs3.Lib.Ends
import AfsimNs3.Lib.Strings
import AfsimNs3.System.Replies
import AfsimNs3.System.Sendable
import AfsimNs3.Adapter.Revisions
import AfsimNs3.Bridge.Oversized
import AfsimNs3.Adapter.SendAll
import AfsimNs3.Bridge.StreamReader
import AfsimNs3.Lib.Cut
import AfsimNs3.System.CutLines
import AfsimNs3.Lib.Meter
import AfsimNs3.Lib.Pass
import AfsimNs3.Lib.Ranges
import AfsimNs3.Plugin.RuntimeConfig
import AfsimNs3.Plugin.Learning
import AfsimNs3.Plugin.Links
import AfsimNs3.System.Figures
import AfsimNs3.Plugin.Delays
import AfsimNs3.Plugin.Flows
import AfsimNs3.Plugin.Ticks
import AfsimNs3.System.Simulation
import AfsimNs3.Lib.Fixed
import AfsimNs3.Runner.Reports
import AfsimNs3.System.WorkerTexts
import AfsimNs3.Bridge.Export
import AfsimNs3.Lib.Csv
import AfsimNs3.System.History
import AfsimNs3.Bridge.Http
import AfsimNs3.Lib.Http
import AfsimNs3.Lib.Printed
import AfsimNs3.System.Pages
