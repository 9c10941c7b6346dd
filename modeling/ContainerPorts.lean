import ContainerPorts.Cloud.Cached
import ContainerPorts.Cloud.Call
import ContainerPorts.Cloud.PortSetup
import ContainerPorts.Cloud.PortTable
import ContainerPorts.Cloud.Resource
import ContainerPorts.Cloud.Rest.Client
import ContainerPorts.Cloud.Rest.Services
import ContainerPorts.Cloud.Rest.Session
import ContainerPorts.Cloud.TtlCache
import ContainerPorts.Cloud.World
import ContainerPorts.Context
import ContainerPorts.Daemon.Api
import ContainerPorts.Daemon.Deadline
import ContainerPorts.Daemon.Effects
import ContainerPorts.Daemon.Handler
import ContainerPorts.Daemon.PortCount
import ContainerPorts.Daemon.PortReply
import ContainerPorts.Daemon.Reaper
import ContainerPorts.Daemon.Service
import ContainerPorts.Daemon.Site
import ContainerPorts.Files
import ContainerPorts.Health
import ContainerPorts.Http.Message
import ContainerPorts.InterfaceRecord
import ContainerPorts.Invocation
import ContainerPorts.Json.Decode
import ContainerPorts.Json.Tree
import ContainerPorts.Json.Value
import ContainerPorts.Link.Binder
import ContainerPorts.Link.Kernel
import ContainerPorts.Link.Retry
import ContainerPorts.Main
import ContainerPorts.Metrics
import ContainerPorts.Net.Ipv4
import ContainerPorts.Net.Ipv6
import ContainerPorts.Net.Network
import ContainerPorts.NetworkConf
import ContainerPorts.Number.Decimal
import ContainerPorts.Number.Double
import ContainerPorts.Plugin.CommandLine
import ContainerPorts.Plugin.DaemonClient
import ContainerPorts.Plugin.Verbs
import ContainerPorts.PortTags
import ContainerPorts.Program
import ContainerPorts.Proofs.Alike
import ContainerPorts.Proofs.Arguments
import ContainerPorts.Proofs.Cloud.CacheCallers
import ContainerPorts.Proofs.Cloud.CacheKey
import ContainerPorts.Proofs.Cloud.CacheSteps
import ContainerPorts.Proofs.Cloud.Coherence
import ContainerPorts.Proofs.Cloud.Dates
import ContainerPorts.Proofs.Cloud.Furniture
import ContainerPorts.Proofs.Cloud.History
import ContainerPorts.Proofs.Cloud.LateReads
import ContainerPorts.Proofs.Cloud.Misses
import ContainerPorts.Proofs.Cloud.PortBody
import ContainerPorts.Proofs.Cloud.ReadThrough
import ContainerPorts.Proofs.Cloud.Rest.Conversations
import ContainerPorts.Proofs.Cloud.Rest.Lookups
import ContainerPorts.Proofs.Cloud.Rest.ServerLookups
import ContainerPorts.Proofs.Cloud.Rest.Sessions
import ContainerPorts.Proofs.Cloud.Rest.TagLookups
import ContainerPorts.Proofs.Cloud.SettingUp
import ContainerPorts.Proofs.Cloud.SetupCourse
import ContainerPorts.Proofs.Cloud.SharedKeys
import ContainerPorts.Proofs.Cloud.Shares
import ContainerPorts.Proofs.Cloud.SteadyCalls
import ContainerPorts.Proofs.Cloud.SteadySetup
import ContainerPorts.Proofs.Cloud.Stock
import ContainerPorts.Proofs.Cloud.TearingDown
import ContainerPorts.Proofs.Configurations
import ContainerPorts.Proofs.Daemon.Accounts
import ContainerPorts.Proofs.Daemon.AddedPort
import ContainerPorts.Proofs.Daemon.Carriers
import ContainerPorts.Proofs.Daemon.Commands
import ContainerPorts.Proofs.Daemon.Deadlines
import ContainerPorts.Proofs.Daemon.DescribedPort
import ContainerPorts.Proofs.Daemon.Footprint
import ContainerPorts.Proofs.Daemon.Handling
import ContainerPorts.Proofs.Daemon.Judgement
import ContainerPorts.Proofs.Daemon.LateDeletes
import ContainerPorts.Proofs.Daemon.LiveContainers
import ContainerPorts.Proofs.Daemon.OneByOne
import ContainerPorts.Proofs.Daemon.Operations
import ContainerPorts.Proofs.Daemon.ReaperPass
import ContainerPorts.Proofs.Daemon.Reaping
import ContainerPorts.Proofs.Daemon.RecordRequests
import ContainerPorts.Proofs.Daemon.Recovery
import ContainerPorts.Proofs.Daemon.Rivals
import ContainerPorts.Proofs.Daemon.Serving
import ContainerPorts.Proofs.Daemon.SideBySide
import ContainerPorts.Proofs.Daemon.Site
import ContainerPorts.Proofs.Daemon.StoredRecords
import ContainerPorts.Proofs.Daemon.Surroundings
import ContainerPorts.Proofs.Daemon.Tagging
import ContainerPorts.Proofs.Daemon.Transparency
import ContainerPorts.Proofs.Daemon.Willing
import ContainerPorts.Proofs.Documents
import ContainerPorts.Proofs.Health
import ContainerPorts.Proofs.Interleaving
import ContainerPorts.Proofs.Json.Fields
import ContainerPorts.Proofs.Json.Layout
import ContainerPorts.Proofs.Json.Lines
import ContainerPorts.Proofs.Json.Narrowing
import ContainerPorts.Proofs.Json.Numbers
import ContainerPorts.Proofs.Json.Records
import ContainerPorts.Proofs.Json.Strings
import ContainerPorts.Proofs.Json.Values
import ContainerPorts.Proofs.Link.Binding
import ContainerPorts.Proofs.Link.Handover
import ContainerPorts.Proofs.Link.Retrying
import ContainerPorts.Proofs.Link.Waiting
import ContainerPorts.Proofs.Monitor
import ContainerPorts.Proofs.Net.Notation
import ContainerPorts.Proofs.Plugin.Adding
import ContainerPorts.Proofs.Plugin.Forgetting
import ContainerPorts.Proofs.Plugin.RecordPaths
import ContainerPorts.Proofs.Plugin.Reporting
import ContainerPorts.Proofs.Plugin.Requests
import ContainerPorts.Proofs.PortTags
import ContainerPorts.Proofs.RecordFiles
import ContainerPorts.Proofs.RecordStore
import ContainerPorts.Proofs.Replies
import ContainerPorts.Proofs.RequestedVersion
import ContainerPorts.Proofs.StoppedPuts
import ContainerPorts.Proofs.Text.Cutting
import ContainerPorts.Proofs.Text.Encoding
import ContainerPorts.Proofs.Text.Percent
import ContainerPorts.Proofs.Url.Paths
import ContainerPorts.Proofs.Url.Query
import ContainerPorts.RecordStore
import ContainerPorts.Reply
import ContainerPorts.Settings.Account
import ContainerPorts.Settings.Daemon
import ContainerPorts.Settings.Plugin
import ContainerPorts.Settings.Setting
import ContainerPorts.Settings.Source
import ContainerPorts.Settings.Toml
import ContainerPorts.Table
import ContainerPorts.Text.Base64
import ContainerPorts.Text.Blank
import ContainerPorts.Text.Numeral
import ContainerPorts.Text.Percent
import ContainerPorts.Text.Quoted
import ContainerPorts.Text.Shapeless
import ContainerPorts.Text.Split
import ContainerPorts.Text.Utf8
import ContainerPorts.Time.Instant
import ContainerPorts.Time.Span
import ContainerPorts.Url.Basic
import ContainerPorts.Url.Host
import ContainerPorts.Url.Query
import ContainerPorts.Url.Reader
import ContainerPorts.Verb
