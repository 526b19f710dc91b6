import VectorGuard.Lib.Terminated
import VectorGuard.Lib.BoundedMap
import VectorGuard.Lib.FirstMatch
import VectorGuard.Lib.Transition
import VectorGuard.Lib.Framing
import VectorGuard.Core.Text
import VectorGuard.Core.Event
import VectorGuard.Core.RawEvent
import VectorGuard.Core.Ebpf
import VectorGuard.Core.Config
import VectorGuard.Core.Rules
import VectorGuard.Core.FastPath
import VectorGuard.Core.Collector
import VectorGuard.Core.Enforcer
import VectorGuard.Core.MapOps
import VectorGuard.Core.Scope
import VectorGuard.Core.ContextWindow
import VectorGuard.Core.SlowPath
import VectorGuard.Core.Incident
import VectorGuard.Core.Pipeline
import VectorGuard.Core.Daemon
import VectorGuard.Theory.Records
import VectorGuard.Theory.Loading
import VectorGuard.Theory.Attempts
import VectorGuard.Theory.Agreement
import VectorGuard.Theory.PathRules
import VectorGuard.Theory.Escalation
import VectorGuard.Theory.KernelRuns
import VectorGuard.Theory.ListingOrder
import VectorGuard.Theory.Reload
import VectorGuard.Theory.Convergence
import VectorGuard.Theory.SlotReuse
import VectorGuard.Core.Json
import VectorGuard.Core.Falco
import VectorGuard.Core.Auditd
import VectorGuard.Core.Tetragon
import VectorGuard.Theory.StreamOrder
import VectorGuard.Theory.SourceNames
import VectorGuard.Core.Tail
import VectorGuard.Theory.Tailing
import VectorGuard.Core.IncidentQueue
import VectorGuard.Theory.IncidentLog
import VectorGuard.Lib.FileTree
import VectorGuard.Core.Approval
import VectorGuard.Theory.RuleExpiry
import VectorGuard.Core.AiAdvisor
import VectorGuard.Lib.SlidingWindow
import VectorGuard.Theory.PatternCounter
import VectorGuard.Theory.StaleContext
import VectorGuard.Core.HotReload
import VectorGuard.Theory.ConfigReload
import VectorGuard.Core.Toml
import VectorGuard.Core.ConfigEditor
import VectorGuard.Lib.SectionedLines
import VectorGuard.Theory.TextLines
import VectorGuard.Theory.TomlTables
import VectorGuard.Theory.TomlScan
import VectorGuard.Theory.PlainToml
import VectorGuard.Theory.ConfigEditing
import VectorGuard.Theory.Severity
import VectorGuard.Theory.PreventiveBlock
import VectorGuard.Theory.LivePids
import VectorGuard.Core.PipelineTask
import VectorGuard.Theory.ComponentConfig
import VectorGuard.Core.Handover
import VectorGuard.Theory.DisabledBlocking
import VectorGuard.Core.EventFlow
import VectorGuard.Theory.OneIncident
import VectorGuard.Lib.FilePaths
import VectorGuard.Lib.FileNames
import VectorGuard.Theory.StagedNames
import VectorGuard.Core.Advice
import VectorGuard.Theory.Staging
import VectorGuard.Theory.StoreFiles
import VectorGuard.Theory.StagedListing
import VectorGuard.Theory.Whitelisting
import VectorGuard.Lib.DepthFirst
import VectorGuard.Core.Tui
import VectorGuard.Theory.ProcessTree
import VectorGuard.Theory.Cursors
import VectorGuard.Lib.PartialReads
import VectorGuard.Core.UserMemory
import VectorGuard.Theory.Destinations
import VectorGuard.Theory.OpenedPaths
import VectorGuard.Theory.CallerIdentity
import VectorGuard.Theory.ProcessNames
import VectorGuard.Theory.ScopeLists
import VectorGuard.Core.Qdrant
import VectorGuard.Theory.FailedSearches
import VectorGuard.Theory.RecentHistory
import VectorGuard.Theory.ShortDescriptions
import VectorGuard.Theory.Modes
import VectorGuard.Lib.Selection
import VectorGuard.Theory.Selections
import VectorGuard.Theory.Dashboard
import VectorGuard.Theory.AdvisorCounts
import VectorGuard.Theory.FencedBlocks
import VectorGuard.Theory.TomlLens
import VectorGuard.Theory.FiringRules
import VectorGuard.Theory.AuditRecords
import VectorGuard.Theory.TreeRows
import VectorGuard.Theory.ApprovedRules
import VectorGuard.Lib.IteratedHash
import VectorGuard.Theory.Baselines
import VectorGuard.Lib.Channels
import VectorGuard.Core.Dataflow
import VectorGuard.Theory.Passage
import VectorGuard.Theory.Generations
import VectorGuard.Theory.Settling
import VectorGuard.Theory.WorkerIsolation
import VectorGuard.Theory.WorkerCopies
import VectorGuard.Theory.IncidentCounts
import VectorGuard.Lib.FlatJson
import VectorGuard.Theory.IncidentRecords
import VectorGuard.Lib.FileContents
import VectorGuard.Theory.Shelves
import VectorGuard.Theory.Reviews
import VectorGuard.Theory.Requests
import VectorGuard.Core.Embedders
import VectorGuard.Core.Detector
import VectorGuard.Theory.Novelty
import VectorGuard.Theory.Collections
import VectorGuard.Theory.Detection
import VectorGuard.Theory.Desk
import VectorGuard.Core.RuleReload
import VectorGuard.Theory.RulesInForce
import VectorGuard.Core.Enforcement
import VectorGuard.Core.Prompt
import VectorGuard.Theory.KernelRules
import VectorGuard.Theory.Disclosure
