import Transform.Lib.Proc
import Transform.Lib.Stm
import Transform.Lib.Interleave
import Transform.Lib.Bytes
import Transform.Lib.Keyed
import Transform.Lib.Json
import Transform.Lib.Slices
import Transform.Lib.Splitting
import Transform.Lib.Query
import Transform.Lib.Base64
import Transform.Lib.UrlSplit
import Transform.Lib.Chunked
import Transform.Lib.Aead
import Transform.Lib.StreamGroup
import Transform.Lib.Broker
import Transform.Billing.Tier
import Transform.Conversions.Job
import Transform.Conversions.Message
import Transform.Conversions.JobRepo
import Transform.Conversions.Ports
import Transform.Conversions.Service
import Transform.Worker.Paths
import Transform.Worker.ProcessJob
import Transform.Worker.Tally
import Transform.Worker.Outcome
import Transform.Worker.Settlement
import Transform.Conversions.JobWorld
import Transform.Conversions.BatchRequest
import Transform.Conversions.BatchOutcome
import Transform.Conversions.BatchSystem
import Transform.Conversions.VerifyRequest
import Transform.Conversions.VerifySystem
import Transform.Conversions.VerifyRetries
import Transform.Conversions.VerifyOwner
import Transform.Conversions.PendingSystem
import Transform.Cleanup.Cycle
import Transform.Cleanup.Released
import Transform.Billing.CreditWallet
import Transform.Billing.Database
import Transform.Billing.Programs
import Transform.Billing.WalletJob
import Transform.Billing.LostUpdate
import Transform.Billing.Sequential
import Transform.Billing.Activation
import Transform.Billing.Expiry
import Transform.Billing.Purchase
import Transform.Files.Naming
import Transform.Files.Upload
import Transform.Files.UploadSystem
import Transform.Files.UploadRejection
import Transform.Security.Encryption
import Transform.Security.AtRest
import Transform.Security.Fencr
import Transform.Security.PartialReads
import Transform.Queues.JobStream
import Transform.Queues.JobTopic
import Transform.Queues.JobDelivery
import Transform.Queues.JobEvents
import Transform.Worker.Loop
import Transform.Worker.MessageLoss
import Transform.Worker.Refusal
import Transform.Conversions.EventSystem
import Transform.Workspaces.Execution
import Transform.Workspaces.Excerpt
import Transform.Workspaces.Revision
import Transform.Workspaces.Runtime
import Transform.Queues.WorkspaceStream
import Transform.Workspaces.Loop
import Transform.Workspaces.Ports
import Transform.Workspaces.Service
import Transform.Workspaces.Processor
import Transform.Workspaces.Rows
import Transform.Workspaces.Retention
import Transform.Workspaces.ExecutionSystem
import Transform.Workspaces.ExecutionRuns
import Transform.Access.Scope
import Transform.Access.Records
import Transform.Access.Ports
import Transform.Access.RedirectUri
import Transform.Access.Service
import Transform.Lib.Watch
import Transform.Access.System
import Transform.Access.Tables
import Transform.Access.Authority
import Transform.Access.SingleUse
import Transform.Access.ScopeRules
import Transform.Access.Revocation
import Transform.Lib.FileTable
import Transform.Workspaces.Docker
import Transform.Workspaces.FilePaths
import Transform.Workspaces.Captures
import Transform.Workspaces.RowSystem
import Transform.Workspaces.RowRuns
import Transform.Lib.Double
import Transform.Lib.SlidingLog
import Transform.Lib.Forest
import Transform.Files.Folders
import Transform.Files.FolderForest
import Transform.Web.ApiClient
import Transform.Web.JobStore
import Transform.Web.Sessions
import Transform.Web.UploadEngine
import Transform.Web.UploadRuns
import Transform.Api.RateLimit
import Transform.Accounts.User
import Transform.Telemetry.IngestionRuns
import Transform.Telemetry.Metrics
import Transform.Telemetry.Totals
import Transform.Billing.TierRuns
import Transform.Billing.Entitlement
import Transform.Billing.Upgrade
import Transform.Billing.UpgradeRuns
import Transform.Erasure.Account
import Transform.Erasure.Objects
import Transform.Accounts.LinkRuns
import Transform.Accounts.PhoneRuns
import Transform.Accounts.Links
import Transform.Assistant.Message
import Transform.Assistant.Deletion
import Transform.Assistant.DeletionRuns
import Transform.Assistant.ModelStream
import Transform.Assistant.StreamSplits
import Transform.Mcp.Ports
import Transform.Mcp.ToolBox
import Transform.Mcp.Failures
import Transform.Mcp.Download
import Transform.Files.FolderListing
import Transform.Mcp.FolderPages
import Transform.Web.Sse
import Transform.Web.SseChunks
import Transform.Web.ReturnPath
import Transform.Web.RequestCache
import Transform.Telemetry.Latency
import Transform.Telemetry.Retries
import Transform.Accounts.Recovery
import Transform.Lib.Cooldown
import Transform.Accounts.LinkSpacing
import Transform.Accounts.PhoneSpacing
import Transform.Lib.DateTimes
import Transform.Lib.Base64Url
import Transform.Lib.Keyset
import Transform.Telemetry.Cursor
import Transform.Telemetry.LogPages
import Transform.Web.UploadRows
import Transform.Web.UploadOutcomes
import Transform.Web.PartWorkers
import Transform.Web.PartSettlement
import Transform.Telemetry.LiveStreams
import Transform.Lib.TextCodecs
import Transform.Documents.TextDecoding
import Transform.Lib.Trim
import Transform.Accounts.PhoneFormat
import Transform.Lib.FileTrees
import Transform.Archives.Converters
import Transform.Archives.Repacking
import Transform.Billing.PaymentMethods
import Transform.Lib.QueueSearch
import Transform.Assistant.DriveLookup
import Transform.Lib.LineText
import Transform.Documents.Extraction
import Transform.Documents.Truncation
import Transform.Lib.Regex
import Transform.Assistant.Redaction
import Transform.Assistant.WorkspaceFiles
import Transform.Lib.Anchored
import Transform.Lib.PosixPath
import Transform.Files.ObjectKeys
import Transform.Lib.Lru
import Transform.Lib.JsMap
import Transform.Web.FileCaches
import Transform.Lib.Scanning
import Transform.Web.Markdown
import Transform.Lib.Newest
import Transform.Assistant.History
import Transform.Assistant.Turn
import Transform.Assistant.TurnRuns
