import TaskControl.Foundation.Calls
import TaskControl.Foundation.CodePoints
import TaskControl.Foundation.Effects
import TaskControl.Foundation.IsoTime
import TaskControl.Foundation.Json
import TaskControl.Foundation.JsonIndented
import TaskControl.Foundation.JsonWriting
import TaskControl.Foundation.LineCuts
import TaskControl.Foundation.LinePattern
import TaskControl.Foundation.Occurrences
import TaskControl.Foundation.Overlays
import TaskControl.Foundation.PythonText
import TaskControl.Foundation.SortedTable
import TaskControl.Foundation.Substitution
import TaskControl.Foundation.Transition
import TaskControl.Foundation.Words
import TaskControl.Common.Errors
import TaskControl.Domain.ActionCodec
import TaskControl.Domain.Claim
import TaskControl.Domain.Configuration
import TaskControl.Domain.Constructors
import TaskControl.Domain.CronAcceptance
import TaskControl.Domain.Endings
import TaskControl.Domain.Histories
import TaskControl.Domain.Identifiers
import TaskControl.Domain.Intervals
import TaskControl.Domain.JournalCodec
import TaskControl.Domain.JournalFaults
import TaskControl.Domain.Lifecycle
import TaskControl.Domain.ManifestCodec
import TaskControl.Domain.Primitives
import TaskControl.Domain.RevisionCodec
import TaskControl.Domain.Schedules
import TaskControl.Domain.SecretReferences
import TaskControl.Domain.Slugs
import TaskControl.Domain.Strategies
import TaskControl.Domain.Task
import TaskControl.Domain.Uuid7
import TaskControl.Domain.ValueCodec
import TaskControl.Domain.Values
import TaskControl.Domain.Weekdays
import TaskControl.Serialization.Bundles
import TaskControl.Persistence.DefinitionRecords
import TaskControl.Persistence.OptimisticLocking
import TaskControl.Persistence.RevisionHistory
import TaskControl.Persistence.TaskRecords
import TaskControl.Claims.Inspection
import TaskControl.Claims.Overlap
import TaskControl.Claims.Protocol
import TaskControl.Claims.Renewal
import TaskControl.Claims.Store
import TaskControl.Cron.Agreement
import TaskControl.Cron.Ambiguity
import TaskControl.Cron.Block
import TaskControl.Cron.BlockEdits
import TaskControl.Cron.Blocks
import TaskControl.Cron.Chunks
import TaskControl.Cron.Convergence
import TaskControl.Cron.Directives
import TaskControl.Cron.Edits
import TaskControl.Cron.Estate
import TaskControl.Cron.ExactlyOnce
import TaskControl.Cron.FileBytes
import TaskControl.Cron.Manager
import TaskControl.Cron.Markers
import TaskControl.Cron.Ownership
import TaskControl.Cron.RegionEdits
import TaskControl.Cron.Regions
import TaskControl.Cron.Removal
import TaskControl.Cron.Rendering
import TaskControl.Cron.Reports
import TaskControl.Cron.Rollback
import TaskControl.Cron.Segments
import TaskControl.Cron.Stores
import TaskControl.Cron.UserText
import TaskControl.Cron.Verification
import TaskControl.Runtime.Backoff
import TaskControl.Runtime.IdempotentRuns
import TaskControl.Runtime.Outcomes
import TaskControl.Runtime.Recording
import TaskControl.Runtime.SoloRuns
import TaskControl.Runtime.StaleSaves
import TaskControl.Runtime.Terminal
import TaskControl.Executors.OutputCapture
import TaskControl.Executors.Supervision
import TaskControl.Activation.ConcurrentReconcile
import TaskControl.Activation.ExitCodes
import TaskControl.Activation.JournalFile
import TaskControl.Activation.Launches
import TaskControl.Activation.LostRuns
import TaskControl.Activation.Reconciliation
import TaskControl.Deployment.Apply
import TaskControl.Deployment.Collection
import TaskControl.Deployment.EditedDrafts
import TaskControl.Deployment.LifecycleGate
import TaskControl.Deployment.ManifestFiles
import TaskControl.Deployment.Planning
import TaskControl.Deployment.Publication
import TaskControl.Deployment.ReadBack
import TaskControl.Deployment.StoredHistory
import TaskControl.Infrastructure.Redaction
