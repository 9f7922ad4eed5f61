import MergeQueue.Lib.IntervalClock
import MergeQueue.Lib.KeyedTable
import MergeQueue.EventOrder
import MergeQueue.Requeue
import MergeQueue.Rows
import MergeQueue.GitLabModels
import MergeQueue.QueueManager
import MergeQueue.QueueOps
import MergeQueue.QueueRuns
import MergeQueue.RequeueTransfer
import MergeQueue.HistoryLoss
import MergeQueue.RequeueOrder
import MergeQueue.CircuitBreaker
import MergeQueue.GitLabClient
import MergeQueue.MergeSafety
import MergeQueue.BreakerProtection
import MergeQueue.Lib.Interleave
import MergeQueue.Lib.RelyGuarantee
import MergeQueue.Tasks
import MergeQueue.Notifier
import MergeQueue.QueueCompletion
import MergeQueue.RequeueFinish
import MergeQueue.WebhookRetry
import MergeQueue.WebhookEndpoint
import MergeQueue.Lib.RankedQueue
import MergeQueue.PriorityOrder
import MergeQueue.PriorityActivation
import MergeQueue.QueueMetadata
import MergeQueue.QueueCache
import MergeQueue.StateMachine
import MergeQueue.RebaseHandler
import MergeQueue.PipelineHandler
import MergeQueue.Processor
import MergeQueue.Lib.Solo
import MergeQueue.Alone
import MergeQueue.PermanentFailure
import MergeQueue.Statistics
import MergeQueue.CompletionSteps
import MergeQueue.MergeTruth
import MergeQueue.WebhookHandler
import MergeQueue.Undisturbed
import MergeQueue.StaleEnqueue
import MergeQueue.StaleRemoval
import MergeQueue.SyncConvergence
import MergeQueue.Lib.Json
import MergeQueue.RetryArchive
import MergeQueue.ArchiveRoundTrip
import MergeQueue.StaleListing
import MergeQueue.PipelineWebhook
import MergeQueue.AdmissionReceipts
import MergeQueue.LabelRefresh
import MergeQueue.PositionComments
import MergeQueue.WebSocketManager
import MergeQueue.Lib.Oracle
import MergeQueue.Lib.Rounds
import MergeQueue.StateEntry
import MergeQueue.RebaseLimit
import MergeQueue.TestedHead
import MergeQueue.RetryCounts
import MergeQueue.PipelineDeadline
import MergeQueue.Lib.PyInt
import MergeQueue.Pagination
import MergeQueue.BreakerRuns
import MergeQueue.Lib.Pages
import MergeQueue.Lib.Counts
import MergeQueue.HistoryBrowsing
import MergeQueue.Lib.IsoText
import MergeQueue.HourlyWindow
import MergeQueue.RateLimit
import MergeQueue.Redaction
import MergeQueue.ResponseErrors
import MergeQueue.PinnedComment
import MergeQueue.RetryBatch
import MergeQueue.LabelEvents
import MergeQueue.Incarnations
import MergeQueue.Cleanup
import MergeQueue.Lib.CivilTime
import MergeQueue.Lib.PyJson
import MergeQueue.ProjectsConfig
import MergeQueue.Retorts
import MergeQueue.SourceIntervals
import MergeQueue.Polling
import MergeQueue.Shutdown
import MergeQueue.Lib.LockOrder
import MergeQueue.LockDiscipline
import MergeQueue.TaskDiscipline
import MergeQueue.Projects
import MergeQueue.AccessTokens
import MergeQueue.DashboardLogin
import MergeQueue.Recovery
import MergeQueue.BotRuns
