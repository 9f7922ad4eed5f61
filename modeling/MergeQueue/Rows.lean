import MergeQueue.Requeue
import MergeQueue.Lib.KeyedTable

/-!
# Rows of the queue database

The two tables of the queue, with one structure field for each column that the
program reads, and the records that are stored in them as JSON.  A JSON column
holds the decoded record; the guards that compare the text of such a column
compare the record.
-/

namespace MergeQueue

/-- The `status` column of a queue row. -/
inductive Status
  | queued
  | rebasing
  | testing
  | merging
  | merged
  | failed
  | removed
  deriving DecidableEq, Repr

namespace Status

def active : Status → Bool
  | queued | rebasing | testing | merging => true
  | merged | failed | removed => false

def terminal : Status → Bool
  | merged | failed | removed => true
  | queued | rebasing | testing | merging => false

@[simp] theorem terminal_eq_not_active (s : Status) : s.terminal = !s.active := by
  cases s <;> rfl

end Status

/-- The `status` column of a history row. -/
inductive HistoryStatus
  | merged
  | failed
  | removed
  | conflict
  | timeout
  | mergeFailed
  deriving DecidableEq, Repr

inductive PipelineStatus
  | pending
  | running
  | success
  | failed
  | canceled
  | skipped
  | other (name : String)
  deriving DecidableEq, Repr

/-- The templates of the notifier that the completion code names. -/
inductive Template
  | merged
  | conflict
  | pipelineFailed
  | timeout
  | mergeFailed
  | genericFailure
  | removedLabel
  | removedClosed
  deriving DecidableEq, Repr

/-- A value in the context of a notification. -/
inductive ContextValue
  | time (value : ℤ)
  | text (value : String)
  | number (value : ℕ)
  | list (value : List String)
  | counts (value : List (String × ℕ))
  | null
  deriving DecidableEq, Repr

abbrev Context := List (String × ContextValue)

/-- The part of a completion request that only the history reads. -/
structure Outcome where
  historyStatus : HistoryStatus
  failureReason : Option String := none
  pipelineDurationSeconds : Option ℤ := none
  pipelineFailedJobs : Option (List String) := none
  deriving DecidableEq, Repr

/-- The immutable outcome of one queue lifecycle. -/
structure CompletionRequest where
  state : Status
  notificationStatus : Template
  context : Context
  outcome : Outcome
  removeLabels : Bool := true
  positions : List (ℕ × ℕ) := []
  oldTotal : ℕ := 0
  queueId : Option ℕ := none
  deriving DecidableEq, Repr

/-- The values of a history row. -/
structure HistoryParams where
  projectId : ℕ
  iid : ℕ
  title : String
  authorName : String
  authorUsername : String
  authorAvatar : Option String
  status : HistoryStatus
  isHotfix : Bool
  labels : Option (List String)
  targetBranch : String
  queuedAt : ℤ
  startedAt : Option ℤ
  finishedAt : ℤ
  waitTimeSeconds : ℤ
  processingTimeSeconds : Option ℤ
  failureReason : Option String
  pipelineId : Option ℕ
  pipelineStatus : Option PipelineStatus
  pipelineDurationSeconds : Option ℤ
  pipelineFailedJobs : Option (List String)
  deriving DecidableEq, Repr

/-- A change of the bot's own labels, recorded before it is requested. -/
structure LabelOperation where
  uuid : Uuid
  action : LabelAction
  triggers : List String
  requestedTriggers : List String
  actorId : ℕ
  acknowledged : Bool
  deriving DecidableEq, Repr

/-- The `pending_completion` record: the frozen outcome and the progress made. -/
structure CompletionPayload where
  queueId : ℕ
  request : CompletionRequest
  history : HistoryParams
  finishedAt : ℤ
  commentSent : Bool := false
  labelsRemoved : Bool := false
  labelEvents : List LabelEvent
  consumedAdmissions : List String
  labelOperations : List LabelOperation := []
  deriving DecidableEq, Repr

/-- The templates for a merge request that waits. -/
inductive NotificationStatus
  | queued
  | priorityChanged
  | positionChangedPriority
  | positionChanged
  | positionChangedHotfix
  | totalChanged
  | totalChangedHotfix
  deriving DecidableEq, Repr

/-- Feedback about a queue position that still has to be sent. -/
structure PendingNotification where
  token : Uuid
  status : NotificationStatus
  oldPosition : ℕ
  oldTotal : Option ℕ := none
  deriving DecidableEq, Repr

/-- The text of a `labels` column: absent, a JSON list of names, or anything else. -/
inductive SavedLabels
  | null
  | json (labels : List String)
  | unknown (raw : String)
  deriving DecidableEq, Repr

/-- A complete saved snapshot, or nothing where it is unknown. -/
def parseSavedLabels : SavedLabels → Option (List String)
  | .json labels => some labels
  | .null => none
  | .unknown _ => none

/-- A row of `merge_requests`. -/
structure MergeRequestRow where
  id : ℕ
  projectId : ℕ
  iid : ℕ
  title : String
  authorName : String
  authorUsername : String
  authorAvatar : Option String
  status : Status := .queued
  isHotfix : Bool
  isAutomated : Bool
  labels : SavedLabels
  metadataVersion : ℕ := 0
  pendingNotification : Option PendingNotification := none
  pendingCompletion : Option CompletionPayload := none
  requeueRequest : Option Requeue := none
  ignoredLabelEvents : List LabelEvent := []
  targetBranch : String
  queuedAt : ℤ
  startedAt : Option ℤ := none
  finishedAt : Option ℤ := none
  pipelineId : Option ℕ := none
  pipelineStatus : Option PipelineStatus := none
  expectedSha : Option String := none
  retryCount : ℕ := 0
  retriedJobs : List (String × ℕ) := []
  processingAttempts : ℕ := 0
  lastError : Option String := none
  staleWarningSent : Bool := false
  deriving DecidableEq, Repr

/-- A row of `merge_requests_history`. -/
structure HistoryRow where
  id : ℕ
  values : HistoryParams
  deriving DecidableEq, Repr

/-- Both tables are unique in the project and the number of the merge request. -/
abbrev MrKey := ℕ × ℕ

instance : Keyed MergeRequestRow MrKey where
  rowId := MergeRequestRow.id
  key := fun r ↦ (r.projectId, r.iid)

instance : Keyed HistoryRow MrKey where
  rowId := HistoryRow.id
  key := fun r ↦ (r.values.projectId, r.values.iid)

@[simp] theorem rowId_mergeRequestRow (r : MergeRequestRow) : Keyed.rowId r = r.id := rfl

@[simp] theorem key_mergeRequestRow (r : MergeRequestRow) :
    Keyed.key r = (r.projectId, r.iid) := rfl

@[simp] theorem rowId_historyRow (r : HistoryRow) : Keyed.rowId r = r.id := rfl

@[simp] theorem key_historyRow (r : HistoryRow) :
    Keyed.key r = (r.values.projectId, r.values.iid) := rfl

structure Database where
  mergeRequests : KeyedTable MergeRequestRow
  history : KeyedTable HistoryRow
  deriving DecidableEq

def Database.empty : Database where
  mergeRequests := KeyedTable.empty
  history := KeyedTable.empty

/-- A row as the program holds it in memory. -/
structure QueueItem where
  mrIid : ℕ
  title : String
  authorName : String
  authorUsername : String
  targetBranch : String
  state : Status
  queuedAt : ℤ
  projectId : ℕ
  isHotfix : Bool
  isAutomated : Bool
  authorAvatar : Option String
  labels : List String
  startedAt : Option ℤ
  finishedAt : Option ℤ
  pipelineId : Option ℕ
  pipelineStatus : Option PipelineStatus
  expectedSha : Option String
  retryCount : ℕ
  retriedJobs : List (String × ℕ)
  lastError : Option String
  staleWarningSent : Bool
  processingAttempts : ℕ
  queueId : ℕ
  metadataVersion : ℕ
  pendingNotification : Option PendingNotification
  pendingCompletion : Option CompletionPayload
  requeueRequest : Option Requeue
  ignoredLabelEvents : List LabelEvent
  deriving DecidableEq, Repr

def rowToQueueItem (row : MergeRequestRow) : QueueItem where
  mrIid := row.iid
  title := row.title
  authorName := row.authorName
  authorUsername := row.authorUsername
  targetBranch := row.targetBranch
  state := row.status
  queuedAt := row.queuedAt
  projectId := row.projectId
  isHotfix := row.isHotfix
  isAutomated := row.isAutomated
  authorAvatar := row.authorAvatar
  labels := (parseSavedLabels row.labels).getD []
  startedAt := row.startedAt
  finishedAt := row.finishedAt
  pipelineId := row.pipelineId
  pipelineStatus := row.pipelineStatus
  expectedSha := row.expectedSha
  retryCount := row.retryCount
  retriedJobs := row.retriedJobs
  lastError := row.lastError
  staleWarningSent := row.staleWarningSent
  processingAttempts := row.processingAttempts
  queueId := row.id
  metadataVersion := row.metadataVersion
  pendingNotification := row.pendingNotification
  pendingCompletion := row.pendingCompletion
  requeueRequest := row.requeueRequest
  ignoredLabelEvents := row.ignoredLabelEvents

@[simp] theorem rowToQueueItem_queueId (row : MergeRequestRow) :
    (rowToQueueItem row).queueId = row.id := rfl

@[simp] theorem rowToQueueItem_mrIid (row : MergeRequestRow) :
    (rowToQueueItem row).mrIid = row.iid := rfl

@[simp] theorem rowToQueueItem_projectId (row : MergeRequestRow) :
    (rowToQueueItem row).projectId = row.projectId := rfl

@[simp] theorem rowToQueueItem_state (row : MergeRequestRow) :
    (rowToQueueItem row).state = row.status := rfl

@[simp] theorem rowToQueueItem_pendingCompletion (row : MergeRequestRow) :
    (rowToQueueItem row).pendingCompletion = row.pendingCompletion := rfl

@[simp] theorem rowToQueueItem_requeueRequest (row : MergeRequestRow) :
    (rowToQueueItem row).requeueRequest = row.requeueRequest := rfl

@[simp] theorem rowToQueueItem_expectedSha (row : MergeRequestRow) :
    (rowToQueueItem row).expectedSha = row.expectedSha := rfl

@[simp] theorem rowToQueueItem_processingAttempts (row : MergeRequestRow) :
    (rowToQueueItem row).processingAttempts = row.processingAttempts := rfl

end MergeQueue
