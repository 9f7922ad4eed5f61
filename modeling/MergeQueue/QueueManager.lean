import MergeQueue.GitLabModels
import MergeQueue.Lib.Checks
import Mathlib.Data.List.Sort

/-!
# The queue manager

Every operation of the queue manager is one transaction, a function of the
database.  An operation that raises leaves the database as it was.  The time
`now` and the random `token`s an operation draws are arguments.
-/

namespace MergeQueue

/-- What a queue operation may raise.  `reread` stands for a conditional write
that hit no row, after which the operation starts over. -/
inductive QueueError
  | itemNotFound (mrIid : ℕ)
  | queueError (message : String)
  | valueError (message : String)
  | keyError (key : String)
  | reread
  deriving DecidableEq, Repr

/-- The labels that decide the priority class of a merge request. -/
structure ProjectConfig where
  hotfixLabel : String
  automationLabels : List String
  deriving DecidableEq, Repr

structure QueueManager where
  projectPolicies : Option (ℕ → Option ProjectConfig) := none

/-- The database after an operation that may raise: unchanged when it raised. -/
def committed {α : Type} (db : Database) : Except QueueError (α × Database) → Database
  | .ok (_, db') => db'
  | .error _ => db

@[simp] theorem committed_ok {α : Type} (db db' : Database) (a : α) :
    committed db (.ok (a, db')) = db' := rfl

@[simp] theorem committed_error {α : Type} (db : Database) (e : QueueError) :
    committed db (.error e : Except QueueError (α × Database)) = db := rfl

namespace Database

/-- The row of a merge request. -/
def row (db : Database) (projectId iid : ℕ) : Option MergeRequestRow :=
  db.mergeRequests.byKey (projectId, iid)

def selectQueueItem (db : Database) (projectId iid : ℕ) : Option QueueItem :=
  (db.row projectId iid).map rowToQueueItem

end Database

/-- The rank that orders the active queue. -/
def priorityRank (row : MergeRequestRow) : ℕ :=
  if row.isHotfix then 0 else if row.isAutomated then 2 else 1

def queueOrder (a b : MergeRequestRow) : Prop :=
  priorityRank a < priorityRank b ∨ (priorityRank a = priorityRank b ∧ a.id ≤ b.id)

instance : DecidableRel queueOrder := fun _ _ ↦
  inferInstanceAs (Decidable (_ ∨ (_ ∧ _)))

def selectActiveQueue (db : Database) (projectId : ℕ) : List MergeRequestRow :=
  (db.mergeRequests.rows.filter fun r ↦ r.projectId = projectId && r.status.active).insertionSort
    queueOrder

namespace QueueManager

variable (qm : QueueManager)

/-! ## Admission to the queue -/

/-- Resolves the hotfix and automation flags under the current policy. -/
def classifyLabels (projectId : ℕ) (labels : List String) (isHotfix : Bool) :
    Except QueueError (Bool × Bool) :=
  match qm.projectPolicies with
  | none => .ok (isHotfix, false)
  | some policies =>
      match policies projectId with
      | none =>
          .error (.valueError s!"No priority policy configured for project {projectId}")
      | some policy =>
          .ok (labels.contains policy.hotfixLabel,
            !policy.automationLabels.isEmpty &&
              labels.any fun label ↦ policy.automationLabels.contains label)

/-- The row that `_INSERT_MR_SQL` inserts. -/
def insertedRow (params : RequeueParams) (isHotfix isAutomated : Bool) (queuedAt : ℤ) (id : ℕ) :
    MergeRequestRow where
  id := id
  projectId := params.projectId
  iid := params.iid
  title := params.title
  authorName := params.authorName
  authorUsername := params.authorUsername
  authorAvatar := params.authorAvatar
  isHotfix := isHotfix
  isAutomated := isAutomated
  labels := .json params.labels
  targetBranch := params.targetBranch
  queuedAt := queuedAt

/-- `INSERT … ON CONFLICT(project_id, iid) DO NOTHING`. -/
def insertMr (db : Database) (params : RequeueParams) (isHotfix isAutomated : Bool)
    (queuedAt : ℤ) : Database :=
  { db with
    mergeRequests :=
      db.mergeRequests.insertOrIgnore (insertedRow params isHotfix isAutomated queuedAt) }

def addToQueue (projectId : ℕ) (mr : MergeRequest) (isHotfix : Bool) (now : ℤ)
    (db : Database) : Except QueueError (Option QueueItem × Database) := do
  let (isHotfix, isAutomated) ← qm.classifyLabels projectId mr.labels isHotfix
  let existing := db.row projectId mr.iid
  let stale := existing.any fun row ↦ row.status.terminal && row.pendingCompletion.isNone
  let db :=
    if stale then
      { db with
        mergeRequests :=
          db.mergeRequests.deleteWhere fun r ↦ r.iid = mr.iid && r.projectId = projectId }
    else db
  let params : RequeueParams :=
    { projectId
      iid := mr.iid
      title := mr.title
      authorName := mr.author.name
      authorUsername := mr.author.username
      authorAvatar := mr.author.avatarUrl
      targetBranch := mr.targetBranch
      labels := mr.labels
      isHotfix }
  let db :=
    if stale || existing.isNone then insertMr db params isHotfix isAutomated now else db
  return (db.selectQueueItem projectId mr.iid, db)

def removeFromQueue (projectId mrIid : ℕ) (db : Database) : Bool × Database :=
  let hit := fun r : MergeRequestRow ↦
    r.iid = mrIid && r.projectId = projectId && r.status ≠ .removed
  (db.mergeRequests.rows.any hit,
    { db with
      mergeRequests := db.mergeRequests.updateWhere hit fun r ↦ { r with status := .removed } })

/-! ## Reading the queue -/

def getActiveQueue (projectId : ℕ) (db : Database) : List QueueItem :=
  (selectActiveQueue db projectId).map rowToQueueItem

def getQueueLength (projectId : ℕ) (db : Database) : ℕ :=
  (getActiveQueue projectId db).length

/-- The position in the active queue, counted from one. -/
def getQueuePosition (projectId mrIid : ℕ) (db : Database) : Option ℕ :=
  let queue := getActiveQueue projectId db
  (queue.findIdx? fun item ↦ item.mrIid = mrIid).map (· + 1)

def getNextMr (projectId : ℕ) (db : Database) : Option QueueItem :=
  (getActiveQueue projectId db).find? fun item ↦ item.state = .queued

/-- The active rows queued before `cutoff` that no warning was sent for. -/
def getStaleMrs (projectId : ℕ) (cutoff : ℤ) (db : Database) : List QueueItem :=
  ((db.mergeRequests.rows.filter fun r ↦
    r.projectId = projectId && r.status.active && !r.staleWarningSent &&
      decide (r.queuedAt < cutoff)).insertionSort fun a b ↦ a.queuedAt ≤ b.queuedAt).map
    rowToQueueItem

def getPendingCompletions (projectId : ℕ) (db : Database) : List QueueItem :=
  (db.mergeRequests.rows.filter fun r ↦
    r.projectId = projectId && r.pendingCompletion.isSome).map rowToQueueItem

/-- What `get_mr_state` reports of a lifecycle, queued or archived. -/
structure MrStateReport where
  status : Status ⊕ HistoryStatus
  startedAt : Option ℤ
  lastError : Option String
  finishedAt : Option ℤ
  deriving DecidableEq, Repr

/-- The archived lifecycle with the largest identity. -/
def latestHistory (projectId mrIid : ℕ) (db : Database) : Option HistoryRow :=
  (db.history.rows.filter fun r ↦
    r.values.iid = mrIid && r.values.projectId = projectId).getLast?

def getMrState (projectId mrIid : ℕ) (db : Database) : Option MrStateReport :=
  match db.row projectId mrIid with
  | some row =>
      some
        { status := .inl row.status
          startedAt := row.startedAt
          lastError := row.lastError
          finishedAt := row.finishedAt }
  | none =>
      (latestHistory projectId mrIid db).map fun row ↦
        { status := .inr row.values.status
          startedAt := row.values.startedAt
          lastError := row.values.failureReason
          finishedAt := some row.values.finishedAt }

/-! ## Updates of an active row -/

/-- The optional fields of an update; an absent field keeps its column. -/
structure Extra where
  pipelineId : Option (Option ℕ) := none
  pipelineStatus : Option (Option PipelineStatus) := none
  lastError : Option (Option String) := none
  retryCount : Option ℕ := none
  expectedSha : Option (Option String) := none
  retriedJobs : Option (List (String × ℕ)) := none
  processingAttempts : Option ℕ := none
  deriving DecidableEq, Repr

/-- The retry count of an update, derived from `retried_jobs` where only that is given. -/
def Extra.derivedRetryCount (extra : Extra) : Option ℕ :=
  match extra.retryCount, extra.retriedJobs with
  | some count, _ => some count
  | none, some jobs => some ((jobs.map Prod.snd).foldl max 0)
  | none, none => none

/-- The assignments of the `UPDATE` that `update_mr_state` builds. -/
def updatedRow (state : Status) (extra : Extra) (now : ℤ) (row : MergeRequestRow) :
    MergeRequestRow :=
  let starts := row.startedAt.isNone && row.status == .queued &&
    (state == .rebasing || state == .testing || state == .merging)
  { row with
    status := state
    startedAt := if starts then some now else row.startedAt
    finishedAt := if state.terminal then some (row.finishedAt.getD now) else row.finishedAt
    pipelineId := extra.pipelineId.getD row.pipelineId
    pipelineStatus := extra.pipelineStatus.getD row.pipelineStatus
    lastError := extra.lastError.getD row.lastError
    retryCount := extra.derivedRetryCount.getD row.retryCount
    expectedSha := extra.expectedSha.getD row.expectedSha
    retriedJobs := extra.retriedJobs.getD row.retriedJobs
    processingAttempts := extra.processingAttempts.getD row.processingAttempts }

def updateMrState (projectId mrIid : ℕ) (state : Status) (extra : Extra) (now : ℤ)
    (db : Database) : Except QueueError (Bool × Database) :=
  let hit := fun r : MergeRequestRow ↦
    r.iid = mrIid && r.projectId = projectId && r.pendingCompletion.isNone
  if db.mergeRequests.rows.any hit then
    .ok (true,
      { db with mergeRequests := db.mergeRequests.updateWhere hit (updatedRow state extra now) })
  else .error (.itemNotFound mrIid)

def markStaleWarningSent (projectId mrIid : ℕ) (db : Database) : Bool × Database :=
  let hit := fun r : MergeRequestRow ↦ r.iid = mrIid && r.projectId = projectId
  (db.mergeRequests.rows.any hit,
    { db with
      mergeRequests :=
        db.mergeRequests.updateWhere hit fun r ↦ { r with staleWarningSent := true } })

def clearPendingNotification (projectId mrIid : ℕ) (pending : PendingNotification)
    (db : Database) : Database :=
  { db with
    mergeRequests :=
      db.mergeRequests.updateWhere
        (fun r ↦ r.projectId = projectId && r.iid = mrIid && r.pendingNotification = some pending)
        fun r ↦ { r with pendingNotification := none } }

/-! ## Position feedback -/

/-- The feedback staged for the waiting row at `position` after a completion. -/
def completionFeedback (positions : List (ℕ × ℕ)) (oldTotal total : ℕ) (tokens : ℕ → Uuid)
    (position : ℕ) (row : MergeRequestRow) : Option PendingNotification :=
  match positions.lookup row.iid with
  | none => none
  | some previous =>
      if row.status ≠ .queued ∨ row.pendingNotification ≠ none then none
      else if previous = position ∧ oldTotal = total then none
      else
        some
          { token := tokens position
            status := if previous ≠ position then .positionChanged else .totalChanged
            oldPosition := previous
            oldTotal := some oldTotal }

/-- Sets the feedback of the row `id`. -/
def setPendingNotification (table : KeyedTable MergeRequestRow) (id : ℕ)
    (pending : PendingNotification) : KeyedTable MergeRequestRow :=
  table.updateWhere (fun r ↦ r.id = id) fun r ↦ { r with pendingNotification := some pending }

/-- Stages the feedback that `feedback` computes for each position of `queue`. -/
def stageFeedback (feedback : ℕ → MergeRequestRow → Option PendingNotification)
    (queue : List (MergeRequestRow × ℕ)) (table : KeyedTable MergeRequestRow) :
    KeyedTable MergeRequestRow :=
  queue.foldl
    (fun table entry ↦
      match feedback entry.2 entry.1 with
      | some pending => setPendingNotification table entry.1.id pending
      | none => table)
    table

def stageCompletionPositions (projectId : ℕ) (positions : List (ℕ × ℕ)) (oldTotal : ℕ)
    (tokens : ℕ → Uuid) (db : Database) : Database :=
  let rows := selectActiveQueue db projectId
  { db with
    mergeRequests :=
      stageFeedback (completionFeedback positions oldTotal rows.length tokens) (rows.zipIdx 1)
        db.mergeRequests }

/-- The feedback staged for the waiting row at `position` after a change of priority. -/
def priorityFeedback (before : List (ℕ × ℕ)) (changedPriority : List ℕ) (tokens : ℕ → Uuid)
    (position : ℕ) (row : MergeRequestRow) : Option PendingNotification :=
  match before.lookup row.iid with
  | none => none
  | some previous =>
      if row.status ≠ .queued then none
      else if ¬ changedPriority.contains row.iid ∧ previous = position then none
      else
        some
          { token := tokens position
            status :=
              if changedPriority.contains row.iid then .priorityChanged
              else .positionChangedPriority
            oldPosition := previous }

/-- The positions of the waiting rows. -/
def waitingPositions (rows : List MergeRequestRow) : List (ℕ × ℕ) :=
  ((rows.zipIdx 1).filter fun entry ↦ entry.1.status = .queued).map fun entry ↦
    (entry.1.iid, entry.2)

/-- Marks the admission `key` as applied once the row carries its labels. -/
def acknowledgeActiveAdmission (projectId mrIid : ℕ) (key : Option String) (now : ℤ)
    (table : KeyedTable MergeRequestRow) : Except QueueError (KeyedTable MergeRequestRow) :=
  match key, table.byKey (projectId, mrIid) with
  | some key, some row =>
      match row.pendingCompletion, row.requeueRequest with
      | none, some saved =>
          match saved.liveAdmission, row.labels with
          | none, _ => .ok table
          | some admission, .unknown raw =>
              if admission.admissionKey = some key then .error (.valueError raw) else .ok table
          | some admission, labels =>
              let labels := (parseSavedLabels labels).getD []
              if admission.admissionKey = some key ∧ labels ⊆ admission.params.labels ∧
                  admission.params.labels ⊆ labels then
                let applied := { saved with appliedAt := some now }
                .ok (table.updateWhere
                  (fun r ↦ r.id = row.id && r.requeueRequest = some saved &&
                    r.pendingCompletion.isNone)
                  fun r ↦ { r with requeueRequest := some applied })
              else .ok table
      | _, _ => .ok table
  | _, _ => .ok table

def updateHotfixStatus (projectId mrIid : ℕ) (isHotfix : Bool) (labels : List String)
    (expectedRevision : Option (ℕ × ℕ)) (notifyPositions : Bool) (admissionKey : Option String)
    (isAutomated : Option Bool) (now : ℤ) (tokens : ℕ → Uuid) (db : Database) :
    Except QueueError (Bool × Database) := do
  let (isHotfix, automated) ← qm.classifyLabels projectId labels isHotfix
  let automated := if qm.projectPolicies.isNone then isAutomated.getD automated else automated
  let before := waitingPositions (selectActiveQueue db projectId)
  let hit := fun r : MergeRequestRow ↦
    r.iid = mrIid && r.projectId = projectId && r.status.active &&
      (expectedRevision.all fun (id, version) ↦ r.id = id && r.metadataVersion = version) &&
      (r.isHotfix ≠ isHotfix || r.isAutomated ≠ automated ||
        (if r.labels = .null then SavedLabels.json [] else r.labels) ≠ .json labels)
  let changed := db.mergeRequests.rows.any hit
  let table := db.mergeRequests.updateWhere hit fun r ↦
    { r with
      isHotfix
      isAutomated := automated
      labels := .json labels
      metadataVersion := r.metadataVersion + 1 }
  let table ← acknowledgeActiveAdmission projectId mrIid admissionKey now table
  let db := { db with mergeRequests := table }
  let rows := selectActiveQueue db projectId
  let table :=
    if changed && notifyPositions then
      stageFeedback (priorityFeedback before [mrIid] tokens) (rows.zipIdx 1) table
    else table
  return (changed, { db with mergeRequests := table })

/-! ## Startup activation -/

/-- Whether a label that is known to be saved is one of the automation labels. -/
def automatedBy (names : List String) (labels : SavedLabels) : Bool :=
  ((parseSavedLabels labels).getD []).any fun label ↦ names.contains label

/-- Whether the activation of a policy with the automation labels `names` reclassifies `row`. -/
def activates (names : List String) (row : MergeRequestRow) : Bool :=
  row.pendingCompletion.isNone && row.isAutomated != automatedBy names row.labels

structure ActivationUpdate where
  automated : Bool
  id : ℕ
  version : ℕ
  deriving DecidableEq, Repr

structure ActivationPlan where
  updates : List ActivationUpdate
  changedPriority : List ℕ
  unknown : ℕ
  skipped : ℕ
  deriving DecidableEq, Repr

/-- Classifies one saved snapshot before any write. -/
def activationPlan (names : List String) (rows : List MergeRequestRow) : ActivationPlan :=
  let changes := rows.filter (activates names)
  { updates := changes.map fun r ↦ ⟨automatedBy names r.labels, r.id, r.metadataVersion⟩
    changedPriority := (changes.filter fun r ↦ !r.isHotfix).map MergeRequestRow.iid
    unknown := rows.countP fun r ↦
      r.pendingCompletion.isNone && (parseSavedLabels r.labels).isNone
    skipped := rows.countP fun r ↦ r.pendingCompletion.isSome }

/-- The row is as the plan found it: a row that was reclassified meanwhile has
another version, and an owned one has a completion. -/
def ActivationUpdate.selects (projectId : ℕ) (update : ActivationUpdate) (row : MergeRequestRow) :
    Bool :=
  row.projectId = projectId && row.id = update.id && row.metadataVersion = update.version &&
    row.pendingCompletion.isNone

def ActivationUpdate.apply (update : ActivationUpdate) (row : MergeRequestRow) :
    MergeRequestRow :=
  { row with isAutomated := update.automated, metadataVersion := row.metadataVersion + 1 }

/-- One guarded update of a plan. -/
def executeUpdate (projectId : ℕ) (table : KeyedTable MergeRequestRow)
    (update : ActivationUpdate) : Except QueueError (KeyedTable MergeRequestRow) :=
  if table.rows.countP (update.selects projectId) = 1 then
    .ok (table.updateWhere (update.selects projectId) update.apply)
  else .error (.queueError "Priority activation conflicted with a runtime writer")

structure ActivationSummary where
  scanned : ℕ
  changed : ℕ
  skipped : ℕ
  unknownSnapshots : ℕ
  deriving DecidableEq, Repr

/-- The activation that planned on the database `planned` and writes to `db`, which
other writers may have changed meanwhile. -/
def activateFrom (projectId : ℕ) (tokens : ℕ → Uuid) (planned db : Database) :
    Except QueueError (ActivationSummary × Database) :=
  match qm.projectPolicies.bind fun policies ↦ policies projectId with
  | none => .error (.valueError s!"No priority policy configured for project {projectId}")
  | some policy => do
      let beforeRows := selectActiveQueue planned projectId
      let plan := activationPlan policy.automationLabels beforeRows
      let table ← plan.updates.foldlM (executeUpdate projectId) db.mergeRequests
      let afterRows := selectActiveQueue { db with mergeRequests := table } projectId
      return (
        { scanned := beforeRows.length
          changed := plan.updates.length
          skipped := plan.skipped
          unknownSnapshots := plan.unknown },
        { db with
          mergeRequests :=
            stageFeedback
              (priorityFeedback (waitingPositions beforeRows) plan.changedPriority tokens)
              (afterRows.zipIdx 1) table })

/-- Applies the startup policy to the active rows. -/
def activatePriorities (projectId : ℕ) (tokens : ℕ → Uuid) (db : Database) :
    Except QueueError (ActivationSummary × Database) :=
  qm.activateFrom projectId tokens db db

/-! ## Requeue requests of an owned row -/

/-- The rows whose requeue request may be written. -/
def mayWriteRequeue (projectId queueId : ℕ) (allowActive : Bool) (row : MergeRequestRow) : Bool :=
  row.projectId = projectId && row.id = queueId &&
    (row.pendingCompletion.isSome || (allowActive && row.status.active))

/-- Saves `pending` over the request that was read. -/
def replaceRequeue (projectId queueId : ℕ) (allowActive : Bool) (saved : Option Requeue)
    (pending : Requeue) (db : Database) : Except QueueError (Bool × Database) :=
  let hit := fun r : MergeRequestRow ↦
    mayWriteRequeue projectId queueId allowActive r && r.requeueRequest = saved
  if db.mergeRequests.rows.any hit then
    .ok (true,
      { db with
        mergeRequests :=
          db.mergeRequests.updateWhere hit fun r ↦ { r with requeueRequest := some pending } })
  else .error .reread

def writeRequeue (projectId queueId : ℕ) (incoming : Incoming) (allowActive : Bool)
    (token : Uuid) (db : Database) : Except QueueError (Bool × Database) :=
  match db.mergeRequests.rows.find? (mayWriteRequeue projectId queueId allowActive) with
  | none => .ok (false, db)
  | some row =>
      match writtenRequeue incoming row.requeueRequest token with
      | none => .ok (true, db)
      | some pending =>
          replaceRequeue projectId queueId allowActive row.requeueRequest pending db

/-- The parameters of the row that an enqueue of `item` would create. -/
def requeueParams (projectId : ℕ) (item : QueueItem) (request : EnqueueRequest) :
    RequeueParams where
  projectId := projectId
  iid := item.mrIid
  title := request.title.getD item.title
  authorName := item.authorName
  authorUsername := item.authorUsername
  authorAvatar := item.authorAvatar
  targetBranch := request.targetBranch.getD item.targetBranch
  labels := request.labels.getD item.labels
  isHotfix := request.isHotfix

def deferRequeue (projectId : ℕ) (item : QueueItem) (request : EnqueueRequest)
    (allowActive : Bool) (token : Uuid) (db : Database) : Except QueueError (Bool × Database) :=
  writeRequeue projectId item.queueId
    (.enqueue request (requeueParams projectId item request)) allowActive token db

def cancelRequeue (projectId queueId : ℕ) (eventAt precisionUs : ℤ)
    (messageId : Option String) (allowActive : Bool) (token : Uuid) (db : Database) :
    Except QueueError (Bool × Database) :=
  writeRequeue projectId queueId (.cancel eventAt precisionUs messageId) allowActive token db

def refreshRequeueLabels (projectId queueId : ℕ) (labels : List String) (eventAt : Option ℤ)
    (precisionUs : ℤ) (allowActive : Bool) (db : Database) : Except QueueError (Bool × Database) :=
  match db.mergeRequests.rows.find? (mayWriteRequeue projectId queueId allowActive) with
  | none => .ok (false, db)
  | some row =>
      match row.requeueRequest with
      | none => .ok (true, db)
      | some saved =>
          match refreshedRequeue saved labels { requestedAt := eventAt, precisionUs } with
          | none => .ok (true, db)
          | some pending =>
              replaceRequeue projectId queueId allowActive (some saved) pending db

/-! ## Completion -/

/-- Whole seconds between two instants, rounded towards zero. -/
def seconds (start finish : ℤ) : ℤ := (finish - start).tdiv 1000000

/-- The waiting and processing time of a completed merge request. -/
def computeTiming (mr : QueueItem) (now : ℤ) : ℤ × Option ℤ :=
  match mr.startedAt with
  | some startedAt => (seconds mr.queuedAt startedAt, some (seconds startedAt now))
  | none => (seconds mr.queuedAt now, none)

def historyParams (mr : QueueItem) (outcome : Outcome) (finished : ℤ) : HistoryParams where
  projectId := mr.projectId
  iid := mr.mrIid
  title := mr.title
  authorName := mr.authorName
  authorUsername := mr.authorUsername
  authorAvatar := mr.authorAvatar
  status := outcome.historyStatus
  isHotfix := mr.isHotfix
  labels := if mr.labels.isEmpty then none else some mr.labels
  targetBranch := mr.targetBranch
  queuedAt := mr.queuedAt
  startedAt := mr.startedAt
  finishedAt := finished
  waitTimeSeconds := (computeTiming mr finished).1
  processingTimeSeconds := (computeTiming mr finished).2
  failureReason := outcome.failureReason
  pipelineId := mr.pipelineId
  pipelineStatus := mr.pipelineStatus
  pipelineDurationSeconds := outcome.pipelineDurationSeconds
  pipelineFailedJobs := outcome.pipelineFailedJobs.filter fun jobs ↦ !jobs.isEmpty

/-- The admission that outlives a completion finished at `finished`, and the
receipts of the one that does not. -/
def completionAdmission (item : QueueItem) (finished : ℤ) : Option Requeue × List String :=
  match item.requeueRequest with
  | none => (none, [])
  | some admission =>
      let knownPrior := admission.appliedAt.any fun applied ↦ decide (applied ≤ finished)
      let sourcePrior := admission.clock.requestedAt.any fun source ↦
        definitelyBefore source admission.clock.precisionUs finished
      if !knownPrior && !sourcePrior then (some admission, [])
      else (none, admissionReceipts admission)

/-- The time a request says the lifecycle ended. -/
def finishedTime (context : Context) (now : ℤ) : ℤ :=
  (context.findSome? fun (key, value) ↦
    match value with
    | .time t =>
        if key = "merged_at" ∨ key = "failed_at" ∨ key = "removed_at" then some t else none
    | _ => none).getD now

/-- The record that freezes the outcome of `item`. -/
def completionPayload (item : QueueItem) (request : CompletionRequest) (now : ℤ) :
    CompletionPayload :=
  let finished := finishedTime request.context now
  let consumed := (completionAdmission item finished).2
  { queueId := item.queueId
    request
    history := historyParams item request.outcome finished
    finishedAt := finished
    labelEvents := consumed.map .admission
    consumedAdmissions := consumed }

/-- The row after its outcome `request` is frozen at the time `now`. -/
def preparedRow (request : CompletionRequest) (now : ℤ) (row : MergeRequestRow) :
    MergeRequestRow :=
  let finished := finishedTime request.context now
  { row with
    pendingCompletion := some (completionPayload (rowToQueueItem row) request now)
    status := request.state
    finishedAt := some finished
    pendingNotification := none
    requeueRequest := (completionAdmission (rowToQueueItem row) finished).1 }

/-- Freezes the outcome of a lifecycle and takes over the admission that was read. -/
def prepareCompletion (projectId mrIid : ℕ) (request : CompletionRequest) (now : ℤ)
    (db : Database) : Except QueueError (Option QueueItem × Database) :=
  match db.row projectId mrIid with
  | none => .ok (none, db)
  | some row =>
      if request.queueId.any fun id ↦ row.id ≠ id then .ok (none, db)
      else
        let item := rowToQueueItem row
        if item.pendingCompletion.isSome then .ok (some item, db)
        else
          let hit := fun r : MergeRequestRow ↦
            r.id = item.queueId && r.pendingCompletion.isNone &&
              r.requeueRequest = item.requeueRequest
          if db.mergeRequests.rows.any hit then
            .ok
              (some
                { item with
                  pendingCompletion := some (completionPayload item request now)
                  requeueRequest :=
                    (completionAdmission item (finishedTime request.context now)).1
                  state := request.state
                  finishedAt := some (finishedTime request.context now) },
                { db with
                  mergeRequests := db.mergeRequests.updateWhere hit (preparedRow request now) })
          else .error .reread

def saveCompletionProgress (projectId queueId : ℕ) (payload : CompletionPayload)
    (db : Database) : Database :=
  { db with
    mergeRequests :=
      db.mergeRequests.updateWhere
        (fun r ↦ r.projectId = projectId && r.id = queueId && r.pendingCompletion.isSome)
        fun r ↦ { r with pendingCompletion := some payload } }

/-- `INSERT INTO merge_requests_history … ON CONFLICT(project_id, iid) DO NOTHING`. -/
def insertHistory (db : Database) (values : HistoryParams) : Database :=
  { db with history := db.history.insertOrIgnore fun id ↦ { id, values } }

/-- The row that a live requeue request leaves behind, in the transaction that
deletes the row it was saved on. -/
def transferRequeue (projectId mrIid : ℕ) (payload : CompletionPayload) (requeue : Requeue)
    (now : ℤ) (token : Uuid) (db : Database) : Except QueueError Database :=
  match requeue.admission with
  | none => .error (.keyError "params")
  | some admission => do
      let params := admission.params
      let (hotfix, automated) ← qm.classifyLabels projectId params.labels params.isHotfix
      let db := insertMr db params hotfix automated now
      return { db with
        mergeRequests := db.mergeRequests.updateWhere
          (fun r ↦ r.projectId = projectId && r.iid = mrIid)
          fun r ↦
            { r with
              pendingNotification := some { token, status := .queued, oldPosition := 0 }
              ignoredLabelEvents :=
                payload.labelEvents ++ (admissionReceipts requeue).map .admission } }

def finalizeCompletion (projectId : ℕ) (item : QueueItem) (payload : CompletionPayload)
    (now : ℤ) (tokens : ℕ → Uuid) (db : Database) : Except QueueError (Bool × Database) :=
  let hit := fun r : MergeRequestRow ↦
    r.projectId = projectId && r.id = item.queueId && r.pendingCompletion = some payload &&
      r.requeueRequest = item.requeueRequest
  if db.mergeRequests.rows.any hit then do
    let db := { db with mergeRequests := db.mergeRequests.deleteWhere hit }
    let db := insertHistory db payload.history
    let db ←
      match item.requeueRequest with
      | some requeue =>
          if requeueIsCancelled requeue payload.labelEvents then pure db
          else qm.transferRequeue projectId item.mrIid payload requeue now (tokens 0) db
      | none => pure db
    return (true,
      stageCompletionPositions projectId payload.request.positions payload.request.oldTotal
        tokens db)
  else .ok (false, db)

/-- Archives the requested incarnation, never an owned completion. -/
def completeMr (projectId mrIid : ℕ) (outcome : Outcome) (expectedQueueId : Option ℕ)
    (now : ℤ) (db : Database) : Bool × Database :=
  let hit := fun r : MergeRequestRow ↦
    r.projectId = projectId && r.iid = mrIid && r.pendingCompletion.isNone &&
      expectedQueueId.all fun id ↦ r.id = id
  match db.mergeRequests.rows.find? hit with
  | none => (false, db)
  | some row =>
      let db := { db with mergeRequests := db.mergeRequests.deleteWhere hit }
      (true, insertHistory db (historyParams (rowToQueueItem row) outcome now))

/-- Drops finished rows that no completion owns and that are older than `cutoff`. -/
def cleanupOldEntries (projectId : ℕ) (cutoff : ℤ) (db : Database) : ℕ × Database :=
  let hit := fun r : MergeRequestRow ↦
    (r.finishedAt.any fun finished ↦ decide (finished < cutoff)) && r.projectId = projectId &&
      r.pendingCompletion.isNone
  (db.mergeRequests.rows.countP hit,
    { db with mergeRequests := db.mergeRequests.deleteWhere hit })

end QueueManager

/-! ## A queue with one waiting merge request -/

def sampleParams : RequeueParams where
  projectId := 1
  iid := 7
  title := "Fix the build"
  authorName := "Dev"
  authorUsername := "dev"
  authorAvatar := none
  targetBranch := "master"
  labels := ["merge_queue"]
  isHotfix := false

def sampleRow : MergeRequestRow := QueueManager.insertedRow sampleParams false false 0 1

def sampleDatabase : Database := QueueManager.insertMr .empty sampleParams false false 0

example : sampleDatabase.row 1 7 = some sampleRow := by decide

end MergeQueue
