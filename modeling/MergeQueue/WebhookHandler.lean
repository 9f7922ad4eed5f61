import MergeQueue.StateMachine
import MergeQueue.QueueMetadata

/-!
# Webhooks about merge requests

A webhook reports labels, a merge or a closure.  While a completion owns the row of
the merge request, the labels are folded into its requeue request; otherwise the
handler of the action adds the merge request to the queue, ends its lifecycle or
refreshes its labels.
-/

namespace MergeQueue

open Interleave (Program)
open QueueManager

/-! ## Events -/

inductive EventAction
  | labeled
  | unlabeled
  | merge
  | close
  | update
  | other (name : String)
  deriving DecidableEq, Repr

def EventAction.text : EventAction → String
  | labeled => "labeled"
  | unlabeled => "unlabeled"
  | merge => "merge"
  | close => "close"
  | update => "update"
  | other name => name

structure LabelChanges where
  previous : List String := []
  current : List String := []
  deriving DecidableEq, Repr

namespace LabelChanges

def added (delta : LabelChanges) : List String :=
  delta.current.filter fun label ↦ !delta.previous.contains label

def removed (delta : LabelChanges) : List String :=
  delta.previous.filter fun label ↦ !delta.current.contains label

end LabelChanges

/-- A webhook about the merge request `iid` of the project whose components handle it. -/
structure MergeRequestEvent where
  iid : ℕ
  title : String
  state : MrState
  action : EventAction
  targetBranch : String
  userId : ℕ
  labels : List String := []
  labelChanges : Option LabelChanges := none
  updatedAt : Option ℤ := none
  updatedAtPrecisionUs : ℤ := 1
  messageId : Option String := none
  eventUuid : Option Uuid := none
  deriving DecidableEq, Repr

namespace MergeRequestEvent

def clock (event : MergeRequestEvent) : SourceClock where
  requestedAt := event.updatedAt
  precisionUs := event.updatedAtPrecisionUs

/-- The event happened before the instant, whatever its source interval stands for. -/
def before (event : MergeRequestEvent) (boundary : ℤ) : Bool :=
  event.updatedAt.any fun eventAt ↦ definitelyBefore eventAt event.updatedAtPrecisionUs boundary

def addedLabels (event : MergeRequestEvent) : List String :=
  (event.labelChanges.map LabelChanges.added).getD []

def removedLabels (event : MergeRequestEvent) : List String :=
  (event.labelChanges.map LabelChanges.removed).getD []

end MergeRequestEvent

/-! ## The handler -/

namespace MRWebhookHandler

def jsonList (labels : List String) : String :=
  "[" ++ ", ".intercalate (labels.map String.quote) ++ "]"

/-- The transport identity of the event, or the facts that identify it. -/
def admissionKey (event : MergeRequestEvent) : String :=
  match event.messageId with
  | some messageId => messageId
  | none =>
      let updatedAt := (event.updatedAt.map toString).getD "null"
      let previous := (event.labelChanges.map LabelChanges.previous).getD []
      "[" ++ ", ".intercalate
        [toString event.userId, event.action.text.quote, updatedAt,
          toString event.updatedAtPrecisionUs, jsonList (previous.insertionSort (· ≤ ·)),
          jsonList (event.labels.insertionSort (· ≤ ·))] ++ "]"

variable (settings : Settings)

def hasQueueTrigger (labels : List String) : Bool :=
  labels.contains settings.queueLabel || labels.contains settings.hotfixLabel

def wasQueueLabelAdded (event : MergeRequestEvent) : Bool :=
  event.addedLabels.contains settings.queueLabel

def wasHotfixLabelAdded (event : MergeRequestEvent) : Bool :=
  event.addedLabels.contains settings.hotfixLabel

def wasQueueLabelRemoved (event : MergeRequestEvent) : Bool :=
  event.removedLabels.contains settings.queueLabel

def wasHotfixLabelRemoved (event : MergeRequestEvent) : Bool :=
  event.removedLabels.contains settings.hotfixLabel

/-! ### Events during a completion -/

def enqueueRequest (event : MergeRequestEvent) (item : QueueItem) : EnqueueRequest :=
  let triggers := event.labels.filter fun label ↦
    label = settings.queueLabel || label = settings.hotfixLabel
  { clock := event.clock
    triggers
    isHotfix := triggers.contains settings.hotfixLabel
    queueId := some item.queueId
    labels := some event.labels
    messageId := event.messageId
    actorId := some event.userId
    admissionKey := some (admissionKey event)
    title := some event.title
    targetBranch := some event.targetBranch }

def deferCompletionRequeue (event : MergeRequestEvent) (item : QueueItem) (allowActive : Bool) :
    Prog Bool :=
  Prog.db (.deferRequeue settings.gitlabProjectId item (enqueueRequest settings event item)
    allowActive)

def changeCompletionRequeue (event : MergeRequestEvent) (item : QueueItem) (allowActive : Bool) :
    Prog Bool :=
  let added := wasQueueLabelAdded settings event || wasHotfixLabelAdded settings event
  let removed := wasQueueLabelRemoved settings event || wasHotfixLabelRemoved settings event
  if added && event.state = .opened then deferCompletionRequeue settings event item allowActive
  else if !removed && event.state = .opened then
    if event.labelChanges.isSome then
      Prog.db (.refreshRequeueLabels settings.gitlabProjectId item.queueId event.labels
        event.updatedAt event.updatedAtPrecisionUs allowActive)
    else pure true
  else
    match event.updatedAt with
    | none => pure true
    | some eventAt =>
        if hasQueueTrigger settings event.labels && event.state = .opened then
          deferCompletionRequeue settings event item allowActive
        else
          Prog.db (.cancelRequeue settings.gitlabProjectId item.queueId eventAt
            event.updatedAtPrecisionUs event.messageId allowActive)

/-- The event shows a change of labels that the completion made itself. -/
def ownCompletionEvent (event : MergeRequestEvent) (payload : CompletionPayload) : Bool :=
  payload.labelOperations.any fun operation ↦
    event.labelChanges.any fun delta ↦
      let changed := if operation.action = .remove then delta.removed else delta.added
      event.state = .opened && !changed.isEmpty &&
        changed.all operation.triggers.contains &&
        (event.eventUuid = some operation.uuid || event.userId = operation.actorId)

/-- The row remembers the event, or the bot's own change that it shows. -/
def ignoredCompletionEvent (event : MergeRequestEvent) (item : QueueItem) : Bool :=
  let ignored := item.ignoredLabelEvents.contains
  ignored (.admission (admissionKey event)) ||
    event.labelChanges.any fun delta ↦
      delta.previous ≠ delta.current && event.state = .opened &&
        (event.updatedAt.any (fun eventAt ↦ ignored (.at eventAt)) ||
          event.eventUuid.any (fun uuid ↦ ignored (.uuid uuid)) ||
          (hasQueueTrigger settings delta.removed && ignored (.actor event.userId .remove)) ||
          (hasQueueTrigger settings delta.added && ignored (.actor event.userId .restore)))

/-- Keeps a trigger that arrives while the row is active, for the case that its
lifecycle ends. -/
def admitActiveTrigger (event : MergeRequestEvent) (item : QueueItem) : Prog Unit :=
  let added := wasQueueLabelAdded settings event || wasHotfixLabelAdded settings event
  if !added && item.requeueRequest.isNone then pure ()
  else if item.state.active then do
    let saved ← changeCompletionRequeue settings event item true
    if saved then pure ()
    else throw (.runtimeError "Queue ownership changed during trigger admission")
  else pure ()

/-- Folds the event into the requeue request of the owned row. -/
def admitToCompletion (event : MergeRequestEvent) (item : QueueItem)
    (payload : CompletionPayload) : Prog (Bool ⊕ QueueItem) :=
  if payload.consumedAdmissions.contains (admissionKey event) then pure (.inl true)
  else if ownCompletionEvent event payload then pure (.inl true)
  else if event.before payload.finishedAt then pure (.inr item)
  else do
    let saved ← changeCompletionRequeue settings event item false
    if saved then pure (.inr item)
    else throw (.runtimeError "Completion ownership changed during admission")

/-- Whether the event is dealt with, or the completion to recover. -/
def admitEvent (event : MergeRequestEvent) : Prog (Bool ⊕ QueueItem) :=
  Prog.withLock (.admission settings.gitlabProjectId event.iid) do
    match ← Prog.getQueueItem settings.gitlabProjectId event.iid with
    | none => pure (.inl false)
    | some item =>
        if ignoredCompletionEvent settings event item then pure (.inl true)
        else
          match item.pendingCompletion with
          | none => do
              admitActiveTrigger settings event item
              return .inl false
          | some payload => admitToCompletion settings event item payload

/-- A failure to tell the connected clients is only logged. -/
def broadcastQueueUpdate : Prog Unit :=
  tryCatch (broadcast settings) fun e ↦ if e.isException then pure () else throw e

def resumeCompletion (event : MergeRequestEvent) : Prog Bool := do
  match ← admitEvent settings event with
  | .inl handled => pure handled
  | .inr item => do
      QueueCompletion.recover settings event.iid item.queueId
      broadcastQueueUpdate settings
      return true

/-- The lifecycle that the merge request had last ended after the event. -/
def staleEnqueue (event : MergeRequestEvent) : Prog Bool :=
  match event.updatedAt with
  | none => pure false
  | some _ => do
      let state : Option MrStateReport ←
        Prog.db (.getMrState settings.gitlabProjectId event.iid)
      return (state.bind MrStateReport.finishedAt).any event.before

/-! ### Adding to the queue -/

def notifyPositionAfterAdd (mrIid : ℕ) (isHotfix : Bool) (positionsBefore : List (ℕ × ℕ))
    (oldTotal : ℕ) : Prog Unit :=
  if settings.positionNotifier then
    tryCatch
      (do
        QueuePositionNotifier.notifyInitialPosition settings mrIid
        if positionsBefore.isEmpty then pure ()
        else
          QueuePositionNotifier.notifyAffectedMrsAfterMrAdded settings mrIid positionsBefore
            oldTotal isHotfix)
      fun e ↦ if e.isException then pure () else throw e
  else pure ()

def refreshQueueItemMetadata (event : MergeRequestEvent) : Prog Unit := do
  let updated ← QueueMetadataUpdater.refresh settings event.iid event.labels none true
    (some (admissionKey event))
  if updated then broadcastQueueUpdate settings
  else pure ()

/-- Adds the merge request as GitLab reports it now. -/
def addFetched (event : MergeRequestEvent) (announce : Prog Unit) : Prog Unit := do
  let stale ← staleEnqueue settings event
  if stale then pure ()
  else do
    let (positionsBefore, oldTotal) ←
      QueuePositionNotifier.capturePositionsIfEnabled settings
    let mr : MergeRequest ← Prog.gitlab (.getMr event.iid false)
    if mr.state ≠ .opened ∨ hasQueueTrigger settings mr.labels = false then pure ()
    else do
      let isHotfix := mr.labels.contains settings.hotfixLabel
      let _ ← Prog.db (.addToQueue settings.gitlabProjectId mr isHotfix)
      announce
      notifyPositionAfterAdd settings event.iid isHotfix positionsBefore oldTotal

/-- Refreshes the row where an automation label was added. -/
def refreshAutomated (event : MergeRequestEvent) : Prog Unit :=
  match settings.qm.classifyLabels settings.gitlabProjectId event.addedLabels false with
  | .error e => throw (.queue e)
  | .ok (_, false) => pure ()
  | .ok (_, true) => do
      let item ← Prog.getQueueItem settings.gitlabProjectId event.iid
      if item.any fun item ↦ item.state.active then refreshQueueItemMetadata settings event
      else pure ()

def handleLabeled (event : MergeRequestEvent) : Prog Unit :=
  if !wasQueueLabelAdded settings event && !wasHotfixLabelAdded settings event then
    refreshAutomated settings event
  else do
    let existing ← Prog.getQueueItem settings.gitlabProjectId event.iid
    if existing.any fun item ↦ item.state.active then refreshQueueItemMetadata settings event
    else addFetched settings event (pure ())

/-! ### Ending a lifecycle -/

/-- Removes the queue label from a merge request that somebody else ended. -/
def removeQueueLabel (mrIid : ℕ) : Prog Unit :=
  tryCatch
    (do
      let _ ← Prog.gitlab (.removeMrLabel mrIid [settings.queueLabel])
      return ())
    fun e ↦ if e.isException then pure () else throw e

/-- Archives the row that was read, where its state machine has already ended. -/
def completeDirectly (item : QueueItem) (mrIid : ℕ) (outcome : Outcome) : Prog Unit := do
  let completed ← Prog.db (.completeMr settings.gitlabProjectId mrIid outcome (some item.queueId))
  if completed then removeQueueLabel settings mrIid
  else pure ()

/-- Ends the lifecycle through a state machine of its own. -/
def markRemoved (event : MergeRequestEvent) (item : QueueItem) (reason : RemovalReason) :
    Prog Unit := do
  MRStateMachine.create settings event.iid event.targetBranch
  tryCatch (MRStateMachine.triggerMarkRemoved settings reason) fun e ↦
    if e = .transitionNotAllowed then
      completeDirectly settings item event.iid
        { historyStatus := .removed, failureReason := some reason.text }
    else throw e

/-- No trigger is left after the removal of one. -/
def shouldRemove (event : MergeRequestEvent) : Bool :=
  (wasQueueLabelRemoved settings event && !event.labels.contains settings.hotfixLabel) ||
    (wasHotfixLabelRemoved settings event && !event.labels.contains settings.queueLabel)

def handleUnlabeled (event : MergeRequestEvent) : Prog Unit := do
  let item ← Prog.getQueueItem settings.gitlabProjectId event.iid
  if shouldRemove settings event then
    match item with
    | none => pure ()
    | some item => do
        markRemoved settings event item .labelRemoved
        broadcastQueueUpdate settings
  else refreshQueueItemMetadata settings event

/-- Records the merge of a merge request that the queue did not merge. -/
def completeMerged (event : MergeRequestEvent) (item : QueueItem) : Prog Unit := do
  let (positions, oldTotal) ← QueuePositionNotifier.capturePositionsIfEnabled settings
  let mergedAt ← Prog.now
  let finish ← Prog.now
  QueueCompletion.complete settings event.iid
    ((CompletionRequest.merged mergedAt (calculateDuration item.queuedAt finish)
      event.targetBranch).of positions oldTotal (some item.queueId))
  broadcastQueueUpdate settings

def finishMerging (event : MergeRequestEvent) (item : QueueItem) : Prog Unit :=
  Program.ensuring
    (tryCatch (MRStateMachine.triggerMergeSuccess settings) fun e ↦
      if e = .transitionNotAllowed then
        completeDirectly settings item event.iid { historyStatus := .merged }
      else throw e)
    (broadcastQueueUpdate settings)

def handleMerge (event : MergeRequestEvent) : Prog Unit := do
  match ← Prog.getQueueItem settings.gitlabProjectId event.iid with
  | none => pure ()
  | some item => do
      MRStateMachine.create settings event.iid event.targetBranch
      let m ← Prog.machine
      match m.current with
      | .merging => finishMerging settings event item
      | .queued | .rebasing | .testing => completeMerged settings event item
      | .merged | .failed | .removed => pure ()

def handleClose (event : MergeRequestEvent) : Prog Unit := do
  match ← Prog.getQueueItem settings.gitlabProjectId event.iid with
  | none => pure ()
  | some item => do
      markRemoved settings event item .closed
      broadcastQueueUpdate settings

/-- Adds a merge request with a trigger that is not queued, and refreshes one that is. -/
def reconcile (event : MergeRequestEvent) : Prog Unit := do
  let item ← Prog.getQueueItem settings.gitlabProjectId event.iid
  if item.any fun item ↦ item.state.active then
    if event.labelChanges.isSome then refreshQueueItemMetadata settings event
    else pure ()
  else if hasQueueTrigger settings event.labels then
    addFetched settings event (broadcastQueueUpdate settings)
  else pure ()

def handleUpdate (event : MergeRequestEvent) : Prog Unit :=
  if hasQueueTrigger settings event.labels = false ∧
      (wasQueueLabelRemoved settings event || wasHotfixLabelRemoved settings event) = true then
    handleUnlabeled settings event
  else reconcile settings event

/-! ### Dispatch -/

def dispatch (event : MergeRequestEvent) : Prog Unit :=
  match event.action with
  | .labeled => handleLabeled settings event
  | .unlabeled => handleUnlabeled settings event
  | .merge => handleMerge settings event
  | .close => handleClose settings event
  | .update => handleUpdate settings event
  | .other _ => pure ()

def handle (event : MergeRequestEvent) : Prog Unit :=
  match event.action with
  | .other _ => pure ()
  | _ => do
      let handled ← resumeCompletion settings event
      if handled then pure ()
      else dispatch settings event

end MRWebhookHandler

end MergeQueue
