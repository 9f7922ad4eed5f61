import MergeQueue.Notifier

/-!
# Finishing a lifecycle

The outcome of a lifecycle is frozen in its row.  The comment, the cleanup of the
labels and the archival follow, each recorded in the row before the next one, so
that a recovery goes on where an interrupted task stopped.
-/

namespace MergeQueue

open Interleave (Program)

namespace QueueCompletion

variable (settings : Settings)

def saveProgress (item : QueueItem) (payload : CompletionPayload) : Prog Unit :=
  Prog.db (.saveCompletionProgress settings.gitlabProjectId item.queueId payload)

def deliverComment (item : QueueItem) (payload : CompletionPayload) : Prog CompletionPayload :=
  if payload.commentSent then pure payload
  else do
    MRNotifier.notify settings item.mrIid (.outcome payload.request.notificationStatus)
      payload.request.context
    let payload := { payload with commentSent := true }
    saveProgress settings item payload
    return payload

def recordLabelEvent (item : QueueItem) (payload : CompletionPayload) (eventAt : Option ℤ) :
    Prog CompletionPayload := do
  let payload :=
    { payload with labelEvents := payload.labelEvents ++ (eventAt.map LabelEvent.at).toList }
  saveProgress settings item payload
  return payload

/-- The operation is one that was requested and whose answer was lost. -/
def unacknowledged (action : LabelAction) (triggers : List String) (operation : LabelOperation) :
    Bool :=
  !operation.acknowledged && operation.action = action && operation.requestedTriggers = triggers

/-- The operation to repeat, or a new one, recorded before it is requested. -/
def labelOperation (item : QueueItem) (payload : CompletionPayload) (action : LabelAction)
    (triggers : List String) : Prog (ℕ × LabelOperation × CompletionPayload) :=
  match payload.labelOperations.zipIdx.find? fun entry ↦ unacknowledged action triggers entry.1 with
  | some (operation, index) => pure (index, operation, payload)
  | none => do
      let (actor, botTriggers) ← MRNotifier.completionActor settings
      let uuid ← Prog.await .uuid
      let operation : LabelOperation :=
        { uuid
          action
          triggers := if action = .restore then triggers else botTriggers
          requestedTriggers := triggers
          actorId := actor.id
          acknowledged := false }
      let index := payload.labelOperations.length
      let payload := { payload with labelOperations := payload.labelOperations ++ [operation] }
      saveProgress settings item payload
      return (index, operation, payload)

def mutateLabels (item : QueueItem) (payload : CompletionPayload) (action : LabelAction)
    (triggers : List String) : Prog (Option ℤ × CompletionPayload) := do
  let (index, operation, payload) ← labelOperation settings item payload action triggers
  let eventAt ←
    match action with
    | .remove => MRNotifier.removeQueueLabel settings item.mrIid true (some operation.uuid)
    | .restore => MRNotifier.restoreQueueLabels item.mrIid triggers (some operation.uuid)
  return (eventAt,
    { payload with
      labelOperations :=
        payload.labelOperations.modify index fun op ↦ { op with acknowledged := true }
      labelEvents :=
        payload.labelEvents ++ [.uuid operation.uuid, .actor operation.actorId action] })

def cleanup (item : QueueItem) (payload : CompletionPayload) : Prog CompletionPayload :=
  if payload.request.removeLabels && !payload.labelsRemoved then do
    let (eventAt, payload) ← mutateLabels settings item payload .remove []
    recordLabelEvent settings item { payload with labelsRemoved := true } eventAt
  else pure payload

/-- Makes the labels agree with the request that was saved meanwhile. -/
def settleRequeue (item : QueueItem) (payload : CompletionPayload) (request : Option Requeue) :
    Prog CompletionPayload :=
  match request with
  | none => pure payload
  | some requeue =>
      if requeueIsCancelled requeue payload.labelEvents then do
        let (eventAt, payload) ← mutateLabels settings item payload .remove []
        recordLabelEvent settings item payload eventAt
      else
        match requeue.admission with
        | none => throw (.keyError "triggers")
        | some admission => do
            let (eventAt, payload) ←
              mutateLabels settings item payload .restore admission.triggers
            recordLabelEvent settings item payload eventAt

def afterCompletion (payload : CompletionPayload) : Prog Unit := do
  if settings.positionNotifier then
    QueuePositionNotifier.notifyAffectedMrsAfterCompletion settings payload.request.positions
      payload.request.oldTotal
  broadcast settings

/-- Archives the row that still carries the outcome. -/
def archive (item current : QueueItem) (payload : CompletionPayload) : Prog Unit := do
  let payload ← settleRequeue settings item payload current.requeueRequest
  let done ← Prog.db (.finalizeCompletion settings.gitlabProjectId current payload)
  if done then afterCompletion settings payload

def finish (item : QueueItem) : Prog Unit :=
  match item.pendingCompletion with
  | none => throw (.keyError "comment_sent")
  | some payload => do
      let payload ← deliverComment settings item payload
      let payload ← cleanup settings item payload
      match ← Prog.getQueueItem settings.gitlabProjectId item.mrIid with
      | none => pure ()
      | some current =>
          if current.queueId = item.queueId then archive settings item current payload
          else pure ()

def complete (mrIid : ℕ) (request : CompletionRequest) : Prog Unit :=
  Prog.withLock (.completion settings.gitlabProjectId mrIid) do
    let item : Option QueueItem ←
      Prog.withLock (.notification settings.gitlabProjectId mrIid)
        (Prog.db (.prepareCompletion settings.gitlabProjectId mrIid request))
    match item with
    | none => pure ()
    | some item => do
        Prog.takeView item.state
        finish settings item

def recover (mrIid queueId : ℕ) : Prog Unit :=
  Prog.withLock (.completion settings.gitlabProjectId mrIid) do
    match ← Prog.getQueueItem settings.gitlabProjectId mrIid with
    | none => pure ()
    | some item =>
        if item.queueId = queueId ∧ item.pendingCompletion.isSome then finish settings item
        else pure ()

/-- Recovers every pending completion; one that fails stays pending. -/
def recoverAll : Prog Bool := do
  let pending ← Prog.db (.getPendingCompletions settings.gitlabProjectId)
  Program.forEach
    (fun item : QueueItem ↦
      tryCatch (recover settings item.mrIid item.queueId)
        fun e ↦ if e.isException then pure () else throw e)
    pending
  return !pending.isEmpty

end QueueCompletion

end MergeQueue
