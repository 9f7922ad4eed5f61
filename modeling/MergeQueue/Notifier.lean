import MergeQueue.Tasks

/-!
# Comments on merge requests

The notifier keeps one comment on each merge request.  Feedback about a place in
the queue is sent only while it still describes the queue.
-/

namespace MergeQueue

open Interleave (Program)
open QueueManager (getActiveQueue)

namespace Context

/-- `dict.update`. -/
def update (context entries : Context) : Context :=
  (context.filter fun entry ↦ (entries.lookup entry.1).isNone) ++ entries

end Context

namespace QueueItem

/-- `priority`, as the comments word it. -/
def priorityText (item : QueueItem) : String :=
  if item.isHotfix then "Hotfix priority enabled"
  else if item.isAutomated then "Automated priority — after ordinary waiting MRs"
  else "Ordinary priority"

end QueueItem

namespace Comment

/-- What the template needs from the context of a comment. -/
def required : CommentStatus → List String
  | .waiting .queued => ["position", "total", "estimated_minutes", "queued_at"]
  | .waiting .priorityChanged => ["priority", "position", "total", "estimated_minutes"]
  | .waiting .positionChangedPriority | .waiting .positionChanged
  | .waiting .positionChangedHotfix => ["position", "total", "old_position", "estimated_minutes"]
  | .waiting .totalChanged | .waiting .totalChangedHotfix =>
      ["position", "total", "old_total", "estimated_minutes"]
  | .rebasing => ["started_at", "target_branch"]
  | .rebaseComplete => ["rebased_at"]
  | .testing => ["pipeline_id", "pipeline_url", "started_at"]
  | .jobRetry => ["pipeline_id", "pipeline_url", "max_retries"]
  | .rebaseDuringTesting => ["rebase_count", "max_attempts", "pipeline_id", "pipeline_url"]
  | .merging => ["pipeline_id", "pipeline_url", "target_branch"]
  | .staleWarning => ["queued_at", "duration", "warning_hours", "position"]
  | .outcome .merged => ["merged_at", "duration", "target_branch"]
  | .outcome .conflict => ["failed_at", "target_branch", "conflicted_files"]
  | .outcome .pipelineFailed => ["pipeline_id", "pipeline_url", "failed_at", "failed_jobs"]
  | .outcome .timeout => ["failed_at", "duration", "max_wait"]
  | .outcome .mergeFailed | .outcome .genericFailure => ["failed_at", "error_message"]
  | .outcome .removedLabel => ["removed_at", "position"]
  | .outcome .removedClosed => ["removed_at"]

/-- The comment, or the key that its template misses. -/
def render (status : CommentStatus) (context : Context) : Except PyError Comment :=
  match (required status).find? fun key ↦ (context.lookup key).isNone with
  | some key => .error (.keyError key)
  | none => .ok { status, context }

end Comment

namespace MRNotifier

variable (settings : Settings)

def sendNotification (mrIid : ℕ) (status : CommentStatus) (context : Context) : Prog Unit :=
  match Comment.render status context with
  | .error e => throw e
  | .ok body => Prog.gitlab (.addOrUpdatePinnedComment mrIid body)

/-- Clears the feedback that was sent. -/
def acknowledge (mrIid : ℕ) (pending : Option PendingNotification) : Prog Unit :=
  match pending with
  | some pending =>
      Prog.db (.clearPendingNotification settings.gitlabProjectId mrIid pending)
  | none => pure ()

/-- Sends waiting feedback only while it still describes the current queue. -/
def notifyIfQueued (mrIid : ℕ) (status : CommentStatus) (context : Context)
    (pending : Option PendingNotification) : Prog Unit :=
  Prog.withLock (.notification settings.gitlabProjectId mrIid) do
    match ← Prog.getQueueItem settings.gitlabProjectId mrIid with
    | none => pure ()
    | some item =>
        if pending.isSome && item.pendingNotification != pending then pure ()
        else if item.state ≠ .queued then acknowledge settings mrIid pending
        else do
          let queue ← Prog.db (.getActiveQueue settings.gitlabProjectId)
          match queue.findIdx? fun entry ↦ entry.mrIid = mrIid with
          | none => pure ()
          | some index => do
              let position := index + 1
              sendNotification mrIid status
                (context.update
                  [("position", .number position), ("total", .number queue.length),
                    ("estimated_minutes", .number (position * 15)),
                    ("priority", .text item.priorityText), ("queued_at", .time item.queuedAt)])
              acknowledge settings mrIid pending

/-- Updates or creates the comment on a merge request. -/
def notify (mrIid : ℕ) (status : CommentStatus) (context : Context) : Prog Unit :=
  match status with
  | .waiting _ => notifyIfQueued settings mrIid status context none
  | _ =>
      Prog.withLock (.notification settings.gitlabProjectId mrIid)
        (sendNotification mrIid status context)

def buildPipelineUrl (pipelineId : ℕ) : Prog String := do
  let projectUrl ← Prog.gitlab .getProjectWebUrl
  return s!"{projectUrl}/-/pipelines/{pipelineId}"

/-- The authenticated account, and the labels that put a merge request in the queue. -/
def completionActor : Prog (User × List String) := do
  let user ← Prog.gitlab .getUser
  return (user, [settings.queueLabel, settings.hotfixLabel])

/-- Removes the queue label, and with `strict` the hotfix label too. -/
def removeQueueLabel (mrIid : ℕ) (strict : Bool) (operationId : Option Uuid) :
    Prog (Option ℤ) :=
  let labels :=
    if strict then fromkeys [settings.queueLabel, settings.hotfixLabel] else [settings.queueLabel]
  let request : Prog MergeRequest :=
    if operationId.isNone then Prog.gitlab (.removeMrLabel mrIid labels)
    else Prog.gitlab (.putLabels mrIid .remove labels operationId)
  tryCatch (request >>= fun mr ↦ pure mr.updatedAt) fun e ↦
    if e.isKind .notFound then pure none
    else if strict || !e.isException then throw e
    else pure none

def restoreQueueLabels (mrIid : ℕ) (labels : List String) (operationId : Option Uuid) :
    Prog (Option ℤ) := do
  let mr : MergeRequest ← Prog.gitlab (.putLabels mrIid .restore labels operationId)
  return mr.updatedAt

end MRNotifier

namespace QueuePositionNotifier

variable (settings : Settings)

/-- The positions of the waiting items of a queue. -/
def waitingPositions (queue : List QueueItem) : List (ℕ × ℕ) :=
  ((queue.zipIdx 1).filter fun entry ↦ entry.1.state = .queued).map fun entry ↦
    (entry.1.mrIid, entry.2)

def captureQueuePositions : Prog (List (ℕ × ℕ)) := do
  let queue ← Prog.db (.getActiveQueue settings.gitlabProjectId)
  return waitingPositions queue

def getQueueLength : Prog ℕ := do
  let queue ← Prog.db (.getActiveQueue settings.gitlabProjectId)
  return queue.length

/-- The current positions, where a position notifier is present. -/
def capturePositionsIfEnabled : Prog (List (ℕ × ℕ) × ℕ) :=
  if settings.positionNotifier then do
    let positions ← captureQueuePositions settings
    let total ← getQueueLength settings
    return (positions, total)
  else pure ([], 0)

def notifyInitialPosition (mrIid : ℕ) : Prog Unit := do
  let queue ← Prog.db (.getActiveQueue settings.gitlabProjectId)
  match (queue.zipIdx 1).find? fun entry ↦ entry.1.mrIid = mrIid with
  | none => pure ()
  | some (item, position) =>
      MRNotifier.notifyIfQueued settings mrIid (.waiting .queued)
        [("position", .number position), ("total", .number queue.length),
          ("estimated_minutes", .number (position * 15)), ("queued_at", .time item.queuedAt)]
        none

/-- Sends the feedback that is still due for an item of the queue. -/
def retryItem (item : QueueItem) : Prog Unit :=
  match item.pendingNotification with
  | none => pure ()
  | some pending =>
      tryCatch
        (MRNotifier.notifyIfQueued settings item.mrIid (.waiting pending.status)
          [("old_position", .number pending.oldPosition),
            ("old_total", .number (pending.oldTotal.getD 0))]
          (some pending))
        fun e ↦ if e.isException then pure () else throw e

/-- Repairs durable feedback, about changed priorities first. -/
def retryPending : Prog Unit := do
  let queue ← Prog.db (.getActiveQueue settings.gitlabProjectId)
  let pending := queue.filter fun item ↦ item.pendingNotification.isSome
  let first := fun item : QueueItem ↦
    item.pendingNotification.any fun pending ↦ pending.status = .priorityChanged
  Program.forEach (retryItem settings) (pending.filter first ++ pending.filter fun i ↦ !first i)

def selectNotificationTemplate (positionChanged isHotfix : Bool) : NotificationStatus :=
  match positionChanged, isHotfix with
  | true, true => .positionChangedHotfix
  | true, false => .positionChanged
  | false, true => .totalChangedHotfix
  | false, false => .totalChanged

/-- Notifies one waiting item whose position or whose queue changed. -/
def notifyPositionChange (excludedMrIid : ℕ) (positionsBefore : List (ℕ × ℕ))
    (oldTotal total : ℕ) (isHotfix : Bool) (entry : QueueItem × ℕ) : Prog Unit :=
  let (item, newPosition) := entry
  if item.state ≠ .queued ∨ item.mrIid = excludedMrIid then pure ()
  else
    match positionsBefore.lookup item.mrIid with
    | none => pure ()
    | some oldPosition =>
        if newPosition = oldPosition ∧ total = oldTotal then pure ()
        else
          MRNotifier.notifyIfQueued settings item.mrIid
            (.waiting (selectNotificationTemplate (newPosition ≠ oldPosition) isHotfix))
            [("position", .number newPosition), ("total", .number total),
              ("old_position", .number oldPosition), ("old_total", .number oldTotal),
              ("estimated_minutes", .number (newPosition * 15)),
              ("position_change_reason",
                .text "An MR was added ahead. Priority applies to the waiting queue.")]
            none

def notifyAffectedMrsAfterMrAdded (addedMrIid : ℕ) (positionsBefore : List (ℕ × ℕ))
    (oldTotal : ℕ) (isHotfix : Bool) : Prog Unit := do
  let queue ← Prog.db (.getActiveQueue settings.gitlabProjectId)
  Program.forEach
    (notifyPositionChange settings addedMrIid positionsBefore oldTotal queue.length isHotfix)
    (queue.zipIdx 1)

def notifyAffectedMrsAfterCompletion (positionsBefore : List (ℕ × ℕ)) (oldTotal : ℕ) :
    Prog Unit := do
  Prog.db (.stageCompletionPositions settings.gitlabProjectId positionsBefore oldTotal)
  retryPending settings

end QueuePositionNotifier

/-- Sends an update to the connected clients, where there is a manager for them. -/
def broadcast (settings : Settings) : Prog Unit :=
  if settings.websocketManager then Prog.await .broadcast else pure ()

/-! ## What comments ask for -/

open Interleave.Program (Leaves)

namespace MRNotifier

variable {settings : Settings}

theorem sendNotification_leaves {permits : Op → Prop} {mrIid : ℕ} {status : CommentStatus}
    {context : Context}
    (h : permits (.gitlab (.addOrUpdatePinnedComment mrIid { status, context }))) :
    Leaves permits (sendNotification mrIid status context) := by
  unfold sendNotification Comment.render
  cases (Comment.required status).find? fun key ↦ (context.lookup key).isNone with
  | some key => exact Leaves.throw _
  | none => exact Prog.leaves_await h

theorem delivers_acknowledge (mrIid : ℕ) (pending : Option PendingNotification) :
    (acknowledge settings mrIid pending).Delivers := by
  cases pending with
  | none => exact Leaves.ret _
  | some pending => exact Prog.delivers_db rfl

theorem delivers_notifyIfQueued (mrIid : ℕ) (status : NotificationStatus) (context : Context)
    (pending : Option PendingNotification) :
    (notifyIfQueued settings mrIid (.waiting status) context pending).Delivers := by
  refine Prog.leaves_withLock rfl rfl ((Prog.delivers_getQueueItem _ _).bind fun item ↦ ?_)
  cases item with
  | none => exact Leaves.ret _
  | some item =>
      simp only
      split_ifs
      · exact Leaves.ret _
      · exact delivers_acknowledge mrIid pending
      · refine (Prog.delivers_db rfl).bind fun queue ↦ ?_
        split
        · exact Leaves.ret _
        · exact (sendNotification_leaves (by rfl)).bind fun _ ↦ delivers_acknowledge mrIid pending

theorem tends_notifyIfQueued (mrIid : ℕ) (status : NotificationStatus) (context : Context)
    (pending : Option PendingNotification) :
    (notifyIfQueued settings mrIid (.waiting status) context pending).Tends :=
  (delivers_notifyIfQueued mrIid status context pending).tends

/-- A comment that tells no outcome is no part of a completion. -/
theorem tends_notify {mrIid : ℕ} {status : CommentStatus} {context : Context}
    (h : ∀ template, status ≠ .outcome template) :
    (notify settings mrIid status context).Tends := by
  cases status with
  | waiting status => exact tends_notifyIfQueued mrIid status context none
  | outcome template => exact absurd rfl (h template)
  | _ => exact Prog.leaves_withLock rfl rfl (sendNotification_leaves (by rfl))

/-- The comment with the outcome is the only operation of its kind. -/
theorem notify_outcome_leaves (mrIid : ℕ) (template : Template) (context : Context) :
    Leaves
      (fun op ↦ op.tends = true ∨ op =
        .gitlab (.addOrUpdatePinnedComment mrIid { status := .outcome template, context }))
      (notify settings mrIid (.outcome template) context) :=
  Prog.leaves_withLock (Or.inl rfl) (Or.inl rfl) (sendNotification_leaves (Or.inr rfl))

theorem tends_buildPipelineUrl (pipelineId : ℕ) : (buildPipelineUrl pipelineId).Tends :=
  (Prog.tends_await rfl).bind fun _ ↦ Leaves.ret _

theorem tends_completionActor : (completionActor settings).Tends :=
  (Prog.tends_await rfl).bind fun _ ↦ Leaves.ret _

theorem tends_removeQueueLabel (mrIid : ℕ) (strict : Bool) (operationId : Option Uuid) :
    (removeQueueLabel settings mrIid strict operationId).Tends := by
  refine Leaves.handle ?_ fun e ↦ ?_
  · refine Leaves.bind ?_ fun mr ↦ Leaves.ret _
    by_cases h : operationId.isNone = true
    · rw [if_pos h]
      exact Prog.tends_await rfl
    · rw [if_neg h]
      exact Prog.tends_await rfl
  · split_ifs
    · exact Leaves.ret _
    · exact Leaves.throw _
    · exact Leaves.ret _

theorem tends_restoreQueueLabels (mrIid : ℕ) (labels : List String) (operationId : Option Uuid) :
    (restoreQueueLabels mrIid labels operationId).Tends :=
  (Prog.tends_await rfl).bind fun _ ↦ Leaves.ret _

end MRNotifier

namespace QueuePositionNotifier

variable {settings : Settings}

theorem tends_captureQueuePositions : (captureQueuePositions settings).Tends :=
  (Prog.tends_db rfl).bind fun _ ↦ Leaves.ret _

theorem tends_getQueueLength : (getQueueLength settings).Tends :=
  (Prog.tends_db rfl).bind fun _ ↦ Leaves.ret _

theorem tends_capturePositionsIfEnabled : (capturePositionsIfEnabled settings).Tends := by
  unfold capturePositionsIfEnabled
  split_ifs
  · exact tends_captureQueuePositions.bind fun _ ↦ tends_getQueueLength.bind fun _ ↦ Leaves.ret _
  · exact Leaves.ret _

theorem tends_notifyInitialPosition (mrIid : ℕ) : (notifyInitialPosition settings mrIid).Tends := by
  refine (Prog.tends_db rfl).bind fun queue ↦ ?_
  split
  · exact Leaves.ret _
  · exact MRNotifier.tends_notifyIfQueued _ _ _ _

theorem delivers_retryItem (item : QueueItem) : (retryItem settings item).Delivers := by
  unfold retryItem
  cases item.pendingNotification with
  | none => exact Leaves.ret _
  | some pending =>
      refine (MRNotifier.delivers_notifyIfQueued _ _ _ _).handle fun e ↦ ?_
      split_ifs
      · exact Leaves.ret _
      · exact Leaves.throw _

theorem delivers_retryPending : (retryPending settings).Delivers :=
  (Prog.delivers_db rfl).bind fun _ ↦ Leaves.forEach fun item _ ↦ delivers_retryItem item

theorem tends_retryPending : (retryPending settings).Tends := delivers_retryPending.tends

theorem tends_notifyPositionChange (excludedMrIid : ℕ) (positionsBefore : List (ℕ × ℕ))
    (oldTotal total : ℕ) (isHotfix : Bool) (entry : QueueItem × ℕ) :
    (notifyPositionChange settings excludedMrIid positionsBefore oldTotal total isHotfix
      entry).Tends := by
  unfold notifyPositionChange
  simp only
  split_ifs
  · exact Leaves.ret _
  · split
    · exact Leaves.ret _
    · split_ifs
      · exact Leaves.ret _
      · exact MRNotifier.tends_notifyIfQueued _ _ _ _

theorem tends_notifyAffectedMrsAfterMrAdded (addedMrIid : ℕ) (positionsBefore : List (ℕ × ℕ))
    (oldTotal : ℕ) (isHotfix : Bool) :
    (notifyAffectedMrsAfterMrAdded settings addedMrIid positionsBefore oldTotal isHotfix).Tends :=
  (Prog.tends_db rfl).bind fun _ ↦ Leaves.forEach fun _ _ ↦ tends_notifyPositionChange _ _ _ _ _ _

theorem tends_notifyAffectedMrsAfterCompletion (positionsBefore : List (ℕ × ℕ)) (oldTotal : ℕ) :
    (notifyAffectedMrsAfterCompletion settings positionsBefore oldTotal).Tends :=
  (Prog.tends_db rfl).bind fun _ ↦ tends_retryPending

end QueuePositionNotifier

theorem tends_broadcast (settings : Settings) : (broadcast settings).Tends := by
  unfold broadcast
  split_ifs
  · exact Prog.tends_await rfl
  · exact Leaves.ret _

end MergeQueue
