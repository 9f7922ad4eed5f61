import MergeQueue.QueueCompletion

/-!
# The state machine of a merge request

A task drives the lifecycle of a merge request through a state machine of its own.
A transition moves the machine first; the writes, the comment and the completion
of the state that it entered follow, and may fail.
-/

namespace MergeQueue

open Interleave (Program)

/-! ## What the call sites of the notifier pass -/

/-- The time from `queuedAt` to `now`, in words. -/
def calculateDuration (queuedAt now : ℤ) : String :=
  let total := (max 0 (QueueManager.seconds queuedAt now)).toNat
  if total < 60 then s!"{total}s"
  else if total < 3600 then s!"{total / 60}m {total % 60}s"
  else s!"{total / 3600}h {total % 3600 / 60}m"

def durationOf (item : Option QueueItem) (now : ℤ) : String :=
  match item with
  | some item => calculateDuration item.queuedAt now
  | none => "unknown"

/-- The identifier of a state. -/
def Status.text : Status → String
  | queued => "queued"
  | rebasing => "rebasing"
  | testing => "testing"
  | merging => "merging"
  | merged => "merged"
  | failed => "failed"
  | removed => "removed"

namespace ContextValue

def ofNumber : Option ℕ → ContextValue
  | some value => number value
  | none => null

def ofText : Option String → ContextValue
  | some value => text value
  | none => null

end ContextValue

/-- A comment that a call site of `notify` asks for. -/
inductive Notice
  | queued (position total : ℕ) (queuedAt : ℤ)
  | positionChanged (position total oldPosition : ℕ)
  | rebasing (startedAt : ℤ) (targetBranch : String)
  | rebaseComplete (rebasedAt : ℤ)
  | testing (pipelineId : Option ℕ) (pipelineUrl : Option String) (startedAt : ℤ)
  | jobRetry (pipelineId : ℕ) (pipelineUrl : String) (retriedJobs : List String)
      (retriedCounts : List (String × ℕ)) (maxRetries : ℕ)
  | rebaseDuringTesting (oldPipelineId : Option ℕ) (pipelineId : ℕ) (pipelineUrl : String)
      (rebaseCount maxAttempts : ℕ)
  | merging (pipelineId : Option ℕ) (pipelineUrl : Option String) (targetBranch : String)
  | staleWarning (queuedAt : ℤ) (duration : String) (warningHours position : ℕ)
  | outcome (request : CompletionRequest)
  | permanentFailure (errorMessage : String)
  deriving DecidableEq, Repr

namespace Notice

def status : Notice → CommentStatus
  | queued .. => .waiting .queued
  | positionChanged .. => .waiting .positionChanged
  | rebasing .. => .rebasing
  | rebaseComplete _ => .rebaseComplete
  | testing .. => .testing
  | jobRetry .. => .jobRetry
  | rebaseDuringTesting .. => .rebaseDuringTesting
  | merging .. => .merging
  | staleWarning .. => .staleWarning
  | outcome request => .outcome request.notificationStatus
  | permanentFailure _ => .outcome .genericFailure

def context : Notice → Context
  | queued position total queuedAt =>
      [("position", .number position), ("total", .number total),
        ("estimated_minutes", .number (position * 15)), ("queued_at", .time queuedAt)]
  | positionChanged position total oldPosition =>
      [("position", .number position), ("total", .number total),
        ("old_position", .number oldPosition), ("estimated_minutes", .number (position * 15))]
  | rebasing startedAt targetBranch =>
      [("started_at", .time startedAt), ("target_branch", .text targetBranch)]
  | rebaseComplete rebasedAt => [("rebased_at", .time rebasedAt)]
  | testing pipelineId pipelineUrl startedAt =>
      [("pipeline_id", .ofNumber pipelineId), ("pipeline_url", .ofText pipelineUrl),
        ("started_at", .time startedAt)]
  | jobRetry pipelineId pipelineUrl retriedJobs retriedCounts maxRetries =>
      [("pipeline_id", .number pipelineId), ("pipeline_url", .text pipelineUrl),
        ("retried_jobs", .list retriedJobs), ("retried_counts", .counts retriedCounts),
        ("max_retries", .number maxRetries)]
  | rebaseDuringTesting oldPipelineId pipelineId pipelineUrl rebaseCount maxAttempts =>
      [("old_pipeline_id", .ofNumber oldPipelineId), ("pipeline_id", .number pipelineId),
        ("pipeline_url", .text pipelineUrl), ("rebase_count", .number rebaseCount),
        ("max_attempts", .number maxAttempts)]
  | merging pipelineId pipelineUrl targetBranch =>
      [("pipeline_id", .ofNumber pipelineId), ("pipeline_url", .ofText pipelineUrl),
        ("target_branch", .text targetBranch)]
  | staleWarning queuedAt duration warningHours position =>
      [("queued_at", .time queuedAt), ("duration", .text duration),
        ("warning_hours", .number warningHours), ("position", .number position)]
  | outcome request => request.context
  | permanentFailure errorMessage => [("error_message", .text errorMessage)]

end Notice

namespace MRNotifier

def announce (settings : Settings) (mrIid : ℕ) (notice : Notice) : Prog Unit :=
  notify settings mrIid notice.status notice.context

end MRNotifier

/-! ## How a lifecycle ends -/

namespace CompletionRequest

/-- The request of a merge, by the program or by somebody else. -/
def merged (mergedAt : ℤ) (duration targetBranch : String) : CompletionRequest where
  state := .merged
  notificationStatus := .merged
  context :=
    [("merged_at", .time mergedAt), ("duration", .text duration),
      ("target_branch", .text targetBranch)]
  outcome := { historyStatus := .merged }

def errorText (message : Option String) : String :=
  match message with
  | some "" | none => "Unknown error"
  | some message => message

/-- `_failure_notification`, with the duration that a timeout adds. -/
def failureNotification (c : MachineContext) (targetBranch : String) (failedAt : ℤ)
    (duration : String) : Template × Context :=
  match c.failureReason with
  | some .conflict =>
      (.conflict,
        [("failed_at", .time failedAt), ("target_branch", .text targetBranch),
          ("conflicted_files", .list c.conflictedFiles),
          ("error_message", .text (c.errorMessage.getD ""))])
  | some .pipelineFailed =>
      (.pipelineFailed,
        [("failed_at", .time failedAt), ("pipeline_id", .ofNumber c.pipelineId),
          ("pipeline_url", .ofText c.pipelineUrl), ("retried_jobs", .counts c.retriedJobs),
          ("failed_jobs", .list (c.failedJobs.getD []))])
  | some .timeout =>
      (.timeout,
        [("failed_at", .time failedAt), ("max_wait", .number (c.maxWaitHours.getD 2)),
          ("duration", .text duration)])
  | some .mergeFailed =>
      (.mergeFailed,
        [("failed_at", .time failedAt), ("error_message", .text (errorText c.errorMessage))])
  | none =>
      (.genericFailure,
        [("failed_at", .time failedAt), ("error_message", .text (errorText c.errorMessage))])

def failureHistory : Option FailureReason → HistoryStatus
  | some .conflict => .conflict
  | some .timeout => .timeout
  | some .mergeFailed => .mergeFailed
  | some .pipelineFailed | none => .failed

def failed (c : MachineContext) (targetBranch : String) (failedAt : ℤ) (duration : String) :
    CompletionRequest where
  state := .failed
  notificationStatus := (failureNotification c targetBranch failedAt duration).1
  context := (failureNotification c targetBranch failedAt duration).2
  outcome :=
    { historyStatus := failureHistory c.failureReason
      failureReason := c.errorMessage
      pipelineFailedJobs := c.failedJobs }

/-- The template and the context of a removal for the reason `reason`. -/
def removalNotification (reason : RemovalReason) (c : MachineContext) (targetBranch : String)
    (removedAt : ℤ) (duration : String) (position : ℕ) : Template × Context :=
  match reason with
  | .timeout =>
      (.timeout,
        [("failed_at", .time removedAt), ("duration", .text duration),
          ("max_wait", .number (c.maxWaitHours.getD 2))])
  | .closed => (.removedClosed, [("removed_at", .time removedAt)])
  | .externalMerge =>
      (.merged,
        [("merged_at", .time removedAt), ("duration", .text duration),
          ("target_branch", .text targetBranch)])
  | .labelRemoved | .notFound =>
      (.removedLabel,
        [("removed_at", .time removedAt), ("position", .number position),
          ("previous_state", .text (c.previousState.getD .queued).text)])

def removalHistory : RemovalReason → HistoryStatus
  | .timeout => .timeout
  | .externalMerge => .merged
  | .labelRemoved | .closed | .notFound => .removed

def removed (reason : RemovalReason) (c : MachineContext) (targetBranch : String)
    (removedAt : ℤ) (duration : String) (position : ℕ) : CompletionRequest where
  state := .removed
  notificationStatus := (removalNotification reason c targetBranch removedAt duration position).1
  context := (removalNotification reason c targetBranch removedAt duration position).2
  outcome :=
    { historyStatus := removalHistory reason
      failureReason :=
        if reason = .externalMerge then none else some ("Removed: " ++ reason.text) }
  removeLabels :=
    match reason with
    | .closed | .timeout | .externalMerge => true
    | .labelRemoved | .notFound => false

/-- The request for one row, with the positions at the time of the outcome. -/
def of (request : CompletionRequest) (positions : List (ℕ × ℕ)) (oldTotal : ℕ)
    (queueId : Option ℕ) : CompletionRequest :=
  { request with positions, oldTotal, queueId }

end CompletionRequest

/-! ## Transitions -/

inductive MachineEvent
  | startProcessing
  | rebaseComplete
  | rebaseFailed
  | pipelineSuccess
  | pipelineFailed
  | mergeSuccess
  | mergeFailed
  | resetToQueued
  | markRemoved
  deriving DecidableEq, Repr

namespace MRStateMachine

def transition : MachineEvent → Status → Option Status
  | .startProcessing, .queued => some .rebasing
  | .rebaseComplete, .rebasing => some .testing
  | .rebaseFailed, .rebasing | .pipelineFailed, .testing | .mergeFailed, .merging => some .failed
  | .pipelineSuccess, .testing => some .merging
  | .mergeSuccess, .merging => some .merged
  | .resetToQueued, .rebasing | .resetToQueued, .testing | .resetToQueued, .merging => some .queued
  | .markRemoved, .queued | .markRemoved, .rebasing | .markRemoved, .testing
  | .markRemoved, .merging => some .removed
  | _, _ => none

/-- The task keeps `m` as its state machine. -/
def keep (m : Machine) : Prog Unit := Program.update fun s ↦ { s with machine := some m }

def setContext (f : MachineContext → MachineContext) : Prog Unit := do
  let m ← Prog.machine
  keep { m with context := f m.context }

variable (settings : Settings)

def getQueuePosition (projectId mrIid : ℕ) : Prog (Option ℕ) := do
  let queue ← Prog.db (.getActiveQueue projectId)
  return (queue.findIdx? fun item ↦ item.mrIid = mrIid).map (· + 1)

def finishCompletion (m : Machine) (request : CompletionRequest) : Prog Unit := do
  let (positions, oldTotal) ← QueuePositionNotifier.capturePositionsIfEnabled settings
  QueueCompletion.complete settings m.mrIid (request.of positions oldTotal m.queueId)

def onEnterQueued (m : Machine) : Prog Unit :=
  if m.suppressQueuedNotification then keep { m with suppressQueuedNotification := false }
  else do
    let position ← getQueuePosition m.projectId m.mrIid
    let total ← QueuePositionNotifier.getQueueLength settings
    let queuedAt ← Prog.now
    MRNotifier.announce settings m.mrIid (.queued (position.getD 1) total queuedAt)
    broadcast settings

def onEnterRebasing (m : Machine) : Prog Unit := do
  Prog.updateMrState m.projectId m.mrIid .rebasing {}
  let startedAt ← Prog.now
  MRNotifier.announce settings m.mrIid (.rebasing startedAt m.targetBranch)
  broadcast settings

def onEnterTesting (m : Machine) : Prog Unit := do
  Prog.updateMrState m.projectId m.mrIid .testing
    { pipelineId := some m.context.pipelineId
      pipelineStatus := some (some .running)
      expectedSha := some m.context.expectedSha }
  let startedAt ← Prog.now
  MRNotifier.announce settings m.mrIid
    (.testing m.context.pipelineId m.context.pipelineUrl startedAt)
  broadcast settings

def onEnterMerging (m : Machine) : Prog Unit := do
  Prog.updateMrState m.projectId m.mrIid .merging {}
  MRNotifier.announce settings m.mrIid
    (.merging m.context.pipelineId m.context.pipelineUrl m.targetBranch)
  broadcast settings

def onEnterMerged (m : Machine) : Prog Unit := do
  let item ← Prog.getQueueItem m.projectId m.mrIid
  let mergedAt ← Prog.now
  let finish ← Prog.now
  finishCompletion settings m (.merged mergedAt (durationOf item finish) m.targetBranch)

/-- The duration that only the comment about a timeout tells. -/
def timeoutDuration (m : Machine) : Prog String :=
  if m.context.failureReason = some .timeout then do
    let item ← Prog.getQueueItem m.projectId m.mrIid
    let finish ← Prog.now
    return durationOf item finish
  else pure ""

def onEnterFailed (m : Machine) : Prog Unit := do
  let failedAt ← Prog.now
  let duration ← timeoutDuration m
  finishCompletion settings m (.failed m.context m.targetBranch failedAt duration)

def onEnterRemoved (m : Machine) : Prog Unit := do
  let reason := m.context.removalReason.getD .labelRemoved
  let removedAt ← Prog.now
  match reason with
  | .timeout | .externalMerge => do
      let item ← Prog.getQueueItem m.projectId m.mrIid
      let at₁ ← Prog.now
      let at₂ ← Prog.now
      finishCompletion settings m
        (.removed reason m.context m.targetBranch at₁ (durationOf item at₂) 0)
  | .closed => finishCompletion settings m (.removed reason m.context m.targetBranch removedAt "" 0)
  | .labelRemoved | .notFound => do
      let position ← getQueuePosition m.projectId m.mrIid
      finishCompletion settings m
        (.removed reason m.context m.targetBranch removedAt "" (position.getD 0))

/-- The callback of the state that `m` is in, left out once by a resumed machine. -/
def onEnter (m : Machine) : Prog Unit :=
  if m.skipInitialEnter then keep { m with skipInitialEnter := false }
  else
    match m.current with
    | .queued => onEnterQueued settings m
    | .rebasing => onEnterRebasing settings m
    | .testing => onEnterTesting settings m
    | .merging => onEnterMerging settings m
    | .merged => onEnterMerged settings m
    | .failed => onEnterFailed settings m
    | .removed => onEnterRemoved settings m

/-- The machine is in the state that it enters while the callback runs. -/
def fire (event : MachineEvent) : Prog Unit := do
  let m ← Prog.machine
  match transition event m.current with
  | none => throw .transitionNotAllowed
  | some target => do
      keep { m with current := target }
      onEnter settings { m with current := target }

/-- `create_state_machine_for_mr`, with the activation of the initial state. -/
def create (mrIid : ℕ) (targetBranch : String) : Prog Unit := do
  let item ← Prog.getQueueItem settings.gitlabProjectId mrIid
  match item with
  | some item => do
      onEnter settings
        { projectId := settings.gitlabProjectId
          mrIid
          targetBranch
          queueId := some item.queueId
          current := item.state
          skipInitialEnter := true }
      Prog.takeView item.state
  | none => do
      let m : Machine := { projectId := settings.gitlabProjectId, mrIid, targetBranch }
      onEnter settings m
      keep m
      Prog.takeView .queued

/-! ## Triggers -/

def triggerStartProcessing : Prog Unit := do
  setContext fun _ ↦ {}
  fire settings .startProcessing

def triggerRebaseComplete (pipelineId : ℕ) (pipelineUrl expectedSha : String) : Prog Unit := do
  setContext fun c ↦
    { c with
      pipelineId := some pipelineId
      pipelineUrl := some pipelineUrl
      expectedSha := some expectedSha }
  fire settings .rebaseComplete

def conflictContext (conflictedFiles : List String) (errorMessage : String) : MachineContext :=
  { failureReason := some .conflict, conflictedFiles, errorMessage := some errorMessage }

def triggerRebaseFailed (conflictedFiles : List String) (errorMessage : String) : Prog Unit := do
  setContext fun _ ↦ conflictContext conflictedFiles errorMessage
  fire settings .rebaseFailed

def triggerConflictDuringTesting (conflictedFiles : List String) (errorMessage : String) :
    Prog Unit := do
  setContext fun _ ↦ conflictContext conflictedFiles errorMessage
  fire settings .pipelineFailed

def triggerPipelineSuccess : Prog Unit := fire settings .pipelineSuccess

def triggerPipelineFailed (failedJobs : List String) (retriedJobs : List (String × ℕ))
    (errorMessage : String) : Prog Unit := do
  setContext fun c ↦
    { c with
      failureReason := some .pipelineFailed
      failedJobs := some failedJobs
      retriedJobs
      errorMessage := some errorMessage }
  fire settings .pipelineFailed

def triggerMergeSuccess : Prog Unit := fire settings .mergeSuccess

def triggerMergeFailed (errorMessage : String) : Prog Unit := do
  setContext fun _ ↦ { failureReason := some .mergeFailed, errorMessage := some errorMessage }
  fire settings .mergeFailed

def triggerResetToQueued : Prog Unit := do
  let m ← Prog.machine
  keep { m with suppressQueuedNotification := true, context := {} }
  fire settings .resetToQueued
  Prog.updateMrState m.projectId m.mrIid .queued {}

def triggerMarkRemoved (reason : RemovalReason) : Prog Unit := do
  let m ← Prog.machine
  keep
    { m with context := { removalReason := some reason, previousState := some m.current } }
  fire settings .markRemoved

/-- The event of a timeout in the state `current`. -/
def timeoutEvent : Status → Option MachineEvent
  | .rebasing => some .rebaseFailed
  | .testing => some .pipelineFailed
  | .merging => some .mergeFailed
  | .queued => some .markRemoved
  | .merged | .failed | .removed => none

def triggerTimeout (maxWaitHours : ℕ) : Prog Unit := do
  let m ← Prog.machine
  keep
    { m with
      context :=
        { failureReason := some .timeout
          maxWaitHours := some maxWaitHours
          errorMessage :=
            some s!"Timed out after {maxWaitHours} hours in {m.current.text} state"
          removalReason := if m.current = .queued then some .timeout else none } }
  match timeoutEvent m.current with
  | some event => fire settings event
  | none => pure ()

/-! ## Comments without a transition -/

def notifyJobRetry (pipelineId : ℕ) (pipelineUrl : String) (retriedJobs : List String)
    (retriedCounts : List (String × ℕ)) (maxRetries : ℕ) : Prog Unit := do
  let m ← Prog.machine
  MRNotifier.announce settings m.mrIid
    (.jobRetry pipelineId pipelineUrl retriedJobs retriedCounts maxRetries)

def notifyPositionChanged (oldPosition : ℕ) : Prog Unit := do
  let m ← Prog.machine
  let position ← getQueuePosition m.projectId m.mrIid
  let total ← QueuePositionNotifier.getQueueLength settings
  match position with
  | some position =>
      if position = oldPosition then pure ()
      else MRNotifier.announce settings m.mrIid (.positionChanged position total oldPosition)
  | none => pure ()

def notifyRebaseComplete : Prog Unit := do
  let m ← Prog.machine
  let rebasedAt ← Prog.now
  MRNotifier.announce settings m.mrIid (.rebaseComplete rebasedAt)

def notifyStaleWarning (warningHours : ℕ) : Prog Unit := do
  let m ← Prog.machine
  let item ← Prog.getQueueItem m.projectId m.mrIid
  let position ← getQueuePosition m.projectId m.mrIid
  let queuedAt ← Prog.now
  let finish ← Prog.now
  MRNotifier.announce settings m.mrIid
    (.staleWarning ((item.map QueueItem.queuedAt).getD queuedAt) (durationOf item finish)
      warningHours (position.getD 1))

def notifyRebaseDuringTesting (oldPipelineId : Option ℕ) (newPipelineId rebaseCount maxAttempts : ℕ)
    (expectedSha : String) : Prog Unit := do
  let m ← Prog.machine
  Prog.updateMrState m.projectId m.mrIid .testing
    { pipelineId := some (some newPipelineId)
      pipelineStatus := some (some .running)
      expectedSha := some (some expectedSha) }
  let pipelineUrl ← MRNotifier.buildPipelineUrl newPipelineId
  setContext fun c ↦
    { c with
      pipelineId := some newPipelineId
      pipelineUrl := some pipelineUrl
      expectedSha := some expectedSha }
  MRNotifier.announce settings m.mrIid
    (.rebaseDuringTesting oldPipelineId newPipelineId pipelineUrl rebaseCount maxAttempts)

end MRStateMachine

end MergeQueue
