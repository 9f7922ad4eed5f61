import MergeQueue.PipelineHandler
import MergeQueue.QueueMetadata

/-!
# The processor

One task takes the waiting merge requests one after another: it rebases, waits for
the pipeline and merges.  At its start it puts back what an earlier run left in the
middle; an error puts the merge request it works on back, or fails it for good.
-/

namespace MergeQueue

open Interleave (Program)

namespace MergeProcessor

variable (settings : Settings)

/-! ## Errors -/

/-- The outcome of a failure without a state machine that could tell it. -/
def failDirectly (mrIid : ℕ) (errorMessage : String) : Prog Unit := do
  let _ ← Prog.db (.completeMr settings.gitlabProjectId mrIid
    { historyStatus := .failed, failureReason := some errorMessage } none)
  MRNotifier.announce settings mrIid (.permanentFailure errorMessage)
  let _ ← MRNotifier.removeQueueLabel settings mrIid false none

def failMrPermanently (mrIid : ℕ) (errorMessage : String) : Prog Unit := do
  let m ← Prog.machine
  match m.current with
  | .rebasing => MRStateMachine.triggerRebaseFailed settings [] errorMessage
  | .testing => MRStateMachine.triggerPipelineFailed settings [] [] errorMessage
  | .merging => MRStateMachine.triggerMergeFailed settings errorMessage
  | .queued | .merged | .failed | .removed => failDirectly settings mrIid errorMessage

/-- The state machine that the task has created, if it has. -/
def stateMachine : Prog (Option Machine) := do
  let s ← Program.read
  return s.machine

def failForGood (mrIid : ℕ) (errorMessage : String) : Prog Unit := do
  match ← stateMachine with
  | some _ => failMrPermanently settings mrIid errorMessage
  | none => failDirectly settings mrIid errorMessage

def resetMachine : Prog Unit := do
  match ← stateMachine with
  | some _ => MRStateMachine.triggerResetToQueued settings
  | none => pure ()

/-- Puts the merge request back and counts the attempt. -/
def requeueAfterError (mrIid attempts : ℕ) : Prog Unit := do
  resetMachine settings
  Prog.updateMrState settings.gitlabProjectId mrIid .queued { processingAttempts := some attempts }

def handleProcessingError (mrIid : ℕ) (error : PyError) : Prog Unit := do
  let found ← Prog.getQueueItem settings.gitlabProjectId mrIid
  match found with
  | none => return ()
  | some item =>
      if item.pendingCompletion.isSome then return ()
      else
        let attempts := item.processingAttempts + 1
        if settings.maxProcessingAttempts ≤ attempts then
          failForGood settings mrIid
            s!"MR permanently failed after {attempts} attempts. Last error: {error.text}"
        else requeueAfterError settings mrIid attempts

/-! ## The workflow of one merge request -/

/-- What a merge that raised is the outcome of. -/
def failMerge (e : PyError) : Prog ProcessingResult :=
  if e = .timeoutError then do
    MRStateMachine.triggerMergeFailed settings
      s!"Merge operation timed out after {settings.mergeTimeoutSeconds} seconds"
    return .timeout
  else if e.isGitLab then do
    MRStateMachine.triggerMergeFailed settings e.text
    return .mergeFailed
  else throw e

def processMerge (mrIid : ℕ) : Prog ProcessingResult := do
  let item ← Prog.getQueueItem settings.gitlabProjectId mrIid
  tryCatch
    (do
      let _ ← Prog.gitlab (.mergeMr mrIid (item.bind QueueItem.expectedSha))
      MRStateMachine.triggerMergeSuccess settings
      return .success)
    (failMerge settings)

/-- The merge request has made progress: its attempts are counted anew. -/
def testThenMerge (mrIid : ℕ) : Prog ProcessingResult := do
  Prog.updateMrState settings.gitlabProjectId mrIid .testing { processingAttempts := some 0 }
  let result ← PipelineHandler.waitForPipeline settings mrIid
  if result = .success then processMerge settings mrIid else return result

def rebaseThenTest (mrIid : ℕ) : Prog ProcessingResult := do
  let result ← RebaseHandler.processRebase settings mrIid
  if result = .success then testThenMerge settings mrIid else return result

def executeWorkflow (mrIid : ℕ) : Prog ProcessingResult := do
  let m ← Prog.machine
  match m.current with
  | .queued => do
      MRStateMachine.triggerStartProcessing settings
      rebaseThenTest settings mrIid
  | .rebasing => rebaseThenTest settings mrIid
  | .testing => testThenMerge settings mrIid
  | .merging => processMerge settings mrIid
  | .merged | .failed | .removed => return .error

def attempt (mrIid : ℕ) : Prog ProcessingResult := do
  MRStateMachine.create settings mrIid settings.targetBranch
  match ← verifyMrInQueue settings mrIid with
  | some reason => do
      MRStateMachine.triggerMarkRemoved settings reason
      return .removed
  | none => executeWorkflow settings mrIid

/-- `_process_mr`: no exception leaves it, except for a cancellation. -/
def processMr (mrIid : ℕ) : Prog ProcessingResult := do
  Program.update fun s ↦ { s with machine := none }
  catching PyError.isException (attempt settings mrIid) fun e ↦ do
    catching PyError.isException (handleProcessingError settings mrIid e) fun _ ↦ pure ()
    return .error

/-! ## One iteration -/

def warnStale (item : QueueItem) : Prog Unit :=
  if item.staleWarningSent then pure ()
  else
    catching PyError.isException
      (do
        MRStateMachine.create settings item.mrIid settings.targetBranch
        MRStateMachine.notifyStaleWarning settings settings.staleMrWarningHours
        let _ ← Prog.db (.markStaleWarningSent settings.gitlabProjectId item.mrIid)
        return ())
      fun _ ↦ pure ()

def checkStaleMrs : Prog Unit := do
  let now ← Prog.now
  let items ← Prog.db (.getStaleMrs settings.gitlabProjectId
    (now - settings.staleMrWarningHours * 3600000000))
  Program.forEach (warnStale settings) items

def getNextMr : Prog (Option QueueItem) := do
  let queue ← Prog.db (.getActiveQueue settings.gitlabProjectId)
  return queue.find? fun item ↦ item.state = .queued

/-- The merge request that the processor works on. -/
def setCurrent (mrIid : Option ℕ) : Prog Unit :=
  Program.update fun s ↦ { s with currentMrIid := mrIid }

def processIteration : Prog Unit := do
  checkStaleMrs settings
  match ← getNextMr settings with
  | none => return ()
  | some item => do
      setCurrent (some item.mrIid)
      let work : Prog Unit := do
        let _ ← processMr settings item.mrIid
        return ()
      work.ensuring (setCurrent none)

/-! ## The start of the processor -/

def broadcastQueueUpdate : Prog Unit :=
  if settings.websocketManager then
    catching PyError.isException
      (do
        let _ ← Prog.db (.getActiveQueue settings.gitlabProjectId)
        Prog.await .broadcast)
      fun _ ↦ pure ()
  else pure ()

/-- The outcome of a recovered row that GitLab does not want merged any more. -/
def recoveredOutcome (mr : MergeRequest) : Option Outcome :=
  if mr.state = .merged then some { historyStatus := .merged }
  else if mr.state ≠ .opened then
    some { historyStatus := .removed, failureReason := some "closed_during_recovery" }
  else if settings.queueLabel ∉ mr.labels ∧ settings.hotfixLabel ∉ mr.labels then
    some { historyStatus := .removed, failureReason := some "label_removed" }
  else none

def archiveRecovered (item : QueueItem) (outcome : Outcome) : Prog Unit := do
  let _ ← Prog.db (.completeMr settings.gitlabProjectId item.mrIid outcome (some item.queueId))

/-- The status of a row that a workflow is in the middle of. -/
def interrupted : Status → Bool
  | .rebasing | .testing | .merging => true
  | .queued | .merged | .failed | .removed => false

def recoverItem (item : QueueItem) : Prog Unit :=
  tryCatch
    (do
      let mr : MergeRequest ← Prog.gitlab (.getMr item.mrIid false)
      match recoveredOutcome settings mr with
      | some outcome => archiveRecovered settings item outcome
      | none =>
          if interrupted item.state then
            Prog.updateMrState settings.gitlabProjectId item.mrIid .queued {}
          else pure ())
    fun e ↦
      if e.isKind .circuitOpen then pure ()
      else if e.isKind .notFound then
        archiveRecovered settings item
          { historyStatus := .removed, failureReason := some "not_found" }
      else if e.isGitLab then pure ()
      else throw e

/-- The active queue, unless it cannot be read. -/
def activeItems : Prog (List QueueItem) :=
  catching PyError.isException (Prog.db (.getActiveQueue settings.gitlabProjectId)) fun _ ↦ pure []

def recoverInterruptedState : Prog Unit := do
  let items ← activeItems settings
  Program.forEach (recoverItem settings) items

def fetchMrsByLabel (label : String) : Prog (Option (List MergeRequest)) :=
  catching PyError.isGitLab
    (do
      let mrs : List MergeRequest ← Prog.gitlab (.listMrsWithLabel label)
      return some mrs)
    fun _ ↦ pure none

/-- Adds a merge request unless its last lifecycle is being finished. -/
def addDiscoveredMr (mr : MergeRequest) : Prog Bool := do
  let existing ← Prog.getQueueItem settings.gitlabProjectId mr.iid
  if existing.any fun item ↦ item.pendingCompletion.isSome then return false
  else do
    let _ ← Prog.db (.addToQueue settings.gitlabProjectId mr
      (mr.labels.contains settings.hotfixLabel))
    return true

/-- The merge requests of both labels, the last report of each. -/
def discovered (mrs : List MergeRequest) : List MergeRequest :=
  (mrs.map MergeRequest.iid).eraseDups.filterMap fun iid ↦
    mrs.reverse.find? fun mr ↦ mr.iid = iid

def syncDiscovered (snapshot active : List QueueItem) (mr : MergeRequest) : Prog Bool :=
  if active.any fun item ↦ item.mrIid = mr.iid then
    match snapshot.find? fun item ↦ item.mrIid = mr.iid with
    | some item =>
        QueueMetadataUpdater.refresh settings mr.iid mr.labels
          (some (item.queueId, item.metadataVersion)) false none
    | none => pure false
  else addDiscoveredMr settings mr

/-- Whether any of the merge requests was added or updated. -/
def syncAll (snapshot active : List QueueItem) : List MergeRequest → Prog Bool
  | [] => pure false
  | mr :: mrs => do
      let changed ← syncDiscovered settings snapshot active mr
      let others ← syncAll snapshot active mrs
      return changed || others

def broadcastIf (changed : Bool) : Prog Unit :=
  if changed then broadcastQueueUpdate settings else pure ()

def syncMissingMrsFromGitlab : Prog Unit := do
  let snapshot ← Prog.db (.getActiveQueue settings.gitlabProjectId)
  let queueMrs ← fetchMrsByLabel settings.queueLabel
  let hotfixMrs ← fetchMrsByLabel settings.hotfixLabel
  match queueMrs, hotfixMrs with
  | some queueMrs, some hotfixMrs =>
      if (queueMrs ++ hotfixMrs).isEmpty then QueueMetadataUpdater.retryPending settings
      else do
        let active ← Prog.db (.getActiveQueue settings.gitlabProjectId)
        let changed ← syncAll settings snapshot active (discovered (queueMrs ++ hotfixMrs))
        QueueMetadataUpdater.retryPending settings
        broadcastIf settings changed
  | _, _ => QueueMetadataUpdater.retryPending settings

/-! ## The loop -/

/-- How long the loop sleeps after an exception of its iteration. -/
def pauseAfter (e : PyError) : ℤ :=
  match e with
  | .gitlab error =>
      if error.kind = .circuitOpen then
        match error.retryAfter with
        | some 0 | none => 30
        | some seconds => seconds
      else settings.pollIntervalSeconds
  | _ => settings.pollIntervalSeconds

/-- One iteration, and the time to sleep after it. -/
def iteration : Prog ℤ :=
  catching PyError.isException
    (do
      processIteration settings
      return (settings.pollIntervalSeconds : ℤ))
    fun e ↦ pure (pauseAfter settings e)

def round : Prog (Unit ⊕ Unit) := do
  let stopping ← Prog.await .shutdownRequested
  if stopping then return .inr ()
  else do
    let seconds ← iteration settings
    let slept ← Prog.await (.sleep (.iteration seconds))
    if slept then return .inl () else return .inr ()

def startup : Prog Unit := do
  let recovered ← QueueCompletion.recoverAll settings
  broadcastIf settings recovered
  recoverInterruptedState settings
  syncMissingMrsFromGitlab settings

def run : Prog Unit := do
  startup settings
  Program.loop (fun _ ↦ round settings) settings.rounds ()

end MergeProcessor

end MergeQueue
