import MergeQueue.Lib.Counts
import MergeQueue.RebaseHandler
import Mathlib.Data.List.MinMax

/-!
# Waiting for a pipeline

The loop that follows the pipeline of a merge request in testing: it rebases again
when the target branch moves, skips or adopts other pipelines, retries failed jobs,
and moves the state machine on when the pipeline has a result.
-/

namespace MergeQueue

open Counts (countOf setCount)
open Interleave (Program)

/-! ## Rebase during testing -/

inductive MergeReadiness
  | ready
  | needsRebase
  | hasConflicts
  deriving DecidableEq, Repr

/-- The rebase attempts of one testing phase. -/
structure RebaseDuringTestingContext where
  rebaseCount : ℕ := 0
  maxAttempts : ℕ := 3
  currentPipelineId : Option ℕ := none
  deriving DecidableEq, Repr

namespace RebaseDuringTestingHandler

variable (settings : Settings)

def rebasePollIntervalSeconds : ℕ := 3

def checkNeedsRebase (mrIid : ℕ) : Prog MergeReadiness := do
  let mr : MergeRequest ← Prog.gitlab (.getMr mrIid false)
  if mr.hasConflicts then return .hasConflicts
  else if mr.mergeStatus = "can_be_merged" ∨ mr.mergeStatus = "checking" then return .ready
  else return .needsRebase

def cancelPipelineSafe (pipelineId : ℕ) : Prog Unit :=
  catching PyError.isGitLab
    (do
      let _ ← Prog.gitlab (.cancelPipeline pipelineId)
      return ())
    fun _ ↦ pure ()

def cancelCurrentPipeline (ctx : RebaseDuringTestingContext) : Prog Unit :=
  match ctx.currentPipelineId with
  | some id => cancelPipelineSafe id
  | none => pure ()

/-- The pipeline is a new one on the head `sha` that may still succeed. -/
def isNewPipeline (sha : String) (oldPipelineId : Option ℕ) (pipeline : Pipeline) : Bool :=
  some pipeline.id ≠ oldPipelineId && pipeline.sha = sha && pipeline.status ≠ .canceled &&
    pipeline.status ≠ .failed

def checkNewPipeline (mrIid : ℕ) (oldSha : String) (oldPipelineId : Option ℕ) :
    Prog (Option Pipeline) := do
  let mr : MergeRequest ← Prog.gitlab (.getMr mrIid false)
  if mr.sha ≠ oldSha ∨ mr.rebaseInProgress = false then do
    let pipeline : Option Pipeline ← Prog.gitlab (.getLatestMrPipeline mrIid)
    return pipeline.filter (isNewPipeline mr.sha oldPipelineId)
  else return none

def waitForNewPipeline (mrIid : ℕ) (oldSha : String) (oldPipelineId : Option ℕ) :
    Prog (Option Pipeline) := do
  let outcome ← pollUntilDone settings settings.postRebasePipelineWaitSeconds
    settings.pipelinePollIntervalSeconds (checkNewPipeline mrIid oldSha oldPipelineId)
  match outcome with
  | .completed pipeline => return some pipeline
  | .shutdownRequested => return none
  | .timedOut => do
      let mr : MergeRequest ← Prog.gitlab (.getMr mrIid false)
      let pipeline : Option Pipeline ← Prog.gitlab (.getLatestMrPipeline mrIid)
      return pipeline.filter (isNewPipeline mr.sha oldPipelineId)

/-- Cancels the pipeline, rebases and waits for the pipeline of the new head. -/
def rebaseAgain (mrIid : ℕ) (ctx : RebaseDuringTestingContext) :
    Prog (RebaseDuringTestingContext × Option Pipeline) := do
  cancelCurrentPipeline ctx
  let mr : MergeRequest ← Prog.gitlab (.getMr mrIid false)
  let _ ← Prog.gitlab (.rebaseMr mrIid)
  waitForRebaseCompletion settings mrIid settings.rebaseTimeoutSeconds rebasePollIntervalSeconds
    "Rebase conflict during testing" s!"Rebase timeout after {settings.rebaseTimeoutSeconds}s"
    "Shutdown requested during rebase wait"
  let newPipeline ← waitForNewPipeline settings mrIid mr.sha ctx.currentPipelineId
  return (
    { rebaseCount := ctx.rebaseCount + 1
      maxAttempts := ctx.maxAttempts
      currentPipelineId := newPipeline.map Pipeline.id },
    newPipeline)

def handleRebaseIfNeeded (mrIid : ℕ) (ctx : RebaseDuringTestingContext) :
    Prog (RebaseDuringTestingContext × Option Pipeline) := do
  match ← checkNeedsRebase mrIid with
  | .ready => return (ctx, none)
  | .hasConflicts => throw (.api .conflict "MR has conflicts during testing")
  | .needsRebase =>
      if ctx.maxAttempts ≤ ctx.rebaseCount then
        throw (.rebaseRetryLimitExceeded
          s!"MR !{mrIid}: {ctx.rebaseCount}/{ctx.maxAttempts} rebase attempts exhausted")
      else rebaseAgain settings mrIid ctx

end RebaseDuringTestingHandler

/-- The mutable state of the loop that waits for a pipeline. -/
structure PipelineWaitState where
  retriedJobs : List (String × ℕ)
  startTime : ℤ
  rebaseCtx : RebaseDuringTestingContext
  lastRebaseCheck : ℤ
  canceledSeenCount : ℕ := 0
  timeoutLastChanceUsed : Bool := false
  deriving DecidableEq, Repr

structure RebaseCheckOutcome where
  context : Option RebaseDuringTestingContext
  result : Option ProcessingResult
  lastCheck : ℤ
  shouldReset : Bool
  deriving DecidableEq, Repr

namespace RebaseCoordinator

variable (settings : Settings)

/-- What a rebase check does to the loop: it goes on, with another context, or ends. -/
inductive RebaseResult
  | unchanged
  | context (ctx : RebaseDuringTestingContext)
  | result (result : ProcessingResult)
  deriving DecidableEq, Repr

def attemptRebase (mrIid : ℕ) (state : PipelineWaitState) (pipeline : Pipeline) :
    Prog RebaseResult := do
  let (newCtx, newPipeline) ←
    RebaseDuringTestingHandler.handleRebaseIfNeeded settings mrIid state.rebaseCtx
  match newPipeline with
  | some newPipeline => do
      MRStateMachine.notifyRebaseDuringTesting settings (some pipeline.id) newPipeline.id
        newCtx.rebaseCount newCtx.maxAttempts newPipeline.sha
      return .context newCtx
  | none =>
      if state.rebaseCtx.rebaseCount < newCtx.rebaseCount then return .context newCtx
      else return .unchanged

/-- The outcome of a rebase that failed, for the errors that are an outcome. -/
def failRebase (mrIid : ℕ) (state : PipelineWaitState) (e : PyError) : Prog RebaseResult :=
  match e with
  | .rebaseRetryLimitExceeded _ => do
      MRStateMachine.triggerPipelineFailed settings [] state.retriedJobs e.text
      return .result .pipelineFailed
  | _ =>
      if e.isKind .conflict then do
        let conflictedFiles : List String ← Prog.gitlab (.getMrConflicts mrIid)
        MRStateMachine.triggerConflictDuringTesting settings conflictedFiles e.text
        return .result .conflict
      else if e.isGitLab then do
        MRStateMachine.triggerPipelineFailed settings [] state.retriedJobs
          ("Rebase during testing failed: " ++ e.text)
        return .result .pipelineFailed
      else throw e

def checkAndHandleRebaseDuringTesting (mrIid : ℕ) (state : PipelineWaitState)
    (pipeline : Pipeline) : Prog RebaseResult :=
  tryCatch (attemptRebase settings mrIid state pipeline) (failRebase settings mrIid state)

def maybeRebaseDuringTesting (mrIid : ℕ) (state : PipelineWaitState) (pipeline : Pipeline) :
    Prog RebaseCheckOutcome := do
  let now ← Prog.now
  if now - state.lastRebaseCheck < settings.rebaseCheckIntervalSeconds * 1000000 then
    return {
      context := some state.rebaseCtx
      result := none
      lastCheck := state.lastRebaseCheck
      shouldReset := false }
  else
    match ← checkAndHandleRebaseDuringTesting settings mrIid state pipeline with
    | .unchanged =>
        return {
          context := some state.rebaseCtx, result := none, lastCheck := now, shouldReset := false }
    | .context ctx =>
        return {
          context := some ctx
          result := none
          lastCheck := now
          shouldReset :=
            ctx.currentPipelineId.isSome &&
              ctx.currentPipelineId ≠ state.rebaseCtx.currentPipelineId }
    | .result result =>
        return { context := none, result := some result, lastCheck := now, shouldReset := false }

end RebaseCoordinator

/-! ## Job retries -/

/-- Retry the pipeline with updated counts, and the start of a new timeout. -/
structure RetrySignal where
  retriedJobs : List (String × ℕ)
  newStartTime : Option ℤ
  deriving DecidableEq, Repr

inductive StaleCheckResult
  | ok
  | skip
  | switched
  deriving DecidableEq, Repr

namespace PipelineHandler

variable (settings : Settings)

/-- The testing write of the pipeline handler. -/
def writeTesting (mrIid : ℕ) (extra : QueueManager.Extra) : Prog Unit :=
  Prog.updateMrState settings.gitlabProjectId mrIid .testing extra

/-- The jobs that may be retried once more, and the names of the others. -/
def classifyFailedJobs (failedJobs : List Job) (retriedJobs : List (String × ℕ))
    (maxJobRetries : ℕ) : List Job × List String :=
  let (retry, exhausted) :=
    failedJobs.partition fun job ↦ decide (countOf retriedJobs job.name < maxJobRetries)
  (retry, exhausted.map Job.name)

/-- The answers to the retry of each job. -/
def retryJobs : List Job → Prog (List (Job × Except PyError Job))
  | [] => pure []
  | job :: jobs => do
      let answer : Except PyError Job ←
        catching PyError.isException
          (do
            let retried : Job ← Prog.gitlab (.retryPipelineJob job.id)
            return .ok retried)
          fun e ↦ pure (.error e)
      let answers ← retryJobs jobs
      return (job, answer) :: answers

def succeeded (answers : List (Job × Except PyError Job)) : List Job :=
  answers.filterMap fun entry ↦ entry.2.toOption.map fun _ ↦ entry.1

def retryErrors (answers : List (Job × Except PyError Job)) : List (Job × PyError) :=
  answers.filterMap fun entry ↦
    match entry.2 with
    | .error e => some (entry.1, e)
    | .ok _ => none

/-- One more retry for each job that was retried, a name only once. -/
def tallyRetryResults (answers : List (Job × Except PyError Job))
    (retriedJobs : List (String × ℕ)) : List (String × ℕ) :=
  (fromkeys ((succeeded answers).map Job.name)).foldl
    (fun counts name ↦ setCount counts name (countOf counts name + 1)) retriedJobs

def isActiveJob (job : Job) : Bool :=
  job.status = .running || job.status = .pending || job.status = .other "created"

/-- A refused retry means that somebody else has retried the job. -/
def notRetryable : PyError → Bool
  | .gitlab error => error.statusCode = some 403
  | _ => false

/-- Some of the jobs whose retry GitLab refused run again. -/
def retriedExternally (pipelineId : ℕ) (errors : List (Job × PyError)) : Prog Bool :=
  if errors.all fun entry ↦ notRetryable entry.2 then do
    let jobs : List Job ← Prog.gitlab (.getPipelineJobs pipelineId)
    return jobs.any fun job ↦
      isActiveJob job && errors.any fun entry ↦ entry.1.name = job.name
  else pure false

/-- Saves the retries that succeeded, so that they are not made again. -/
def persistRetries (mrIid : ℕ) (updated : List (String × ℕ))
    (answers : List (Job × Except PyError Job)) : Prog Unit :=
  if (succeeded answers).isEmpty then pure ()
  else writeTesting settings mrIid { retriedJobs := some updated }

def handleRetryApiFailures (mrIid : ℕ) (pipeline : Pipeline) (updated : List (String × ℕ))
    (answers : List (Job × Except PyError Job)) (first : PyError) :
    Prog (Option RetrySignal) := do
  let errors := retryErrors answers
  let external ← retriedExternally pipeline.id errors
  if external then do
    let now ← Prog.now
    return some { retriedJobs := updated, newStartTime := some now }
  else do
    persistRetries settings mrIid updated answers
    MRStateMachine.triggerPipelineFailed settings (errors.map fun entry ↦ entry.1.name) updated
      ("Failed to retry jobs via API: " ++ first.text)
    return none

/-- Retries jobs; no signal means that the pipeline has failed. -/
def dispatchJobRetries (mrIid : ℕ) (pipeline : Pipeline) (jobsToRetry : List Job)
    (retriedJobs : List (String × ℕ)) (maxJobRetries : ℕ) : Prog (Option RetrySignal) := do
  let answers ← retryJobs jobsToRetry
  let updated := tallyRetryResults answers retriedJobs
  match (retryErrors answers).head? with
  | some (_, first) => handleRetryApiFailures settings mrIid pipeline updated answers first
  | none => do
      writeTesting settings mrIid { retriedJobs := some updated }
      let pipelineUrl ← MRNotifier.buildPipelineUrl pipeline.id
      MRStateMachine.notifyJobRetry settings pipeline.id pipelineUrl
        (fromkeys (jobsToRetry.map Job.name)) updated maxJobRetries
      let now ← Prog.now
      return some { retriedJobs := updated, newStartTime := some now }

/-- The jobs of a failed pipeline, unless their absence has failed it. -/
def fetchPipelineJobs (pipeline : Pipeline) (retriedJobs : List (String × ℕ)) :
    Prog (Option (List Job)) := do
  let fetched : Except PyError (List Job) ←
    catching PyError.isException
      (do
        let jobs : List Job ← Prog.gitlab (.getPipelineJobs pipeline.id)
        return .ok jobs)
      fun e ↦ pure (.error e)
  match fetched with
  | .error e => do
      MRStateMachine.triggerPipelineFailed settings [] retriedJobs
        (if e.isGitLab then "Failed to fetch jobs: " ++ e.text
        else "Unexpected error fetching jobs: " ++ e.text)
      return none
  | .ok jobs =>
      if jobs.isEmpty then do
        MRStateMachine.triggerPipelineFailed settings [] retriedJobs
          "Pipeline failed but no jobs found (possible API issue)"
        return none
      else return some jobs

def handleNoFailedJobs (jobs : List Job) (retriedJobs : List (String × ℕ)) :
    Prog (Option RetrySignal) :=
  if jobs.any isActiveJob then pure (some { retriedJobs, newStartTime := none })
  else do
    let canceled := (jobs.filter fun job ↦ job.status = .canceled).map Job.name
    MRStateMachine.triggerPipelineFailed settings [] retriedJobs
      (if canceled.isEmpty then "Pipeline failed but no retryable jobs found"
      else s!"Pipeline failed: {canceled.length} canceled job(s) found: {listText canceled}")
    return none

def handlePipelineFailureRetry (mrIid : ℕ) (pipeline : Pipeline)
    (retriedJobs : List (String × ℕ)) : Prog (Option RetrySignal) := do
  match ← fetchPipelineJobs settings pipeline retriedJobs with
  | none => return none
  | some jobs =>
      let failedJobs := jobs.filter fun job ↦ job.status = .failed
      if failedJobs.isEmpty then handleNoFailedJobs settings jobs retriedJobs
      else
        let (jobsToRetry, exhausted) :=
          classifyFailedJobs failedJobs retriedJobs settings.jobRetryCount
        if exhausted.isEmpty then
          dispatchJobRetries settings mrIid pipeline jobsToRetry retriedJobs settings.jobRetryCount
        else do
          MRStateMachine.triggerPipelineFailed settings exhausted retriedJobs
            (s!"Jobs failed after {settings.jobRetryCount} retry attempt(s): " ++
              listText exhausted)
          return none

/-! ## The status of a pipeline -/

/-- Ends the loop, goes on after a retry, or goes on as before. -/
inductive StatusResult
  | result (result : ProcessingResult)
  | retry (signal : RetrySignal)
  | wait
  deriving DecidableEq, Repr

def handlePipelineFailure (mrIid : ℕ) (pipeline : Pipeline) (retriedJobs : List (String × ℕ)) :
    Prog StatusResult := do
  let item ← Prog.getQueueItem settings.gitlabProjectId mrIid
  let saved := (item.map QueueItem.retriedJobs).getD []
  let retriedJobs := saved.foldl
    (fun counts entry ↦ setCount counts entry.1 (max (countOf counts entry.1) entry.2)) retriedJobs
  match ← handlePipelineFailureRetry settings mrIid pipeline retriedJobs with
  | some signal => return .retry signal
  | none => return .result .pipelineFailed

/-- The newest active pipeline on the expected head that replaces a canceled one. -/
def replacement (pipelines : List Pipeline) (pipelineId : ℕ) (expectedSha : String) :
    Option Pipeline :=
  (pipelines.filter fun p ↦
    decide (pipelineId < p.id) && p.sha = expectedSha && p.status ≠ .canceled &&
      p.status ≠ .failed).argmax Pipeline.id

def trySwitchToReplacementPipeline (mrIid : ℕ) (pipeline : Pipeline) : Prog Bool := do
  let item ← Prog.getQueueItem settings.gitlabProjectId mrIid
  match (item.bind QueueItem.expectedSha).filter (· ≠ "") with
  | none => return false
  | some expectedSha => do
      let pipelines : List Pipeline ← Prog.gitlab (.getMrPipelines mrIid)
      match replacement pipelines pipeline.id expectedSha with
      | none => return false
      | some best => do
          writeTesting settings mrIid { pipelineId := some (some best.id), retriedJobs := some [] }
          return true

/-- The jobs that canceled the pipeline, or nothing where GitLab does not tell. -/
def getCanceledPipelineFailedJobs (pipeline : Pipeline) : Prog (List String) :=
  catching PyError.isGitLab
    (do
      let jobs : List Job ← Prog.gitlab (.getPipelineJobs pipeline.id)
      return (jobs.filter fun job ↦ job.status = .failed || job.status = .canceled).map Job.name)
    fun _ ↦ pure []

/-- A head that the row expects and that is not the pipeline's. -/
def shaMismatch (item : Option QueueItem) (pipeline : Pipeline) : Bool :=
  (item.bind QueueItem.expectedSha).any fun sha ↦ sha ≠ "" && sha ≠ pipeline.sha

def handleSuccess (mrIid : ℕ) (pipeline : Pipeline) : Prog StatusResult := do
  let item ← Prog.getQueueItem settings.gitlabProjectId mrIid
  if shaMismatch item pipeline then return .wait
  else do
    MRStateMachine.triggerPipelineSuccess settings
    return .result .success

def handleCanceled (mrIid : ℕ) (pipeline : Pipeline) (retriedJobs : List (String × ℕ)) :
    Prog StatusResult := do
  let switched ← trySwitchToReplacementPipeline settings mrIid pipeline
  if switched then return .wait
  else do
    let failedJobs ← getCanceledPipelineFailedJobs pipeline
    MRStateMachine.triggerPipelineFailed settings failedJobs retriedJobs
      (if failedJobs.isEmpty then "Pipeline was canceled"
      else "Pipeline canceled due to failed jobs: " ++ String.intercalate ", " failedJobs)
    return .result .pipelineFailed

/-- The name of a status that only a manual action can change. -/
def nonActionable : PipelineStatus → Option String
  | .skipped => some "skipped"
  | .other "manual" => some "manual"
  | .other "waiting_for_resource" => some "waiting_for_resource"
  | .other "blocked" => some "blocked"
  | _ => none

def handlePipelineStatus (mrIid : ℕ) (pipeline : Pipeline) (retriedJobs : List (String × ℕ)) :
    Prog StatusResult :=
  match pipeline.status with
  | .success => handleSuccess settings mrIid pipeline
  | .canceled => handleCanceled settings mrIid pipeline retriedJobs
  | .failed => handlePipelineFailure settings mrIid pipeline retriedJobs
  | status =>
      match nonActionable status with
      | none => pure .wait
      | some name => do
          MRStateMachine.triggerPipelineFailed settings [] retriedJobs
            s!"Pipeline status is '{name}' - requires manual intervention"
          return .result .pipelineFailed

/-! ## The loop -/

/-- A pipeline that is not tracked any more, or will not go on. -/
def isDead (status : PipelineStatus) : Bool :=
  status = .canceled || status = .failed || status = .other "canceling"

/-- A pipeline with a result is looked at once more after the timeout. -/
def hasLastChance (mrIid : ℕ) (state : PipelineWaitState) : Prog Bool :=
  if state.timeoutLastChanceUsed then pure false
  else do
    let pipeline : Option Pipeline ← Prog.gitlab (.getLatestMrPipeline mrIid)
    return pipeline.any fun p ↦ isDead p.status

def checkPipelineTerminationConditions (mrIid : ℕ) (state : PipelineWaitState) :
    Prog (PipelineWaitState × Option ProcessingResult) := do
  let stopping ← Prog.await .shutdownRequested
  if stopping then return (state, some .error)
  else do
    let now ← Prog.now
    if expired state.startTime now settings.pipelineTimeoutSeconds then do
      let lastChance ← hasLastChance mrIid state
      if lastChance then return ({ state with timeoutLastChanceUsed := true }, none)
      else do
        MRStateMachine.triggerTimeout settings (max 1 (settings.pipelineTimeoutSeconds / 3600))
        return (state, some .timeout)
    else
      match ← verifyMrInQueue settings mrIid with
      | some reason => do
          MRStateMachine.triggerMarkRemoved settings reason
          return (state, some .removed)
      | none => return (state, none)

/-- The pipeline runs on the expected head and is newer than the tracked one. -/
def replaces (item : QueueItem) (pipelineId : ℕ) (sha : String) (tracked : ℕ) : Bool :=
  item.expectedSha = some sha && decide (tracked < pipelineId)

def staleCheck (item : QueueItem) (pipeline : Pipeline) : StaleCheckResult :=
  match item.pipelineId with
  | some tracked =>
      if tracked ≠ pipeline.id then
        if replaces item pipeline.id pipeline.sha tracked then .switched else .skip
      else if item.expectedSha.any (· ≠ pipeline.sha) then .skip
      else .ok
  | none => if item.expectedSha.any (· ≠ pipeline.sha) then .skip else .ok

def checkStalePipeline (mrIid : ℕ) (pipeline : Pipeline) : Prog StaleCheckResult := do
  let item ← Prog.getQueueItem settings.gitlabProjectId mrIid
  return (item.map fun item ↦ staleCheck item pipeline).getD .ok

def resetPipelineWaitState (state : PipelineWaitState) : Prog PipelineWaitState := do
  let now ← Prog.now
  return { state with startTime := now, retriedJobs := [], canceledSeenCount := 0 }

/-- Adopts the newer pipeline when the tracked one is dead. -/
def tryRecoverFromStaleSkip (mrIid : ℕ) (pipeline : Pipeline) (state : PipelineWaitState) :
    Prog PipelineWaitState := do
  let item ← Prog.getQueueItem settings.gitlabProjectId mrIid
  match (item.bind QueueItem.pipelineId).filter (· < pipeline.id) with
  | none => return state
  | some trackedId => do
      let tracked : Pipeline ← Prog.gitlab (.getPipelineStatus trackedId)
      if isDead tracked.status then do
        writeTesting settings mrIid
          { pipelineId := some (some pipeline.id)
            expectedSha := some (some pipeline.sha)
            retriedJobs := some [] }
        resetPipelineWaitState state
      else return state

/-- Some polls pass before a canceled pipeline counts. -/
def applyCanceledGracePeriod (state : PipelineWaitState) (pipeline : Pipeline) :
    PipelineWaitState × Bool :=
  if pipeline.status = .canceled ∨ pipeline.status = .other "canceling" then
    ({ state with canceledSeenCount := state.canceledSeenCount + 1 },
      decide (state.canceledSeenCount + 1 ≤ 3))
  else ({ state with canceledSeenCount := 0 }, false)

def applyRebaseOutcome (mrIid : ℕ) (state : PipelineWaitState) (outcome : RebaseCheckOutcome) :
    Prog (PipelineWaitState × Option ProcessingResult) :=
  match outcome.result, outcome.context with
  | some result, _ => pure (state, some result)
  | none, none => pure (state, none)
  | none, some ctx =>
      if outcome.shouldReset then do
        writeTesting settings mrIid { retriedJobs := some [] }
        let now ← Prog.now
        return ({ state with rebaseCtx := ctx, retriedJobs := [], startTime := now }, none)
      else pure ({ state with rebaseCtx := ctx }, none)

/-- Acts on a pipeline that is the expected one. -/
def followPipeline (mrIid : ℕ) (pipeline : Pipeline) (state : PipelineWaitState) :
    Prog (PipelineWaitState × Option ProcessingResult) :=
  let (state, grace) := applyCanceledGracePeriod state pipeline
  if grace then pure (state, none)
  else do
    match ← handlePipelineStatus settings mrIid pipeline state.retriedJobs with
    | .wait => return (state, none)
    | .result result => return (state, some result)
    | .retry signal =>
        return (
          { state with
            retriedJobs := signal.retriedJobs
            startTime := signal.newStartTime.getD state.startTime },
          none)

/-- One poll, once the latest pipeline is known. -/
def processPipeline (mrIid : ℕ) (pipeline : Pipeline) (state : PipelineWaitState) :
    Prog (PipelineWaitState × Option ProcessingResult) := do
  let state :=
    { state with rebaseCtx := { state.rebaseCtx with currentPipelineId := some pipeline.id } }
  let outcome ← RebaseCoordinator.maybeRebaseDuringTesting settings mrIid state pipeline
  let (state, ended) ←
    applyRebaseOutcome settings mrIid { state with lastRebaseCheck := outcome.lastCheck } outcome
  match ended with
  | some result => return (state, some result)
  | none =>
      match ← checkStalePipeline settings mrIid pipeline with
      | .skip => do
          let state ← tryRecoverFromStaleSkip settings mrIid pipeline state
          return (state, none)
      | .switched => do
          writeTesting settings mrIid
            { pipelineId := some (some pipeline.id), retriedJobs := some [] }
          let state ← resetPipelineWaitState state
          return (state, none)
      | .ok => followPipeline settings mrIid pipeline state

def processPipelineIteration (mrIid : ℕ) (state : PipelineWaitState) :
    Prog (PipelineWaitState × Option ProcessingResult) := do
  let (state, ended) ← checkPipelineTerminationConditions settings mrIid state
  match ended with
  | some result => return (state, some result)
  | none => do
      let pipeline : Option Pipeline ← Prog.gitlab (.getLatestMrPipeline mrIid)
      match pipeline with
      | none => return (state, none)
      | some pipeline => processPipeline settings mrIid pipeline state

def initPipelineWaitState (mrIid : ℕ) : Prog PipelineWaitState := do
  let item ← Prog.getQueueItem settings.gitlabProjectId mrIid
  let startTime ← Prog.now
  let lastRebaseCheck ← Prog.now
  return {
    retriedJobs := (item.map QueueItem.retriedJobs).getD []
    startTime
    rebaseCtx := { maxAttempts := settings.maxRebaseDuringTesting }
    lastRebaseCheck }

def pipelineRound (mrIid : ℕ) (state : PipelineWaitState) :
    Prog (PipelineWaitState ⊕ ProcessingResult) := do
  let (state, ended) ← processPipelineIteration settings mrIid state
  match ended with
  | some result => return .inr result
  | none => do
      let _ ← Prog.await (.sleep (.poll settings.pipelinePollIntervalSeconds))
      return .inl state

def waitForPipeline (mrIid : ℕ) : Prog ProcessingResult := do
  let state ← initPipelineWaitState settings mrIid
  Program.loop (pipelineRound settings mrIid) settings.rounds state

end PipelineHandler

end MergeQueue
