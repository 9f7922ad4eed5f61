import MergeQueue.StateMachine

/-!
# Rebasing a merge request

Polling of GitLab, the check that a merge request still wants to be merged, and the
rebase that moves it on to testing.
-/

namespace MergeQueue

open Interleave (Program)

/-! ## Polling -/

inductive PollOutcome (α : Type)
  | completed (result : α)
  | timedOut
  | shutdownRequested
  deriving DecidableEq, Repr

/-- More than `timeoutSeconds` have passed since `start`. -/
def expired (start now : ℤ) (timeoutSeconds : ℕ) : Bool :=
  decide (timeoutSeconds * 1000000 < now - start)

/-- One round of `poll_until_done`. -/
def pollRound {α : Type} (start : ℤ) (timeoutSeconds interval : ℕ) (pollFn : Prog (Option α)) :
    Prog (Unit ⊕ PollOutcome α) := do
  let stopping ← Prog.await .shutdownRequested
  if stopping then return .inr .shutdownRequested
  else do
    let before ← Prog.now
    if expired start before timeoutSeconds then return .inr .timedOut
    else
      match ← pollFn with
      | some result => return .inr (.completed result)
      | none => do
          let after ← Prog.now
          if expired start after timeoutSeconds then return .inr .timedOut
          else do
            let slept ← Prog.await (.sleep (.poll interval))
            if slept then return .inl () else return .inr .shutdownRequested

def pollUntilDone {α : Type} (settings : Settings) (timeoutSeconds interval : ℕ)
    (pollFn : Prog (Option α)) : Prog (PollOutcome α) := do
  let start ← Prog.now
  Program.loop (fun _ ↦ pollRound start timeoutSeconds interval pollFn) settings.rounds ()

/-- `except` clauses for one class of the GitLab errors. -/
def catching {α : Type} (handles : PyError → Bool) (p : Prog α) (handler : PyError → Prog α) :
    Prog α :=
  tryCatch p fun e ↦ if handles e then handler e else throw e

/-- The text of a list of names. -/
def listText (names : List String) : String :=
  "[" ++ String.intercalate ", " (names.map fun name ↦ "'" ++ name ++ "'") ++ "]"

/-! ## Checks on the merge request -/

/-- Whether the merge request may be merged, or why it leaves the queue. -/
def verifyMrInQueue (settings : Settings) (mrIid : ℕ) : Prog (Option RemovalReason) :=
  catching (PyError.isKind .notFound)
    (do
      let mr : MergeRequest ← Prog.gitlab (.getMr mrIid false)
      if mr.state ≠ .opened then
        if mr.state = .merged then do
          catching PyError.isException
            (do
              let _ ← Prog.gitlab (.removeMrLabel mrIid [settings.queueLabel])
              return ())
            fun _ ↦ pure ()
          return some .externalMerge
        else return some .closed
      else if settings.queueLabel ∉ mr.labels ∧ settings.hotfixLabel ∉ mr.labels then
        return some .labelRemoved
      else return none)
    fun _ ↦ pure (some .notFound)

/-- The text of a rebase conflict. -/
def conflictText (conflictPrefix : String) (mergeError : Option String) : String :=
  match mergeError with
  | some "" | none => conflictPrefix
  | some message => s!"{conflictPrefix} ({message})"

def checkRebaseDone (mrIid : ℕ) (conflictPrefix : String) : Prog (Option Unit) := do
  let (rebaseInProgress, hasConflicts, mergeError) ← Prog.gitlab (.checkRebaseStatus mrIid)
  if hasConflicts then throw (.api .conflict (conflictText conflictPrefix mergeError))
  else if rebaseInProgress then return none
  else return some ()

/-- Waits until GitLab is done with a rebase. -/
def waitForRebaseCompletion (settings : Settings) (mrIid timeoutSeconds interval : ℕ)
    (conflictPrefix timeoutMessage shutdownMessage : String) : Prog Unit := do
  let outcome ← pollUntilDone settings timeoutSeconds interval
    (checkRebaseDone mrIid conflictPrefix)
  match outcome with
  | .completed () => pure ()
  | .shutdownRequested => throw (.api .api shutdownMessage)
  | .timedOut => throw (.api .api timeoutMessage)

inductive ProcessingResult
  | success
  | conflict
  | pipelineFailed
  | mergeFailed
  | timeout
  | removed
  | error
  deriving DecidableEq, Repr

/-- What is known of the branch before a rebase. -/
structure RebaseContext where
  oldSha : String := ""
  oldPipelineId : Option ℕ := none
  deriving DecidableEq, Repr

namespace RebaseHandler

variable (settings : Settings)

def rebasePollIntervalSeconds : ℕ := 5

/-- The statuses of a pipeline that the testing phase can follow to a result. -/
def reusable : PipelineStatus → Bool
  | .success | .running | .pending | .other "created" | .other "preparing" => true
  | _ => false

def isUpToDate (mr : MergeRequest) : Bool :=
  mr.divergedCommitsCount = some 0 && mr.sha ≠ "" && !mr.hasConflicts && !mr.rebaseInProgress &&
    mr.detailedMergeStatus ≠ some "need_rebase"

/-- Looks once for a pipeline on the new head of the branch. -/
def checkPostRebasePipeline (mrIid : ℕ) (old : RebaseContext) :
    Prog (Option (Option Pipeline × String)) := do
  let mr : MergeRequest ← Prog.gitlab (.getMr mrIid false)
  if mr.rebaseInProgress ∨ mr.sha = old.oldSha then return none
  else do
    let pipeline : Option Pipeline ← Prog.gitlab (.getLatestMrPipeline mrIid)
    match pipeline with
    | none => return none
    | some pipeline =>
        if some pipeline.id = old.oldPipelineId then return none
        else if pipeline.sha = mr.sha then return some (some pipeline, mr.sha)
        else return none

/-- Waits for a pipeline on the new head of the branch. -/
def waitForPostRebasePipeline (mrIid : ℕ) (old : RebaseContext) :
    Prog (Option Pipeline × String) := do
  let outcome ← pollUntilDone settings settings.postRebasePipelineWaitSeconds
    settings.pipelinePollIntervalSeconds (checkPostRebasePipeline mrIid old)
  match outcome with
  | .completed result => pure result
  | .shutdownRequested => pure (none, old.oldSha)
  | .timedOut => do
      let mr : MergeRequest ← Prog.gitlab (.getMr mrIid false)
      if mr.sha = old.oldSha then return (none, old.oldSha)
      else do
        let pipeline : Option Pipeline ← Prog.gitlab (.getLatestMrPipeline mrIid)
        return (pipeline.filter fun p ↦ p.sha = mr.sha, mr.sha)

/-- Starts a pipeline; no result means that GitLab should be asked again. -/
def tryCreatePipeline (sourceBranch newSha : String) (fallbackPipelineId : Option ℕ) :
    Prog (Option (Pipeline × String)) :=
  catching PyError.isGitLab
    (do
      let pipeline : Pipeline ← Prog.gitlab (.createPipeline sourceBranch)
      return some (pipeline, newSha))
    fun e ↦
      if e.isKind .server then pure none
      else
        match fallbackPipelineId with
        | none => throw e
        | some id =>
            catching (PyError.isKind .server)
              (do
                let retried : Pipeline ← Prog.gitlab (.retryPipeline id)
                return some (retried, newSha))
              fun _ ↦ pure none

/-- The pipeline that tests a head which did not change. -/
def resolveCurrentPipeline (mr : MergeRequest) (pipeline : Option Pipeline) :
    Prog (Option (Pipeline × String)) :=
  let current := pipeline.filter fun p ↦ p.sha = mr.sha
  match current.filter fun p ↦ reusable p.status with
  | some pipeline => pure (some (pipeline, mr.sha))
  | none => do
      let result ← tryCreatePipeline mr.sourceBranch mr.sha (current.map Pipeline.id)
      return result.filter fun entry ↦ entry.1.sha = mr.sha

def enterTesting (pipeline : Pipeline) (sha : String) : Prog Unit := do
  let pipelineUrl ← MRNotifier.buildPipelineUrl pipeline.id
  MRStateMachine.triggerRebaseComplete settings pipeline.id pipelineUrl sha

/-- Reads the merge request again and looks for its pipeline. -/
def checkReusePipeline (mrIid : ℕ) : Prog (Option (Pipeline × String)) := do
  let mr : MergeRequest ← Prog.gitlab (.getMr mrIid false)
  let pipeline : Option Pipeline ← Prog.gitlab (.getLatestMrPipeline mrIid)
  resolveCurrentPipeline mr pipeline

def startTestingWithoutRebase (mrIid : ℕ) (mr : MergeRequest) (pipeline : Option Pipeline) :
    Prog ProcessingResult := do
  match ← resolveCurrentPipeline mr pipeline with
  | some (pipeline, sha) => do
      enterTesting settings pipeline sha
      return .success
  | none => do
      let outcome ← pollUntilDone settings settings.postRebasePipelineWaitSeconds
        settings.pipelinePollIntervalSeconds (checkReusePipeline mrIid)
      match outcome with
      | .completed (pipeline, sha) => do
          enterTesting settings pipeline sha
          return .success
      | .shutdownRequested => return .error
      | .timedOut => throw (.api .api s!"Could not start pipeline for up-to-date MR !{mrIid}")

/-- The rebase is over: moves on to testing, or asks again. -/
def afterRebase (mrIid : ℕ) (old : RebaseContext) : Prog (Option ProcessingResult) := do
  let (pipeline, newSha) ← waitForPostRebasePipeline settings mrIid old
  match pipeline with
  | some pipeline => do
      enterTesting settings pipeline newSha
      return some .success
  | none =>
      if newSha = old.oldSha then do
        let stopping ← Prog.await .shutdownRequested
        if stopping then return none
        else do
          let mr : MergeRequest ← Prog.gitlab (.getMr mrIid false)
          let current : Option Pipeline ← Prog.gitlab (.getLatestMrPipeline mrIid)
          let result ← startTestingWithoutRebase settings mrIid mr current
          return some result
      else return none

def checkRebase (mrIid : ℕ) (old : RebaseContext) : Prog (Option ProcessingResult) := do
  let (rebaseInProgress, hasConflicts, mergeError) ← Prog.gitlab (.checkRebaseStatus mrIid)
  if hasConflicts then do
    let conflictedFiles : List String ← Prog.gitlab (.getMrConflicts mrIid)
    MRStateMachine.triggerRebaseFailed settings conflictedFiles
      ((mergeError.filter (· ≠ "")).getD "Rebase failed due to merge conflicts")
    return some .conflict
  else if rebaseInProgress then return none
  else afterRebase settings mrIid old

def waitForRebase (mrIid : ℕ) (old : RebaseContext) : Prog ProcessingResult := do
  let outcome ← pollUntilDone settings settings.rebaseTimeoutSeconds rebasePollIntervalSeconds
    (checkRebase settings mrIid old)
  match outcome with
  | .completed result => return result
  | .shutdownRequested => return .error
  | .timedOut => do
      MRStateMachine.triggerTimeout settings (max 1 (settings.rebaseTimeoutSeconds / 3600))
      return .timeout

/-- Asks GitLab for a rebase; a conflict ends the lifecycle. -/
def initiateRebase (mrIid : ℕ) : Prog (Option ProcessingResult) :=
  catching (PyError.isKind .conflict)
    (do
      let _ ← Prog.gitlab (.rebaseMr mrIid)
      return none)
    fun e ↦ do
      let conflictedFiles : List String ← Prog.gitlab (.getMrConflicts mrIid)
      MRStateMachine.triggerRebaseFailed settings conflictedFiles e.text
      return some .conflict

def capturePreRebaseState (mrIid : ℕ) : Prog (MergeRequest × Option Pipeline) := do
  let mr : MergeRequest ← Prog.gitlab (.getMr mrIid true)
  let pipeline : Option Pipeline ← Prog.gitlab (.getLatestMrPipeline mrIid)
  return (mr, pipeline)

def processRebase (mrIid : ℕ) : Prog ProcessingResult := do
  let (mr, pipeline) ← capturePreRebaseState mrIid
  let old : RebaseContext := { oldSha := mr.sha, oldPipelineId := pipeline.map Pipeline.id }
  if isUpToDate mr then startTestingWithoutRebase settings mrIid mr pipeline
  else if mr.rebaseInProgress then waitForRebase settings mrIid old
  else
    match ← initiateRebase settings mrIid with
    | some result => return result
    | none => waitForRebase settings mrIid old

end RebaseHandler

end MergeQueue
