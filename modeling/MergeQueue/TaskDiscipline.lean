import MergeQueue.LockDiscipline

/-!
# The tasks keep the order of the locks

The workflow of the processor, the sync of the scheduler and the handlers of the webhooks,
each from its smallest part to the whole.
-/

namespace MergeQueue

open Interleave (LockUse Program)
open Interleave.Program (Nests)

/-! ## Polling -/

section Polling

variable {settings : Settings} {given : Learnt} {α : Type}

theorem orderly_loop {τ : Type} {body : τ → Prog (τ ⊕ α)}
    (h : ∀ t, (body t).Orderly settings given 0) (rounds : ℕ) (t : τ) :
    Prog.Orderly settings given 0 (Program.loop body rounds t) := by
  refine Nests.loop (fun t (_ : True) ↦ (h t).mono fun next _ ↦ ?_) rounds trivial
  cases next with
  | inl t => exact trivial
  | inr a => exact trivial

theorem orderly_pollUntilDone {timeoutSeconds interval : ℕ} {pollFn : Prog (Option α)}
    (h : pollFn.Orderly settings given 0) :
    (pollUntilDone settings timeoutSeconds interval pollFn).Orderly settings given 0 := by
  have hround (start : ℤ) :
      (pollRound start timeoutSeconds interval pollFn).Orderly settings given 0 := by
    refine Nests.bind (orderly_await trivial rfl) fun stopping _ ↦ ?_
    split_ifs
    · exact Nests.ret trivial
    · refine Nests.bind orderly_now fun before _ ↦ ?_
      split_ifs
      · exact Nests.ret trivial
      · refine Nests.bind h fun polled _ ↦ ?_
        cases polled with
        | some result => exact Nests.ret trivial
        | none =>
            refine Nests.bind orderly_now fun after _ ↦ ?_
            split_ifs
            · exact Nests.ret trivial
            · refine Nests.bind (orderly_await trivial rfl) fun slept _ ↦ ?_
              split_ifs
              · exact Nests.ret trivial
              · exact Nests.ret trivial
  exact Nests.bind orderly_now fun start _ ↦ orderly_loop (fun _ ↦ hround start) _ _

end Polling

/-! ## Rebasing -/

section Checks

variable {settings : Settings} {given : Learnt}

theorem orderly_verifyMrInQueue (mrIid : ℕ) :
    (verifyMrInQueue settings mrIid).Orderly settings given 0 := by
  refine orderly_catching (Nests.bind (orderly_await trivial rfl) fun mr _ ↦ ?_)
    fun _ ↦ Nests.ret trivial
  split_ifs
  · refine orderly_return (orderly_catching ?_ fun _ ↦ Nests.ret trivial)
    exact orderly_return (orderly_await trivial rfl)
  · exact Nests.ret trivial
  · exact Nests.ret trivial
  · exact Nests.ret trivial

theorem orderly_waitForRebaseCompletion (mrIid timeoutSeconds interval : ℕ)
    (conflictPrefix timeoutMessage shutdownMessage : String) :
    (waitForRebaseCompletion settings mrIid timeoutSeconds interval conflictPrefix timeoutMessage
      shutdownMessage).Orderly settings given 0 := by
  refine Nests.bind (orderly_pollUntilDone ?_) fun outcome _ ↦ ?_
  · refine Nests.bind (orderly_await trivial rfl) fun status _ ↦ ?_
    simp only
    split_ifs
    · exact Nests.throw _
    · exact Nests.ret trivial
    · exact Nests.ret trivial
  · cases outcome with
    | completed => exact Nests.ret trivial
    | shutdownRequested => exact Nests.throw _
    | timedOut => exact Nests.throw _

end Checks

namespace RebaseHandler

variable {settings : Settings} {given : Learnt}

theorem orderly_waitForPostRebasePipeline (mrIid : ℕ) (old : RebaseContext) :
    (waitForPostRebasePipeline settings mrIid old).Orderly settings given 0 := by
  refine Nests.bind (orderly_pollUntilDone ?_) fun outcome _ ↦ ?_
  · refine Nests.bind (orderly_await trivial rfl) fun mr _ ↦ ?_
    split_ifs
    · exact Nests.ret trivial
    · refine Nests.bind (orderly_await trivial rfl) fun pipeline _ ↦ ?_
      cases pipeline with
      | none => exact Nests.ret trivial
      | some pipeline =>
          simp only
          split_ifs
          · exact Nests.ret trivial
          · exact Nests.ret trivial
          · exact Nests.ret trivial
  · cases outcome with
    | completed result => exact Nests.ret trivial
    | shutdownRequested => exact Nests.ret trivial
    | timedOut =>
        refine Nests.bind (orderly_await trivial rfl) fun mr _ ↦ ?_
        split_ifs
        · exact Nests.ret trivial
        · exact orderly_return (orderly_await trivial rfl)

theorem orderly_tryCreatePipeline (sourceBranch newSha : String)
    (fallbackPipelineId : Option ℕ) :
    (tryCreatePipeline sourceBranch newSha fallbackPipelineId).Orderly settings given 0 := by
  refine orderly_catching (orderly_return (orderly_await trivial rfl)) fun e ↦ ?_
  split_ifs
  · exact Nests.ret trivial
  · cases fallbackPipelineId with
    | none => exact Nests.throw _
    | some id =>
        exact orderly_catching (orderly_return (orderly_await trivial rfl))
          fun _ ↦ Nests.ret trivial

theorem orderly_resolveCurrentPipeline (mr : MergeRequest) (pipeline : Option Pipeline) :
    (resolveCurrentPipeline mr pipeline).Orderly settings given 0 := by
  unfold resolveCurrentPipeline
  simp only
  split
  · exact Nests.ret trivial
  · exact orderly_return (orderly_tryCreatePipeline _ _ _)

theorem orderly_enterTesting (pipeline : Pipeline) (sha : String) :
    (enterTesting settings pipeline sha).Orderly settings given 0 :=
  Nests.bind (MRNotifier.orderly_buildPipelineUrl _) fun _ _ ↦
    MRStateMachine.orderly_trigger _ _

theorem orderly_startTestingWithoutRebase (mrIid : ℕ) (mr : MergeRequest)
    (pipeline : Option Pipeline) :
    (startTestingWithoutRebase settings mrIid mr pipeline).Orderly settings given 0 := by
  refine Nests.bind (orderly_resolveCurrentPipeline _ _) fun found _ ↦ ?_
  cases found with
  | some found => exact orderly_return (orderly_enterTesting _ _)
  | none =>
      refine Nests.bind (orderly_pollUntilDone ?_) fun outcome _ ↦ ?_
      · refine Nests.bind (orderly_await trivial rfl) fun mr _ ↦ ?_
        exact Nests.bind (orderly_await trivial rfl) fun pipeline _ ↦
          orderly_resolveCurrentPipeline _ _
      · cases outcome with
        | completed found => exact orderly_return (orderly_enterTesting _ _)
        | shutdownRequested => exact Nests.ret trivial
        | timedOut => exact Nests.throw _

theorem orderly_afterRebase (mrIid : ℕ) (old : RebaseContext) :
    (afterRebase settings mrIid old).Orderly settings given 0 := by
  refine Nests.bind (orderly_waitForPostRebasePipeline _ _) fun out _ ↦ ?_
  obtain ⟨pipeline, newSha⟩ := out
  cases pipeline with
  | some pipeline => exact orderly_return (orderly_enterTesting _ _)
  | none =>
      simp only
      split_ifs
      · refine Nests.bind (orderly_await trivial rfl) fun stopping _ ↦ ?_
        split_ifs
        · exact Nests.ret trivial
        · refine Nests.bind (orderly_await trivial rfl) fun mr _ ↦ ?_
          refine Nests.bind (orderly_await trivial rfl) fun current _ ↦ ?_
          exact orderly_return (orderly_startTestingWithoutRebase _ _ _)
      · exact Nests.ret trivial

theorem orderly_waitForRebase (mrIid : ℕ) (old : RebaseContext) :
    (waitForRebase settings mrIid old).Orderly settings given 0 := by
  refine Nests.bind (orderly_pollUntilDone ?_) fun outcome _ ↦ ?_
  · refine Nests.bind (orderly_await trivial rfl) fun status _ ↦ ?_
    obtain ⟨inProgress, hasConflicts, mergeError⟩ := status
    simp only
    split_ifs
    · refine Nests.bind (orderly_await trivial rfl) fun files _ ↦ ?_
      exact orderly_return (MRStateMachine.orderly_trigger _ _)
    · exact Nests.ret trivial
    · exact orderly_afterRebase _ _
  · cases outcome with
    | completed result => exact Nests.ret trivial
    | shutdownRequested => exact Nests.ret trivial
    | timedOut => exact orderly_return (MRStateMachine.orderly_triggerTimeout _)

theorem orderly_processRebase (mrIid : ℕ) :
    (processRebase settings mrIid).Orderly settings given 0 := by
  have hcapture : (capturePreRebaseState mrIid).Orderly settings given 0 :=
    Nests.bind (orderly_await trivial rfl) fun _ _ ↦ orderly_return (orderly_await trivial rfl)
  have hinitiate : (initiateRebase settings mrIid).Orderly settings given 0 := by
    refine orderly_catching (orderly_return (orderly_await trivial rfl)) fun e ↦ ?_
    refine Nests.bind (orderly_await trivial rfl) fun files _ ↦ ?_
    exact orderly_return (MRStateMachine.orderly_trigger _ _)
  refine Nests.bind hcapture fun before _ ↦ ?_
  obtain ⟨mr, pipeline⟩ := before
  simp only
  split_ifs
  · exact orderly_startTestingWithoutRebase _ _ _
  · exact orderly_waitForRebase _ _
  · refine Nests.bind hinitiate fun out _ ↦ ?_
    cases out with
    | some result => exact Nests.ret trivial
    | none => exact orderly_waitForRebase _ _

end RebaseHandler

/-! ## Waiting for the pipeline -/

namespace RebaseCoordinator

variable {settings : Settings} {given : Learnt}

theorem orderly_waitForNewPipeline (mrIid : ℕ) (oldSha : String) (oldPipelineId : Option ℕ) :
    (RebaseDuringTestingHandler.waitForNewPipeline settings mrIid oldSha oldPipelineId).Orderly
      settings given 0 := by
  refine Nests.bind (orderly_pollUntilDone ?_) fun outcome _ ↦ ?_
  · refine Nests.bind (orderly_await trivial rfl) fun mr _ ↦ ?_
    split_ifs
    · exact orderly_return (orderly_await trivial rfl)
    · exact Nests.ret trivial
  · cases outcome with
    | completed pipeline => exact Nests.ret trivial
    | shutdownRequested => exact Nests.ret trivial
    | timedOut =>
        refine Nests.bind (orderly_await trivial rfl) fun mr _ ↦ ?_
        exact orderly_return (orderly_await trivial rfl)

theorem orderly_rebaseAgain (mrIid : ℕ) (ctx : RebaseDuringTestingContext) :
    (RebaseDuringTestingHandler.rebaseAgain settings mrIid ctx).Orderly settings given 0 := by
  have hcancel :
      (RebaseDuringTestingHandler.cancelCurrentPipeline ctx).Orderly settings given 0 := by
    unfold RebaseDuringTestingHandler.cancelCurrentPipeline
    cases ctx.currentPipelineId with
    | none => exact Nests.ret trivial
    | some id =>
        exact orderly_catching (orderly_return (orderly_await trivial rfl))
          fun _ ↦ Nests.ret trivial
  refine Nests.bind hcancel fun _ _ ↦ Nests.bind (orderly_await trivial rfl) fun mr _ ↦ ?_
  refine Nests.bind (orderly_await trivial rfl) fun _ _ ↦ ?_
  refine Nests.bind (orderly_waitForRebaseCompletion _ _ _ _ _ _) fun _ _ ↦ ?_
  exact orderly_return (orderly_waitForNewPipeline _ _ _)

theorem orderly_attemptRebase (mrIid : ℕ) (state : PipelineWaitState) (pipeline : Pipeline) :
    (attemptRebase settings mrIid state pipeline).Orderly settings given 0 := by
  have hhandle : (RebaseDuringTestingHandler.handleRebaseIfNeeded settings mrIid
      state.rebaseCtx).Orderly settings given 0 := by
    have hcheck : (RebaseDuringTestingHandler.checkNeedsRebase mrIid).Orderly settings given 0 := by
      refine Nests.bind (orderly_await trivial rfl) fun mr _ ↦ ?_
      split_ifs
      · exact Nests.ret trivial
      · exact Nests.ret trivial
      · exact Nests.ret trivial
    refine Nests.bind hcheck fun readiness _ ↦ ?_
    cases readiness with
    | ready => exact Nests.ret trivial
    | hasConflicts => exact Nests.throw _
    | needsRebase =>
        simp only
        split_ifs
        · exact Nests.throw _
        · exact orderly_rebaseAgain _ _
  refine Nests.bind hhandle fun out _ ↦ ?_
  obtain ⟨newCtx, newPipeline⟩ := out
  cases newPipeline with
  | some newPipeline =>
      exact orderly_return (MRStateMachine.orderly_notifyRebaseDuringTesting _ _ _ _ _)
  | none =>
      simp only
      split_ifs
      · exact Nests.ret trivial
      · exact Nests.ret trivial

theorem orderly_failRebase (mrIid : ℕ) (state : PipelineWaitState) (e : PyError) :
    (failRebase settings mrIid state e).Orderly settings given 0 := by
  have hfailed (jobs : List String) (message : String) : Prog.Orderly settings given 0 (do
      MRStateMachine.triggerPipelineFailed settings jobs state.retriedJobs message
      return RebaseResult.result .pipelineFailed) :=
    orderly_return (MRStateMachine.orderly_trigger _ _)
  unfold failRebase
  split
  · exact hfailed _ _
  · split_ifs
    · refine Nests.bind (orderly_await trivial rfl) fun files _ ↦ ?_
      exact orderly_return (MRStateMachine.orderly_trigger _ _)
    · exact hfailed _ _
    · exact Nests.throw _

theorem orderly_maybeRebaseDuringTesting (mrIid : ℕ) (state : PipelineWaitState)
    (pipeline : Pipeline) :
    (maybeRebaseDuringTesting settings mrIid state pipeline).Orderly settings given 0 := by
  refine Nests.bind (orderly_await trivial rfl) fun now _ ↦ ?_
  split_ifs
  · exact Nests.ret trivial
  · have hcheck : (checkAndHandleRebaseDuringTesting settings mrIid state pipeline).Orderly
        settings given 0 :=
      Nests.handle (orderly_attemptRebase _ _ _) fun e ↦ orderly_failRebase _ _ e
    refine Nests.bind hcheck fun out _ ↦ ?_
    cases out with
    | unchanged => exact Nests.ret trivial
    | context ctx => exact Nests.ret trivial
    | result result => exact Nests.ret trivial

end RebaseCoordinator

namespace PipelineHandler

variable {settings : Settings} {given : Learnt}

theorem orderly_writeTesting (mrIid : ℕ) (extra : QueueManager.Extra) :
    (writeTesting settings mrIid extra).Orderly settings given 0 := (orderly_updateMrState rfl rfl)

/-- A pipeline that fails ends the work with its outcome. -/
theorem orderly_failed {α : Type} (failedJobs : List String) (retriedJobs : List (String × ℕ))
    (errorMessage : String) (a : α) :
    Prog.Orderly settings given 0 (do
      MRStateMachine.triggerPipelineFailed settings failedJobs retriedJobs errorMessage
      return a) :=
  orderly_return (MRStateMachine.orderly_trigger _ _)

theorem orderly_retryJobs (jobs : List Job) : (retryJobs jobs).Orderly settings given 0 := by
  induction jobs with
  | nil => exact Nests.ret trivial
  | cons job jobs ih =>
      refine Nests.bind (orderly_catching ?_ fun _ ↦ Nests.ret trivial) fun answer _ ↦
        Nests.bind ih fun answers _ ↦ Nests.ret trivial
      exact orderly_return (orderly_await trivial rfl)

theorem orderly_handleRetryApiFailures (mrIid : ℕ) (pipeline : Pipeline)
    (updated : List (String × ℕ)) (answers : List (Job × Except PyError Job)) (first : PyError) :
    (handleRetryApiFailures settings mrIid pipeline updated answers first).Orderly
      settings given 0 := by
  have hexternal (errors : List (Job × PyError)) :
      (retriedExternally pipeline.id errors).Orderly settings given 0 := by
    unfold retriedExternally
    split_ifs
    · exact orderly_return (orderly_await trivial rfl)
    · exact Nests.ret trivial
  have hpersist : (persistRetries settings mrIid updated answers).Orderly settings given 0 := by
    unfold persistRetries
    split_ifs
    · exact Nests.ret trivial
    · exact orderly_writeTesting _ _
  refine Nests.bind (hexternal _) fun external _ ↦ ?_
  split_ifs
  · exact orderly_return (orderly_await trivial rfl)
  · exact Nests.bind hpersist fun _ _ ↦ orderly_failed _ _ _ _

theorem orderly_dispatchJobRetries (mrIid : ℕ) (pipeline : Pipeline) (jobsToRetry : List Job)
    (retriedJobs : List (String × ℕ)) (maxJobRetries : ℕ) :
    (dispatchJobRetries settings mrIid pipeline jobsToRetry retriedJobs maxJobRetries).Orderly
      settings given 0 := by
  refine Nests.bind (orderly_retryJobs _) fun answers _ ↦ ?_
  simp only
  split
  · exact orderly_handleRetryApiFailures _ _ _ _ _
  · refine Nests.bind (orderly_writeTesting _ _) fun _ _ ↦ ?_
    refine Nests.bind (MRNotifier.orderly_buildPipelineUrl _) fun url _ ↦ ?_
    refine Nests.bind (MRStateMachine.orderly_notifyJobRetry _ _ _ _ _) fun _ _ ↦ ?_
    exact orderly_return (orderly_await trivial rfl)

theorem orderly_handlePipelineFailureRetry (mrIid : ℕ) (pipeline : Pipeline)
    (retriedJobs : List (String × ℕ)) :
    (handlePipelineFailureRetry settings mrIid pipeline retriedJobs).Orderly settings given 0 := by
  have hfetch : (fetchPipelineJobs settings pipeline retriedJobs).Orderly settings given 0 := by
    refine Nests.bind (orderly_catching (orderly_return (orderly_await trivial rfl))
      fun _ ↦ Nests.ret trivial) fun fetched _ ↦ ?_
    cases fetched with
    | error e => exact orderly_failed _ _ _ _
    | ok jobs =>
        simp only
        split_ifs
        · exact orderly_failed _ _ _ _
        · exact Nests.ret trivial
  refine Nests.bind hfetch fun fetched _ ↦ ?_
  cases fetched with
  | none => exact Nests.ret trivial
  | some jobs =>
      simp only
      split_ifs
      · unfold handleNoFailedJobs
        split_ifs
        · exact Nests.ret trivial
        · exact orderly_failed _ _ _ _
      · exact orderly_dispatchJobRetries _ _ _ _ _
      · exact orderly_failed _ _ _ _

theorem orderly_handlePipelineFailure (mrIid : ℕ) (pipeline : Pipeline)
    (retriedJobs : List (String × ℕ)) :
    (handlePipelineFailure settings mrIid pipeline retriedJobs).Orderly settings given 0 := by
  refine Nests.bind (orderly_getQueueItem _) fun item _ ↦ ?_
  refine Nests.bind (orderly_handlePipelineFailureRetry _ _ _) fun signal _ ↦ ?_
  cases signal with
  | none => exact Nests.ret trivial
  | some signal => exact Nests.ret trivial

theorem orderly_handleCanceled (mrIid : ℕ) (pipeline : Pipeline) (retriedJobs : List (String × ℕ)) :
    (handleCanceled settings mrIid pipeline retriedJobs).Orderly settings given 0 := by
  have hswitch :
      (trySwitchToReplacementPipeline settings mrIid pipeline).Orderly settings given 0 := by
    refine Nests.bind (orderly_getQueueItem _) fun item _ ↦ ?_
    split
    · exact Nests.ret trivial
    · refine Nests.bind (orderly_await trivial rfl) fun pipelines _ ↦ ?_
      split
      · exact Nests.ret trivial
      · exact orderly_return (orderly_writeTesting _ _)
  refine Nests.bind hswitch fun switched _ ↦ ?_
  split_ifs
  · exact Nests.ret trivial
  · refine Nests.bind (orderly_catching ?_ fun _ ↦ Nests.ret trivial) fun jobs _ ↦
      orderly_failed _ _ _ _
    exact orderly_return (orderly_await trivial rfl)

theorem orderly_handlePipelineStatus (mrIid : ℕ) (pipeline : Pipeline)
    (retriedJobs : List (String × ℕ)) :
    (handlePipelineStatus settings mrIid pipeline retriedJobs).Orderly settings given 0 := by
  unfold handlePipelineStatus
  split
  · refine Nests.bind (orderly_getQueueItem _) fun item _ ↦ ?_
    split_ifs
    · exact Nests.ret trivial
    · exact orderly_return (MRStateMachine.orderly_fire _)
  · exact orderly_handleCanceled _ _ _
  · exact orderly_handlePipelineFailure _ _ _
  · split
    · exact Nests.ret trivial
    · exact orderly_failed _ _ _ _

theorem orderly_resetPipelineWaitState (state : PipelineWaitState) :
    (resetPipelineWaitState state).Orderly settings given 0 :=
  orderly_return (orderly_await trivial rfl)

theorem orderly_tryRecoverFromStaleSkip (mrIid : ℕ) (pipeline : Pipeline)
    (state : PipelineWaitState) :
    (tryRecoverFromStaleSkip settings mrIid pipeline state).Orderly settings given 0 := by
  refine Nests.bind (orderly_getQueueItem _) fun item _ ↦ ?_
  split
  · exact Nests.ret trivial
  · refine Nests.bind (orderly_await trivial rfl) fun tracked _ ↦ ?_
    split_ifs
    · exact Nests.bind (orderly_writeTesting _ _) fun _ _ ↦ orderly_resetPipelineWaitState _
    · exact Nests.ret trivial

theorem orderly_checkPipelineTerminationConditions (mrIid : ℕ) (state : PipelineWaitState) :
    (checkPipelineTerminationConditions settings mrIid state).Orderly settings given 0 := by
  have hchance : (hasLastChance mrIid state).Orderly settings given 0 := by
    unfold hasLastChance
    split_ifs
    · exact Nests.ret trivial
    · exact orderly_return (orderly_await trivial rfl)
  refine Nests.bind (orderly_await trivial rfl) fun stopping _ ↦ ?_
  split_ifs
  · exact Nests.ret trivial
  · refine Nests.bind (orderly_await trivial rfl) fun now _ ↦ ?_
    split_ifs
    · refine Nests.bind hchance fun lastChance _ ↦ ?_
      split_ifs
      · exact Nests.ret trivial
      · exact orderly_return (MRStateMachine.orderly_triggerTimeout _)
    · refine Nests.bind (orderly_verifyMrInQueue _) fun verdict _ ↦ ?_
      cases verdict with
      | none => exact Nests.ret trivial
      | some reason =>
          exact orderly_return (MRStateMachine.orderly_triggerMarkRemoved _)

theorem orderly_applyRebaseOutcome (mrIid : ℕ) (state : PipelineWaitState)
    (outcome : RebaseCheckOutcome) :
    (applyRebaseOutcome settings mrIid state outcome).Orderly settings given 0 := by
  unfold applyRebaseOutcome
  split
  · exact Nests.ret trivial
  · exact Nests.ret trivial
  · split_ifs
    · refine Nests.bind (orderly_writeTesting _ _) fun _ _ ↦ ?_
      exact orderly_return (orderly_await trivial rfl)
    · exact Nests.ret trivial

theorem orderly_followPipeline (mrIid : ℕ) (pipeline : Pipeline) (state : PipelineWaitState) :
    (followPipeline settings mrIid pipeline state).Orderly settings given 0 := by
  unfold followPipeline
  simp only
  split_ifs
  · exact Nests.ret trivial
  · refine Nests.bind (orderly_handlePipelineStatus _ _ _) fun out _ ↦ ?_
    cases out with
    | wait => exact Nests.ret trivial
    | result result => exact Nests.ret trivial
    | retry signal => exact Nests.ret trivial

theorem orderly_processPipeline (mrIid : ℕ) (pipeline : Pipeline) (state : PipelineWaitState) :
    (processPipeline settings mrIid pipeline state).Orderly settings given 0 := by
  refine Nests.bind (RebaseCoordinator.orderly_maybeRebaseDuringTesting _ _ _) fun outcome _ ↦ ?_
  refine Nests.bind (orderly_applyRebaseOutcome _ _ _) fun out _ ↦ ?_
  obtain ⟨state, ended⟩ := out
  cases ended with
  | some result => exact Nests.ret trivial
  | none =>
      have hstale : (checkStalePipeline settings mrIid pipeline).Orderly settings given 0 :=
        orderly_return (orderly_getQueueItem _)
      refine Nests.bind hstale fun stale _ ↦ ?_
      cases stale with
      | skip => exact orderly_return (orderly_tryRecoverFromStaleSkip _ _ _)
      | switched =>
          refine Nests.bind (orderly_writeTesting _ _) fun _ _ ↦ ?_
          exact orderly_return (orderly_resetPipelineWaitState _)
      | ok => exact orderly_followPipeline _ _ _

theorem orderly_waitForPipeline (mrIid : ℕ) :
    (waitForPipeline settings mrIid).Orderly settings given 0 := by
  have hinit : (initPipelineWaitState settings mrIid).Orderly settings given 0 :=
    Nests.bind (orderly_getQueueItem _) fun _ _ ↦ Nests.bind (orderly_await trivial rfl) fun _ _ ↦
      orderly_return (orderly_await trivial rfl)
  have hpoll (state : PipelineWaitState) :
      (processPipelineIteration settings mrIid state).Orderly settings given 0 := by
    refine Nests.bind (orderly_checkPipelineTerminationConditions _ _) fun out _ ↦ ?_
    obtain ⟨state, ended⟩ := out
    cases ended with
    | some result => exact Nests.ret trivial
    | none =>
        refine Nests.bind (orderly_await trivial rfl) fun pipeline _ ↦ ?_
        cases pipeline with
        | none => exact Nests.ret trivial
        | some pipeline => exact orderly_processPipeline _ _ _
  refine Nests.bind hinit fun state _ ↦ orderly_loop (fun state ↦ ?_) _ _
  refine Nests.bind (hpoll state) fun out _ ↦ ?_
  obtain ⟨state, ended⟩ := out
  cases ended with
  | some result => exact Nests.ret trivial
  | none => exact orderly_return (orderly_await trivial rfl)

end PipelineHandler

/-! ## The processor -/

namespace MergeProcessor

variable {settings : Settings} {given : Learnt}

theorem orderly_failDirectly (mrIid : ℕ) (errorMessage : String) :
    (failDirectly settings mrIid errorMessage).Orderly settings given 0 := by
  refine Nests.bind (orderly_db rfl rfl) fun _ _ ↦ ?_
  refine Nests.bind (MRNotifier.orderly_announce (Nat.zero_le 1) _ _) fun _ _ ↦ ?_
  exact orderly_return (MRNotifier.orderly_removeQueueLabel _ _ _)

theorem orderly_failMrPermanently (mrIid : ℕ) (errorMessage : String) :
    (failMrPermanently settings mrIid errorMessage).Orderly settings given 0 := by
  refine orderly_machine fun m _ ↦ ?_
  split
  · exact MRStateMachine.orderly_trigger _ _
  · exact MRStateMachine.orderly_trigger _ _
  · exact MRStateMachine.orderly_trigger _ _
  · exact orderly_failDirectly _ _
  · exact orderly_failDirectly _ _
  · exact orderly_failDirectly _ _
  · exact orderly_failDirectly _ _

theorem orderly_stateMachine : stateMachine.Orderly settings given 0 :=
  Nests.bind Nests.read fun _ _ ↦ Nests.ret trivial

theorem orderly_handleProcessingError (mrIid : ℕ) (error : PyError) :
    (handleProcessingError settings mrIid error).Orderly settings given 0 := by
  have hfail (errorMessage : String) :
      (failForGood settings mrIid errorMessage).Orderly settings given 0 := by
    refine Nests.bind orderly_stateMachine fun found _ ↦ ?_
    cases found with
    | none => exact orderly_failDirectly _ _
    | some _ => exact orderly_failMrPermanently _ _
  have hreset : (resetMachine settings).Orderly settings given 0 := by
    refine Nests.bind orderly_stateMachine fun found _ ↦ ?_
    cases found with
    | none => exact Nests.ret trivial
    | some _ => exact MRStateMachine.orderly_triggerResetToQueued
  refine Nests.bind (orderly_getQueueItem _) fun found _ ↦ ?_
  cases found with
  | none => exact Nests.ret trivial
  | some item =>
      simp only
      split_ifs
      · exact Nests.ret trivial
      · exact hfail _
      · exact Nests.bind hreset fun _ _ ↦ orderly_updateMrState rfl rfl

/-! ### The workflow -/

theorem orderly_processMerge (mrIid : ℕ) :
    (processMerge settings mrIid).Orderly settings given 0 := by
  refine Nests.bind (orderly_getQueueItem _) fun item _ ↦ Nests.handle ?_ fun e ↦ ?_
  · exact Nests.bind (orderly_gitlab _) fun _ _ ↦
      orderly_return (MRStateMachine.orderly_fire _)
  · unfold failMerge
    split_ifs
    · exact orderly_return (MRStateMachine.orderly_trigger _ _)
    · exact orderly_return (MRStateMachine.orderly_trigger _ _)
    · exact Nests.throw _

theorem orderly_executeWorkflow (mrIid : ℕ) :
    (executeWorkflow settings mrIid).Orderly settings given 0 := by
  have htest : (testThenMerge settings mrIid).Orderly settings given 0 := by
    refine Nests.bind (orderly_updateMrState rfl rfl) fun _ _ ↦ ?_
    refine Nests.bind (PipelineHandler.orderly_waitForPipeline _) fun result _ ↦ ?_
    split_ifs
    · exact orderly_processMerge _
    · exact Nests.ret trivial
  have hrebase : (rebaseThenTest settings mrIid).Orderly settings given 0 := by
    refine Nests.bind (RebaseHandler.orderly_processRebase _) fun result _ ↦ ?_
    split_ifs
    · exact htest
    · exact Nests.ret trivial
  refine orderly_machine fun m _ ↦ ?_
  split
  · exact Nests.bind (MRStateMachine.orderly_trigger _ _) fun _ _ ↦ hrebase
  · exact hrebase
  · exact htest
  · exact orderly_processMerge _
  · exact Nests.ret trivial
  · exact Nests.ret trivial
  · exact Nests.ret trivial

theorem orderly_processMr (mrIid : ℕ) : (processMr settings mrIid).Orderly settings given 0 := by
  have hattempt : (attempt settings mrIid).Orderly settings given 0 := by
    refine Nests.bind (MRStateMachine.orderly_create _ _) fun _ _ ↦ ?_
    refine Nests.bind (orderly_verifyMrInQueue _) fun verdict _ ↦ ?_
    cases verdict with
    | none => exact orderly_executeWorkflow _
    | some reason =>
        exact orderly_return (MRStateMachine.orderly_triggerMarkRemoved _)
  have hfresh : Prog.Orderly settings given 0
      (Program.update fun s ↦ { s with machine := none } : Prog Unit) :=
    Nests.update fun _ _ m hm ↦ by cases hm
  refine Nests.bind hfresh fun _ _ ↦ ?_
  refine orderly_catching hattempt fun e ↦ ?_
  exact orderly_return (orderly_catching (orderly_handleProcessingError _ _) fun _ ↦
    Nests.ret trivial)

theorem orderly_warnStale (item : QueueItem) :
    (warnStale settings item).Orderly settings given 0 := by
  unfold warnStale
  split_ifs
  · exact Nests.ret trivial
  · refine orderly_catching ?_ fun _ ↦ Nests.ret trivial
    refine Nests.bind (MRStateMachine.orderly_create _ _) fun _ _ ↦ ?_
    refine Nests.bind (MRStateMachine.orderly_notifyStaleWarning _) fun _ _ ↦ ?_
    exact orderly_return (orderly_db rfl rfl)

theorem orderly_setCurrent (mrIid : Option ℕ) : (setCurrent mrIid).Orderly settings given 0 :=
  Nests.update fun _ hs ↦ hs

theorem orderly_processIteration : (processIteration settings).Orderly settings given 0 := by
  have hstale : (checkStaleMrs settings).Orderly settings given 0 :=
    Nests.bind orderly_now fun _ _ ↦ Nests.bind (orderly_db rfl rfl) fun _ _ ↦
      Nests.forEach fun _ _ ↦ orderly_warnStale _
  have hnext : (getNextMr settings).Orderly settings given 0 :=
    orderly_return (orderly_db rfl rfl)
  refine Nests.bind hstale fun _ _ ↦ Nests.bind hnext fun found _ ↦ ?_
  cases found with
  | none => exact Nests.ret trivial
  | some item =>
      refine Nests.bind (orderly_setCurrent _) fun _ _ ↦ Nests.ensuring ?_ (orderly_setCurrent _)
      exact orderly_return (orderly_processMr _)

/-! ### The start -/

theorem orderly_broadcastQueueUpdate :
    (broadcastQueueUpdate settings).Orderly settings given 0 := by
  unfold broadcastQueueUpdate
  split_ifs
  · refine orderly_catching ?_ fun _ ↦ Nests.ret trivial
    exact Nests.bind (orderly_db rfl rfl) fun _ _ ↦ orderly_await trivial rfl
  · exact Nests.ret trivial

theorem orderly_broadcastIf (changed : Bool) :
    (broadcastIf settings changed).Orderly settings given 0 := by
  unfold broadcastIf
  split_ifs
  · exact orderly_broadcastQueueUpdate
  · exact Nests.ret trivial

theorem orderly_recoverItem (item : QueueItem) :
    (recoverItem settings item).Orderly settings given 0 := by
  have harchive (outcome : Outcome) :
      (archiveRecovered settings item outcome).Orderly settings given 0 :=
    orderly_return (orderly_db rfl rfl)
  refine Nests.handle (Nests.bind (orderly_gitlab _) fun mr _ ↦ ?_) fun e ↦ ?_
  · split
    · exact harchive _
    · split_ifs
      · exact orderly_updateMrState rfl rfl
      · exact Nests.ret trivial
  · split_ifs
    · exact Nests.ret trivial
    · exact harchive _
    · exact Nests.ret trivial
    · exact Nests.throw _

theorem orderly_recoverInterruptedState :
    (recoverInterruptedState settings).Orderly settings given 0 :=
  Nests.bind (orderly_catching (orderly_db rfl rfl) fun _ ↦ Nests.ret trivial) fun _ _ ↦
    Nests.forEach fun _ _ ↦ orderly_recoverItem _

theorem orderly_syncDiscovered (snapshot active : List QueueItem) (mr : MergeRequest) :
    (syncDiscovered settings snapshot active mr).Orderly settings given 0 := by
  have hadd : (addDiscoveredMr settings mr).Orderly settings given 0 := by
    refine Nests.bind (orderly_getQueueItem _) fun existing _ ↦ ?_
    split_ifs
    · exact Nests.ret trivial
    · exact orderly_return (orderly_db rfl rfl)
  unfold syncDiscovered
  split_ifs
  · split
    · exact QueueMetadataUpdater.orderly_refresh _ _ _ _ _
    · exact Nests.ret trivial
  · exact hadd

theorem orderly_syncAll (snapshot active : List QueueItem) (mrs : List MergeRequest) :
    (syncAll settings snapshot active mrs).Orderly settings given 0 := by
  induction mrs with
  | nil => exact Nests.ret trivial
  | cons mr mrs ih =>
      exact Nests.bind (orderly_syncDiscovered _ _ _) fun _ _ ↦ orderly_return ih

theorem orderly_syncMissingMrsFromGitlab :
    (syncMissingMrsFromGitlab settings).Orderly settings given 0 := by
  have hfetch (label : String) : (fetchMrsByLabel label).Orderly settings given 0 :=
    orderly_catching (orderly_return (orderly_gitlab _))
      fun _ ↦ Nests.ret trivial
  have hretry : (QueueMetadataUpdater.retryPending settings).Orderly settings given 0 :=
    QueueMetadataUpdater.orderly_retryPending (Nat.zero_le 1)
  refine Nests.bind (orderly_db rfl rfl) fun snapshot _ ↦ ?_
  refine Nests.bind (hfetch _) fun queueMrs _ ↦ Nests.bind (hfetch _) fun hotfixMrs _ ↦ ?_
  split
  · split_ifs
    · exact hretry
    · refine Nests.bind (orderly_db rfl rfl) fun active _ ↦ ?_
      refine Nests.bind (orderly_syncAll _ _ _) fun changed _ ↦ ?_
      exact Nests.bind hretry fun _ _ ↦ orderly_broadcastIf _
  · exact hretry

/-- The processor, from its start on. -/
theorem orderly_run : (run settings).Orderly settings given 0 := by
  have hiteration : (iteration settings).Orderly settings given 0 :=
    orderly_catching (orderly_return orderly_processIteration)
      fun _ ↦ Nests.ret trivial
  have hround : (round settings).Orderly settings given 0 := by
    refine Nests.bind (orderly_await trivial rfl) fun stopping _ ↦ ?_
    split_ifs
    · exact Nests.ret trivial
    · refine Nests.bind hiteration fun seconds _ ↦ ?_
      refine Nests.bind (orderly_await trivial rfl) fun slept _ ↦ ?_
      split_ifs
      · exact Nests.ret trivial
      · exact Nests.ret trivial
  have hstartup : (startup settings).Orderly settings given 0 := by
    refine Nests.bind QueueCompletion.orderly_recoverAll fun recovered _ ↦ ?_
    refine Nests.bind (orderly_broadcastIf _) fun _ _ ↦ ?_
    exact Nests.bind orderly_recoverInterruptedState fun _ _ ↦ orderly_syncMissingMrsFromGitlab
  exact Nests.bind hstartup fun _ _ ↦ orderly_loop (fun _ ↦ hround) _ _

end MergeProcessor

/-! ## The scheduler -/

namespace QueueScheduler

variable {settings : Settings} {given : Learnt}

theorem orderly_broadcastQueueUpdate : (broadcastQueueUpdate settings).Orderly settings given 0 :=
  MergeProcessor.orderly_broadcastQueueUpdate

theorem orderly_addMissingMr (mr : MergeRequest) :
    (addMissingMr settings mr).Orderly settings given 0 := by
  have hadd : (addMrToQueue settings mr).Orderly settings given 0 :=
    orderly_return (orderly_db rfl rfl)
  refine Nests.bind (orderly_getQueueItem _) fun existing _ ↦ ?_
  split_ifs
  · exact Nests.ret trivial
  · exact orderly_return hadd

theorem orderly_removeOrphanedMr (item : QueueItem) :
    (removeOrphanedMr settings item).Orderly settings given 0 := by
  have hjudge : (shouldRemoveFromQueue settings item.mrIid).Orderly settings given 0 := by
    refine Nests.handle (Nests.bind (orderly_gitlab _) fun mr _ ↦ ?_) fun e ↦ ?_
    · split_ifs
      · exact Nests.ret trivial
      · exact Nests.ret trivial
    · split_ifs
      · exact Nests.ret trivial
      · exact Nests.throw _
  refine Nests.bind hjudge fun orphaned _ ↦ ?_
  split_ifs
  · exact orderly_return (orderly_db rfl rfl)
  · exact Nests.ret trivial

theorem orderly_refreshListedMr (queueMrIids : List ℕ) (revisions : List (ℕ × ℕ × ℕ))
    (mr : MergeRequest) :
    (refreshListedMr settings queueMrIids revisions mr).Orderly settings given 0 := by
  unfold refreshListedMr
  split_ifs
  · split
    · exact Nests.ret trivial
    · exact QueueMetadataUpdater.orderly_refresh _ _ _ _ _
  · exact Nests.ret trivial

theorem orderly_doSync : (doSync settings).Orderly settings given 0 := by
  have hfinalize (stats : SyncStats) : (finalizeSync settings stats).Orderly settings given 0 := by
    unfold finalizeSync
    split_ifs
    · exact Nests.bind orderly_broadcastQueueUpdate fun _ _ ↦
        orderly_return (orderly_db rfl rfl)
    · exact orderly_return (orderly_db rfl rfl)
  refine Nests.bind (orderly_db rfl rfl) fun snapshot _ ↦ ?_
  refine Nests.bind (orderly_gitlab _) fun queueLabelMrs _ ↦ ?_
  refine Nests.bind (orderly_gitlab _) fun hotfixLabelMrs _ ↦ ?_
  refine Nests.bind (orderly_db rfl rfl) fun queueItems _ ↦ ?_
  refine Nests.bind (Nests.tally fun mr _ ↦ orderly_addMissingMr mr) fun added _ ↦ ?_
  refine Nests.bind (Nests.tally fun item _ ↦ orderly_removeOrphanedMr item) fun removed _ ↦ ?_
  refine Nests.bind (Nests.tally fun mr _ ↦ orderly_refreshListedMr _ _ mr) fun updated _ ↦ ?_
  refine Nests.bind (QueueMetadataUpdater.orderly_retryPending (Nat.zero_le 1)) fun _ _ ↦ ?_
  split_ifs
  · exact hfinalize _
  · exact Nests.ret trivial

theorem orderly_syncQueue : (syncQueue settings).Orderly settings given 0 := by
  refine Nests.bind QueueCompletion.orderly_recoverAll fun recovered _ ↦ ?_
  refine Nests.bind orderly_doSync fun stats _ ↦ ?_
  split_ifs
  · exact orderly_return orderly_broadcastQueueUpdate
  · exact Nests.ret trivial

end QueueScheduler

/-! ## Webhooks -/

namespace MRWebhookHandler

variable {settings : Settings} {given : Learnt}

/-- A saved request is written under the lock on it, inside the one on admissions. -/
theorem orderly_intent {k : ℕ} {op : QueueOp} {queueId : ℕ} (hk : k ≤ 2)
    (hop : op.Proper settings.gitlabProjectId given)
    (hlocks : op.locks = [.intent settings.gitlabProjectId queueId]) :
    (Prog.db op).Orderly settings given k := by
  refine Nests.call hop (congrArg LockUse.inside hlocks) (fun lock hlock ↦ ?_) fun _ _ ↦ trivial
  rw [List.mem_singleton.mp hlock]
  exact hk

theorem orderly_changeCompletionRequeue {event : MergeRequestEvent} {item : QueueItem}
    (hitem : given.items item) (allowActive : Bool) :
    (changeCompletionRequeue settings event item allowActive).Orderly settings given 2 := by
  have hdefer : (deferCompletionRequeue settings event item allowActive).Orderly settings given 2 :=
    orderly_intent le_rfl ⟨rfl, hitem⟩ rfl
  unfold changeCompletionRequeue
  simp only
  split_ifs
  · exact hdefer
  · exact orderly_intent le_rfl rfl rfl
  · exact Nests.ret trivial
  · split
    · exact Nests.ret trivial
    · exact hdefer
  · split
    · exact Nests.ret trivial
    · exact orderly_intent le_rfl rfl rfl

theorem orderly_admitEvent (event : MergeRequestEvent) :
    (admitEvent settings event).Orderly settings given 0 := by
  have hactive (item : QueueItem) (hitem : given.items item) :
      (admitActiveTrigger settings event item).Orderly settings given 2 := by
    unfold admitActiveTrigger
    simp only
    split_ifs
    · exact Nests.ret trivial
    · refine Nests.bind (orderly_changeCompletionRequeue hitem _) fun saved _ ↦ ?_
      split_ifs
      · exact Nests.ret trivial
      · exact Nests.throw _
    · exact Nests.ret trivial
  have hcompletion (item : QueueItem) (hitem : given.items item) (payload : CompletionPayload) :
      (admitToCompletion settings event item payload).Orderly settings given 2 := by
    unfold admitToCompletion
    split_ifs
    · exact Nests.ret trivial
    · exact Nests.ret trivial
    · exact Nests.ret trivial
    · refine Nests.bind (orderly_changeCompletionRequeue hitem _) fun saved _ ↦ ?_
      split_ifs
      · exact Nests.ret trivial
      · exact Nests.throw _
  refine nests_withLock rfl (Nat.zero_le _) (Nests.bind (nests_getQueueItem _) fun item hitem ↦ ?_)
  cases item with
  | none => exact Nests.ret trivial
  | some item =>
      simp only
      split_ifs
      · exact Nests.ret trivial
      · split
        · exact orderly_return (hactive _ (hitem item rfl).learnt)
        · exact hcompletion _ (hitem item rfl).learnt _

/-- Telling the connected clients may fail. -/
theorem orderly_broadcastQueueUpdate :
    (broadcastQueueUpdate settings).Orderly settings given 0 := by
  refine Nests.handle orderly_broadcast fun e ↦ ?_
  split_ifs
  · exact Nests.ret trivial
  · exact Nests.throw _

theorem orderly_resumeCompletion (event : MergeRequestEvent) :
    (resumeCompletion settings event).Orderly settings given 0 := by
  refine Nests.bind (orderly_admitEvent event) fun out _ ↦ ?_
  cases out with
  | inl handled => exact Nests.ret trivial
  | inr item =>
      refine Nests.bind QueueCompletion.orderly_recover fun _ _ ↦ ?_
      exact orderly_return orderly_broadcastQueueUpdate

theorem orderly_refreshQueueItemMetadata (event : MergeRequestEvent) :
    (refreshQueueItemMetadata settings event).Orderly settings given 0 := by
  refine Nests.bind (QueueMetadataUpdater.orderly_refresh _ _ _ _ _) fun updated _ ↦ ?_
  split_ifs
  · exact orderly_broadcastQueueUpdate
  · exact Nests.ret trivial

theorem orderly_notifyPositionAfterAdd (mrIid : ℕ) (isHotfix : Bool)
    (positionsBefore : List (ℕ × ℕ)) (oldTotal : ℕ) :
    (notifyPositionAfterAdd settings mrIid isHotfix positionsBefore oldTotal).Orderly
      settings given 0 := by
  have hinitial :
      (QueuePositionNotifier.notifyInitialPosition settings mrIid).Orderly settings given 0 :=
    QueuePositionNotifier.orderly_notifyInitialPosition (Nat.zero_le 1) _
  have hlater (e : PyError) :
      Prog.Orderly settings given 0 (if e.isException then pure () else throw e : Prog Unit) := by
    split_ifs
    · exact Nests.ret trivial
    · exact Nests.throw _
  unfold notifyPositionAfterAdd
  split_ifs
  · exact Nests.handle (orderly_return hinitial) hlater
  · refine Nests.handle (Nests.bind hinitial fun _ _ ↦ ?_) hlater
    exact QueuePositionNotifier.orderly_notifyAffectedMrsAfterMrAdded (Nat.zero_le 1) _ _ _ _
  · exact Nests.ret trivial

theorem orderly_addFetched {event : MergeRequestEvent} {announce : Prog Unit}
    (h : announce.Orderly settings given 0) :
    (addFetched settings event announce).Orderly settings given 0 := by
  have hstale : (staleEnqueue settings event).Orderly settings given 0 := by
    unfold staleEnqueue
    split
    · exact Nests.ret trivial
    · exact orderly_return (orderly_db rfl rfl)
  refine Nests.bind hstale fun stale _ ↦ ?_
  split_ifs
  · exact Nests.ret trivial
  · refine Nests.bind QueuePositionNotifier.orderly_capturePositionsIfEnabled fun before _ ↦ ?_
    refine Nests.bind (orderly_gitlab _) fun mr _ ↦ ?_
    split_ifs
    · exact Nests.ret trivial
    · refine Nests.bind (orderly_db rfl rfl) fun _ _ ↦ Nests.bind h fun _ _ ↦ ?_
      exact orderly_notifyPositionAfterAdd _ _ _ _

theorem orderly_handleLabeled (event : MergeRequestEvent) :
    (handleLabeled settings event).Orderly settings given 0 := by
  have hautomated : (refreshAutomated settings event).Orderly settings given 0 := by
    unfold refreshAutomated
    split
    · exact Nests.throw _
    · exact Nests.ret trivial
    · refine Nests.bind (orderly_getQueueItem _) fun item _ ↦ ?_
      split_ifs
      · exact orderly_refreshQueueItemMetadata _
      · exact Nests.ret trivial
  unfold handleLabeled
  split_ifs
  · exact hautomated
  · refine Nests.bind (orderly_getQueueItem _) fun existing _ ↦ ?_
    split_ifs
    · exact orderly_refreshQueueItemMetadata _
    · exact orderly_addFetched (Nests.ret trivial)

/-! ### The end of a lifecycle -/

theorem orderly_completeDirectly (item : QueueItem) (mrIid : ℕ) (outcome : Outcome) :
    (completeDirectly settings item mrIid outcome).Orderly settings given 0 := by
  have hremove : (removeQueueLabel settings mrIid).Orderly settings given 0 := by
    refine Nests.handle (orderly_return (orderly_gitlab _)) fun e ↦ ?_
    split_ifs
    · exact Nests.ret trivial
    · exact Nests.throw _
  refine Nests.bind (orderly_db rfl rfl) fun completed _ ↦ ?_
  split_ifs
  · exact hremove
  · exact Nests.ret trivial

theorem orderly_markRemoved (event : MergeRequestEvent) (item : QueueItem)
    (reason : RemovalReason) :
    (markRemoved settings event item reason).Orderly settings given 0 := by
  refine Nests.bind (MRStateMachine.orderly_create _ _) fun _ _ ↦ ?_
  refine Nests.handle (MRStateMachine.orderly_triggerMarkRemoved _) fun e ↦ ?_
  split_ifs
  · exact orderly_completeDirectly _ _ _
  · exact Nests.throw _

theorem orderly_handleUnlabeled (event : MergeRequestEvent) :
    (handleUnlabeled settings event).Orderly settings given 0 := by
  refine Nests.bind (orderly_getQueueItem _) fun item _ ↦ ?_
  split_ifs
  · cases item with
    | none => exact Nests.ret trivial
    | some item =>
        exact Nests.bind (orderly_markRemoved _ _ _) fun _ _ ↦ orderly_broadcastQueueUpdate
  · exact orderly_refreshQueueItemMetadata _

theorem orderly_handleMerge (event : MergeRequestEvent) :
    (handleMerge settings event).Orderly settings given 0 := by
  have hmerging (item : QueueItem) :
      (finishMerging settings event item).Orderly settings given 0 := by
    refine Nests.ensuring (Nests.handle (MRStateMachine.orderly_fire _) fun e ↦ ?_)
      orderly_broadcastQueueUpdate
    split_ifs
    · exact orderly_completeDirectly _ _ _
    · exact Nests.throw _
  have hmerged (item : QueueItem) :
      (completeMerged settings event item).Orderly settings given 0 := by
    refine Nests.bind QueuePositionNotifier.orderly_capturePositionsIfEnabled fun before _ ↦ ?_
    refine Nests.bind orderly_now fun mergedAt _ ↦ Nests.bind orderly_now fun finish _ ↦ ?_
    exact Nests.bind (QueueCompletion.orderly_complete (.merged ..)) fun _ _ ↦
      orderly_broadcastQueueUpdate
  refine Nests.bind (orderly_getQueueItem _) fun item _ ↦ ?_
  cases item with
  | none => exact Nests.ret trivial
  | some item =>
      refine Nests.bind (MRStateMachine.orderly_create _ _) fun _ _ ↦ ?_
      refine orderly_machine fun m _ ↦ ?_
      split
      · exact hmerging item
      · exact hmerged item
      · exact hmerged item
      · exact hmerged item
      · exact Nests.ret trivial
      · exact Nests.ret trivial
      · exact Nests.ret trivial

theorem orderly_handleClose (event : MergeRequestEvent) :
    (handleClose settings event).Orderly settings given 0 := by
  refine Nests.bind (orderly_getQueueItem _) fun item _ ↦ ?_
  cases item with
  | none => exact Nests.ret trivial
  | some item =>
      exact Nests.bind (orderly_markRemoved _ _ _) fun _ _ ↦ orderly_broadcastQueueUpdate

theorem orderly_handleUpdate (event : MergeRequestEvent) :
    (handleUpdate settings event).Orderly settings given 0 := by
  have hreconcile : (reconcile settings event).Orderly settings given 0 := by
    refine Nests.bind (orderly_getQueueItem _) fun item _ ↦ ?_
    split_ifs
    · exact orderly_refreshQueueItemMetadata _
    · exact Nests.ret trivial
    · exact orderly_addFetched orderly_broadcastQueueUpdate
    · exact Nests.ret trivial
  unfold handleUpdate
  split_ifs
  · exact orderly_handleUnlabeled _
  · exact hreconcile

theorem orderly_handle (event : MergeRequestEvent) :
    (handle settings event).Orderly settings given 0 := by
  have hdispatch : (dispatch settings event).Orderly settings given 0 := by
    unfold dispatch
    split
    · exact orderly_handleLabeled _
    · exact orderly_handleUnlabeled _
    · exact orderly_handleMerge _
    · exact orderly_handleClose _
    · exact orderly_handleUpdate _
    · exact Nests.ret trivial
  unfold handle
  split
  · exact Nests.ret trivial
  · refine Nests.bind (orderly_resumeCompletion _) fun handled _ ↦ ?_
    split_ifs
    · exact Nests.ret trivial
    · exact hdispatch

end MRWebhookHandler

namespace PipelineWebhookHandler

variable {settings : Settings} {given : Learnt}

theorem orderly_switchTo (mrIid : ℕ) {state : Status} (hstate : state.active = true)
    (pipelineId : ℕ) : (switchTo settings mrIid state pipelineId).Orderly settings given 0 :=
  orderly_updateMrState rfl hstate

/-- The row that is judged is in testing, and it is left there. -/
theorem orderly_judge (event : PipelineEvent) (mrIid : ℕ) {item : QueueItem}
    (hstate : item.state = .testing) :
    (judge settings event mrIid item).Orderly settings given 0 := by
  have hshort (sha : Option String) : (shortSha sha).Orderly settings given 0 := by
    cases sha with
    | none => exact Nests.throw _
    | some sha => exact Nests.ret trivial
  unfold judge
  split
  · simp only
    split_ifs
    · exact Nests.bind (orderly_switchTo _ (hstate ▸ rfl) _) fun _ _ ↦ orderly_getQueueItem _
    · exact Nests.ret trivial
  · split_ifs
    · exact orderly_return (hshort _)
    · exact Nests.ret trivial

theorem orderly_validFreshItem (event : PipelineEvent) :
    (validFreshItem settings event).Orderly settings given 0 := by
  have hvalidate : (validatePipelineEvent settings event).Orderly settings given 0 := by
    unfold validatePipelineEvent
    split
    · exact Nests.ret trivial
    · refine Nests.bind (orderly_getQueueItem _) fun item _ ↦ ?_
      cases item with
      | none => exact Nests.ret trivial
      | some item =>
          simp only
          split_ifs with hstate
          · exact Nests.ret trivial
          · exact orderly_judge _ _ (not_not.mp hstate)
  have hfresh (mrIid : ℕ) : (freshItem settings event mrIid).Orderly settings given 0 :=
    orderly_return (orderly_getQueueItem _)
  refine Nests.bind hvalidate fun valid _ ↦ ?_
  cases valid with
  | none => exact Nests.ret trivial
  | some item =>
      simp only
      split
      · exact Nests.throw _
      · exact orderly_return (hfresh _)

theorem orderly_handleSuccess (event : PipelineEvent) :
    (handleSuccess settings event).Orderly settings given 0 := by
  refine Nests.bind (orderly_validFreshItem _) fun found _ ↦ ?_
  cases found with
  | none => exact Nests.ret trivial
  | some entry =>
      obtain ⟨mrIid, item⟩ := entry
      simp only
      split_ifs
      · exact Nests.ret trivial
      · refine Nests.bind (MRStateMachine.orderly_create _ _) fun _ _ ↦ ?_
        refine Nests.handle (MRStateMachine.orderly_fire _) fun e ↦ ?_
        split_ifs
        · exact Nests.ret trivial
        · exact Nests.throw _

theorem orderly_handleCanceled (event : PipelineEvent) :
    (handleCanceled settings event).Orderly settings given 0 := by
  refine Nests.bind (orderly_validFreshItem _) fun found _ ↦ ?_
  cases found with
  | none => exact Nests.ret trivial
  | some entry =>
      obtain ⟨mrIid, item⟩ := entry
      have hnewer : (findNewerPipeline event mrIid item).Orderly settings given 0 := by
        unfold findNewerPipeline
        split
        · exact Nests.ret trivial
        · exact orderly_return (orderly_gitlab _)
      refine Nests.bind hnewer fun best _ ↦ ?_
      cases best with
      | none => exact orderly_updateMrState rfl rfl
      | some best => exact orderly_switchTo _ rfl _

theorem orderly_handle (event : PipelineEvent) :
    (handle settings event).Orderly settings given 0 := by
  have hfailed : (handleFailed settings event).Orderly settings given 0 := by
    refine Nests.bind (orderly_validFreshItem _) fun found _ ↦ ?_
    cases found with
    | none => exact Nests.ret trivial
    | some entry => exact orderly_updateMrState rfl rfl
  unfold handle
  split_ifs
  · exact Nests.ret trivial
  · split
    · exact orderly_handleSuccess _
    · exact hfailed
    · exact orderly_handleCanceled _
    · exact Nests.ret trivial

end PipelineWebhookHandler

end MergeQueue
