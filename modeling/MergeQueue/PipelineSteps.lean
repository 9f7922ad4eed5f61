import MergeQueue.PipelineHandler
import MergeQueue.StateEntry
import MergeQueue.Lib.Oracle

/-!
# What following a pipeline asks for

Beside the transitions that its results cause, following a pipeline asks for pipelines
and jobs, and retries jobs.  It reads no merge request and does not rebase or sleep.
-/

namespace MergeQueue

open Interleave (Observer Program Reply)
open Interleave.Program (Asks Keeps Leaves Safe Told)
open QueueCompletion (enters_settles)

instance : Inhabited Local := ⟨{}⟩

abbrev ProgExchange := Interleave.Exchange Op Op.Answer PyError

/-- How the world answers the operations, where it stays as it is. -/
def World.reply (qm : QueueManager) (w : World) (choice : Choice) :
    Reply Op Op.Answer PyError := fun op ↦
  match w.exec qm 0 choice op with
  | some (answer, _) => answer
  | none => .error .cancelled

/-- The request is about pipelines and their jobs. -/
def GitLabCall.follows : GitLabCall → Bool
  | getMrPipelines _ | getLatestMrPipeline _ | getPipelineStatus _ | getPipelineJobs _
  | retryPipelineJob _ => true
  | call => call.settles

/-- The operation belongs to a transition, or is about pipelines and their jobs. -/
def Op.follows : Op → Bool
  | gitlab call => call.follows
  | shutdownRequested | sleep _ => false
  | _ => true

theorem Op.follows_of_settles {op : Op} (h : op.settles = true) : op.follows = true := by
  cases op with
  | gitlab call => cases call <;> first | rfl | cases h
  | shutdownRequested | sleep => cases h
  | _ => rfl

/-- The program follows a pipeline. -/
abbrev Prog.Follows {α : Type} (p : Prog α) : Prop :=
  p.Keeps (fun op ↦ op.follows = true) fun _ ↦ True

/-! ## Polling -/

section Polling

variable {α : Type} {permits : Op → Prop} {inv : Local → Prop}

theorem keeps_catching {handles : PyError → Bool} {p : Prog α} {handler : PyError → Prog α}
    (hp : p.Keeps permits inv) (hhandler : ∀ e, (handler e).Keeps permits inv) :
    (catching handles p handler).Keeps permits inv := by
  refine Keeps.handle hp fun e ↦ ?_
  split_ifs
  · exact hhandler e
  · exact Keeps.throw e

/-- What is known where the program raises, is known where it is handled. -/
theorem told_catching {μ : Type} {O : Observer Op Op.Answer PyError μ}
    {pre : Local → μ → Prop} {post : α → Local → μ → Prop} {except : PyError → Local → μ → Prop}
    (raised : Local → μ → Prop) {handles : PyError → Bool} {p : Prog α}
    {handler : PyError → Prog α} (hp : p.Told O pre post fun _ ↦ raised)
    (hhandler : ∀ e, (handler e).Told O raised post except)
    (hrest : ∀ e s m, raised s m → except e s m) :
    (catching handles p handler).Told O pre post except := by
  refine Safe.handle hp fun e ↦ ?_
  split_ifs
  · exact hhandler e
  · exact Safe.throw (hrest e)

/-- Polling asks for what the poll asks for, for the time, and whether to go on. -/
theorem keeps_pollUntilDone {settings : Settings} {timeoutSeconds interval : ℕ}
    {pollFn : Prog (Option α)} (hshutdown : permits .shutdownRequested) (hnow : permits .now)
    (hsleep : permits (.sleep (.poll interval))) (hpoll : pollFn.Keeps permits inv) :
    (pollUntilDone settings timeoutSeconds interval pollFn).Keeps permits inv := by
  refine Keeps.bind (Keeps.call hnow) fun start ↦ Keeps.loop (fun _ ↦ ?_) _ _
  refine Keeps.bind (Keeps.call hshutdown) fun stopping ↦ ?_
  split_ifs
  · exact Keeps.ret _
  · refine Keeps.bind (Keeps.call hnow) fun before ↦ ?_
    split_ifs
    · exact Keeps.ret _
    · refine Keeps.bind hpoll fun polled ↦ ?_
      cases polled with
      | some result => exact Keeps.ret _
      | none =>
          refine Keeps.bind (Keeps.call hnow) fun after ↦ ?_
          split_ifs
          · exact Keeps.ret _
          · refine Keeps.bind (Keeps.call hsleep) fun slept ↦ ?_
            split_ifs
            · exact Keeps.ret _
            · exact Keeps.ret _

/-- What is known at the steps of a wait since a time: before it asks whether to stop, before
it asks for the time, before the poll, after a poll without a result, before it sleeps, and
where it ends with a result, out of time or stopped. -/
structure WaitSteps (α μ : Type) where
  between : ℤ → Local → μ → Prop
  asked : ℤ → Local → μ → Prop
  ready : ℤ → Local → μ → Prop
  polled : ℤ → Local → μ → Prop
  resting : ℤ → Local → μ → Prop
  done : α → Local → μ → Prop
  lapsed : Local → μ → Prop
  stopped : Local → μ → Prop

namespace WaitSteps

variable {μ : Type} (W : WaitSteps α μ)

def ofPoll (start : ℤ) (out : Option α) (s : Local) (m : μ) : Prop :=
  match out with
  | some result => W.done result s m
  | none => W.polled start s m

def ofOutcome (outcome : PollOutcome α) (s : Local) (m : μ) : Prop :=
  match outcome with
  | .completed result => W.done result s m
  | .timedOut => W.lapsed s m
  | .shutdownRequested => W.stopped s m

end WaitSteps

theorem told_pollUntilDone {μ : Type} {O : Observer Op Op.Answer PyError μ} {settings : Settings}
    {timeoutSeconds interval : ℕ} {pollFn : Prog (Option α)} {pre : Local → μ → Prop}
    {except : PyError → Local → μ → Prop} (W : WaitSteps α μ)
    (hstart : Prog.now.Told O pre W.between except)
    (hbetween : ∀ start, (Prog.await .shutdownRequested).Told O (W.between start)
      (fun stopping s m ↦ if stopping then W.stopped s m else W.asked start s m) except)
    (hasked : ∀ start, Prog.now.Told O (W.asked start)
      (fun now s m ↦
        if expired start now timeoutSeconds then W.lapsed s m else W.ready start s m) except)
    (hready : ∀ start, pollFn.Told O (W.ready start) (W.ofPoll start) except)
    (hpolled : ∀ start, Prog.now.Told O (W.polled start)
      (fun now s m ↦
        if expired start now timeoutSeconds then W.lapsed s m else W.resting start s m) except)
    (hresting : ∀ start, (Prog.await (.sleep (.poll interval))).Told O (W.resting start)
      (fun slept s m ↦ if slept then W.between start s m else W.stopped s m) except) :
    (pollUntilDone settings timeoutSeconds interval pollFn).Told O pre W.ofOutcome except := by
  refine Safe.bind hstart fun start ↦ Told.loop (fun _ ↦ W.between start) (fun _ ↦ ?_) _ _
  refine Safe.bind (hbetween start) fun stopping ↦ ?_
  cases stopping with
  | true => exact Safe.ret fun _ _ h ↦ h
  | false =>
      refine Safe.bind (hasked start) fun before ↦ ?_
      cases hbefore : expired start before timeoutSeconds with
      | true => exact Safe.ret fun _ _ h ↦ h
      | false =>
          refine Safe.bind (hready start) fun out ↦ ?_
          cases out with
          | some result => exact Safe.ret fun _ _ h ↦ h
          | none =>
              refine Safe.bind (hpolled start) fun after ↦ ?_
              cases hafter : expired start after timeoutSeconds with
              | true => exact Safe.ret fun _ _ h ↦ h
              | false =>
                  refine Safe.bind (hresting start) fun slept ↦ ?_
                  cases slept with
                  | true => exact Safe.ret fun _ _ h ↦ h
                  | false => exact Safe.ret fun _ _ h ↦ h

end Polling

namespace PipelineHandler

variable {settings : Settings}

theorem follows_await {op : Op} (h : op.follows = true) : (Prog.await op).Follows := Keeps.call h

theorem follows_of_settles {α : Type} {p : Prog α}
    (h : p.Keeps (fun op ↦ op.settles = true) fun _ ↦ True) : p.Follows :=
  h.mono fun _ ↦ Op.follows_of_settles

theorem follows_triggerPipelineFailed (failedJobs : List String)
    (retriedJobs : List (String × ℕ)) (errorMessage : String) :
    (MRStateMachine.triggerPipelineFailed settings failedJobs retriedJobs errorMessage).Follows :=
  follows_of_settles (MRStateMachine.keeps_triggerPipelineFailed enters_settles _ _ _)

theorem follows_writeTesting (mrIid : ℕ) (extra : QueueManager.Extra) :
    (writeTesting settings mrIid extra).Follows :=
  keeps_updateMrState (K := fun _ ↦ True) rfl

/-! ## Retries -/

theorem follows_retryJobs (jobs : List Job) : (retryJobs jobs).Follows := by
  induction jobs with
  | nil => exact Keeps.ret []
  | cons job jobs ih =>
      refine Keeps.bind ?_ fun answer ↦ Keeps.bind ih fun answers ↦ Keeps.ret _
      exact keeps_catching (Keeps.bind (Keeps.call rfl) fun _ ↦ Keeps.ret _) fun _ ↦ Keeps.ret _

theorem follows_retriedExternally (pipelineId : ℕ) (errors : List (Job × PyError)) :
    (retriedExternally pipelineId errors).Follows := by
  unfold retriedExternally
  split_ifs
  · exact Keeps.bind (Keeps.call rfl) fun _ ↦ Keeps.ret _
  · exact Keeps.ret _

theorem follows_persistRetries (mrIid : ℕ) (updated : List (String × ℕ))
    (answers : List (Job × Except PyError Job)) :
    (persistRetries settings mrIid updated answers).Follows := by
  unfold persistRetries
  split_ifs
  · exact Keeps.ret _
  · exact follows_writeTesting _ _

theorem follows_handleRetryApiFailures (mrIid : ℕ) (pipeline : Pipeline)
    (updated : List (String × ℕ)) (answers : List (Job × Except PyError Job)) (first : PyError) :
    (handleRetryApiFailures settings mrIid pipeline updated answers first).Follows := by
  refine Keeps.bind (follows_retriedExternally _ _) fun external ↦ ?_
  split_ifs
  · exact Keeps.bind (Keeps.call rfl) fun _ ↦ Keeps.ret _
  · exact Keeps.bind (follows_persistRetries _ _ _) fun _ ↦
      Keeps.bind (follows_triggerPipelineFailed _ _ _) fun _ ↦ Keeps.ret _

theorem follows_dispatchJobRetries (mrIid : ℕ) (pipeline : Pipeline) (jobsToRetry : List Job)
    (retriedJobs : List (String × ℕ)) (maxJobRetries : ℕ) :
    (dispatchJobRetries settings mrIid pipeline jobsToRetry retriedJobs maxJobRetries).Follows := by
  refine Keeps.bind (follows_retryJobs _) fun answers ↦ ?_
  simp only
  split
  · exact follows_handleRetryApiFailures _ _ _ _ _
  · refine Keeps.bind (follows_writeTesting _ _) fun _ ↦ ?_
    refine Keeps.bind (follows_of_settles (MRStateMachine.keeps_of_tends Op.settles_of_tends
      (MRNotifier.tends_buildPipelineUrl _))) fun _ ↦ ?_
    have hcomment := MRStateMachine.keeps_notifyJobRetry (@enters_settles settings) pipeline.id
    refine Keeps.bind (follows_of_settles (hcomment _ _ _ _)) fun _ ↦ ?_
    exact Keeps.bind (Keeps.call rfl) fun _ ↦ Keeps.ret _

theorem follows_fetchPipelineJobs (pipeline : Pipeline) (retriedJobs : List (String × ℕ)) :
    (fetchPipelineJobs settings pipeline retriedJobs).Follows := by
  refine Keeps.bind (keeps_catching (Keeps.bind (Keeps.call rfl) fun _ ↦ Keeps.ret _)
    fun _ ↦ Keeps.ret _) fun fetched ↦ ?_
  cases fetched with
  | error e => exact Keeps.bind (follows_triggerPipelineFailed _ _ _) fun _ ↦ Keeps.ret _
  | ok jobs =>
      simp only
      split_ifs
      · exact Keeps.bind (follows_triggerPipelineFailed _ _ _) fun _ ↦ Keeps.ret _
      · exact Keeps.ret _

theorem follows_handleNoFailedJobs (jobs : List Job) (retriedJobs : List (String × ℕ)) :
    (handleNoFailedJobs settings jobs retriedJobs).Follows := by
  unfold handleNoFailedJobs
  split_ifs
  · exact Keeps.ret _
  · exact Keeps.bind (follows_triggerPipelineFailed _ _ _) fun _ ↦ Keeps.ret _

theorem follows_handlePipelineFailureRetry (mrIid : ℕ) (pipeline : Pipeline)
    (retriedJobs : List (String × ℕ)) :
    (handlePipelineFailureRetry settings mrIid pipeline retriedJobs).Follows := by
  refine Keeps.bind (follows_fetchPipelineJobs _ _) fun fetched ↦ ?_
  cases fetched with
  | none => exact Keeps.ret _
  | some jobs =>
      simp only
      split_ifs
      · exact follows_handleNoFailedJobs _ _
      · exact follows_dispatchJobRetries _ _ _ _ _
      · exact Keeps.bind (follows_triggerPipelineFailed _ _ _) fun _ ↦ Keeps.ret _

theorem follows_handlePipelineFailure (mrIid : ℕ) (pipeline : Pipeline)
    (retriedJobs : List (String × ℕ)) :
    (handlePipelineFailure settings mrIid pipeline retriedJobs).Follows := by
  refine Keeps.bind (Keeps.call rfl) fun item ↦ ?_
  refine Keeps.bind (follows_handlePipelineFailureRetry _ _ _) fun signal ↦ ?_
  cases signal with
  | none => exact Keeps.ret _
  | some signal => exact Keeps.ret _

/-! ## Statuses -/

theorem follows_trySwitchToReplacementPipeline (mrIid : ℕ) (pipeline : Pipeline) :
    (trySwitchToReplacementPipeline settings mrIid pipeline).Follows := by
  refine Keeps.bind (Keeps.call rfl) fun item ↦ ?_
  split
  · exact Keeps.ret _
  · refine Keeps.bind (Keeps.call rfl) fun pipelines ↦ ?_
    split
    · exact Keeps.ret _
    · exact Keeps.bind (follows_writeTesting _ _) fun _ ↦ Keeps.ret _

theorem follows_handleSuccess (mrIid : ℕ) (pipeline : Pipeline) :
    (handleSuccess settings mrIid pipeline).Follows := by
  refine Keeps.bind (Keeps.call rfl) fun item ↦ ?_
  split_ifs
  · exact Keeps.ret _
  · have hfire := @MRStateMachine.keeps_fire settings _ enters_settles .pipelineSuccess
      (by decide)
    exact Keeps.bind (follows_of_settles hfire) fun _ ↦
      Keeps.ret _

theorem follows_handleCanceled (mrIid : ℕ) (pipeline : Pipeline)
    (retriedJobs : List (String × ℕ)) :
    (handleCanceled settings mrIid pipeline retriedJobs).Follows := by
  refine Keeps.bind (follows_trySwitchToReplacementPipeline _ _) fun switched ↦ ?_
  split_ifs
  · exact Keeps.ret _
  · refine Keeps.bind (keeps_catching (Keeps.bind (Keeps.call rfl) fun _ ↦ Keeps.ret _)
      fun _ ↦ Keeps.ret _) fun failedJobs ↦ ?_
    exact Keeps.bind (follows_triggerPipelineFailed _ _ _) fun _ ↦ Keeps.ret _

theorem follows_handlePipelineStatus (mrIid : ℕ) (pipeline : Pipeline)
    (retriedJobs : List (String × ℕ)) :
    (handlePipelineStatus settings mrIid pipeline retriedJobs).Follows := by
  unfold handlePipelineStatus
  split
  · exact follows_handleSuccess _ _
  · exact follows_handleCanceled _ _ _
  · exact follows_handlePipelineFailure _ _ _
  · split
    · exact Keeps.ret _
    · exact Keeps.bind (follows_triggerPipelineFailed _ _ _) fun _ ↦ Keeps.ret _

/-! ## The loop -/

theorem follows_hasLastChance (mrIid : ℕ) (state : PipelineWaitState) :
    (hasLastChance mrIid state).Follows := by
  unfold hasLastChance
  split_ifs
  · exact Keeps.ret _
  · exact Keeps.bind (Keeps.call rfl) fun _ ↦ Keeps.ret _

theorem follows_checkStalePipeline (mrIid : ℕ) (pipeline : Pipeline) :
    (checkStalePipeline settings mrIid pipeline).Follows :=
  Keeps.bind (Keeps.call rfl) fun _ ↦ Keeps.ret _

end PipelineHandler

/-! ## Rebases during testing that fail -/

/-- A rebase that fails ends the loop with a result, or raises what is not an outcome. -/
theorem RebaseCoordinator.asks_failRebase {settings : Settings} {permits : Op → Prop}
    (hsettles : ∀ op : Op, op.settles = true → permits op) {mrIid : ℕ}
    (hconflicts : permits (.gitlab (.getMrConflicts mrIid))) (state : PipelineWaitState)
    (e : PyError) :
    (failRebase settings mrIid state e).Asks (fun _ _ ↦ True) (fun _ ↦ permits) (fun _ ↦ True)
      (fun out _ ↦ ∃ result, out = .result result) fun _ _ ↦ True := by
  have hfailed (jobs : List String) (retried : List (String × ℕ)) (message : String) :=
    (MRStateMachine.keeps_triggerPipelineFailed (@enters_settles settings) jobs retried
      message).mono hsettles
  unfold failRebase
  split
  · exact Asks.bind (hfailed _ _ _) fun _ ↦ Asks.ret fun _ _ ↦ ⟨_, rfl⟩
  · split_ifs
    · have hread : (Prog.gitlab (.getMrConflicts mrIid)).Keeps permits fun _ ↦ True :=
        Keeps.call hconflicts
      refine Asks.bind hread fun files ↦ ?_
      exact Asks.bind
        ((MRStateMachine.keeps_triggerConflictDuringTesting enters_settles _ _).mono hsettles)
        fun _ ↦ Asks.ret fun _ _ ↦ ⟨_, rfl⟩
    · exact Asks.bind (hfailed _ _ _) fun _ ↦ Asks.ret fun _ _ ↦ ⟨_, rfl⟩
    · exact Asks.throw fun _ _ ↦ trivial

/-! ## Checks on the merge request -/

theorem keeps_verifyMrInQueue {settings : Settings} {mrIid : ℕ} {permits : Op → Prop}
    (hread : permits (.gitlab (.getMr mrIid false)))
    (hlabel : permits (.gitlab (.removeMrLabel mrIid [settings.queueLabel]))) :
    (verifyMrInQueue settings mrIid).Keeps permits fun _ ↦ True := by
  refine keeps_catching ?_ fun _ ↦ Keeps.ret _
  refine Keeps.bind (Keeps.call hread) fun mr ↦ ?_
  split_ifs
  · refine Keeps.bind (keeps_catching ?_ fun _ ↦ Keeps.ret ()) fun _ ↦ Keeps.ret _
    exact Keeps.bind (Keeps.call hlabel) fun _ ↦ Keeps.ret ()
  · exact Keeps.ret _
  · exact Keeps.ret _
  · exact Keeps.ret _

end MergeQueue
